import OwStorage.Owfs.Lemmas.Session
import OwStorage.Owfs.Lemmas.Spend
import OwStorage.Owfs.Format

/-!
# フォーマットしたボリューム

通ったフォーマットが、領域の重ならない配置と、ボリュームの条件を満たすディスクを残すことを示す。
-/

namespace OwStorage.Owfs

open Lib Prog

/-! ## 配置 -/

section

variable {totalBlocks : UInt32} {label : Option (List UInt8)} {nonce : Bytes 12}

theorem toNat_layoutBitmapBlocks (hmin : ¬ totalBlocks < 275) (hne : layoutBitmapBlocks totalBlocks ≠ 0) :
    (layoutBitmapBlocks totalBlocks).toNat = (totalBlocks.toNat - 273 + 32768) / 32769 ∧
      totalBlocks.toNat - 273 + 32768 < 2 ^ 32 := by
  have hlt := totalBlocks.toNat_lt
  have hmin' : 275 ≤ totalBlocks.toNat := by
    rw [UInt32.not_lt, UInt32.le_iff_toNat_le] at hmin
    exact hmin
  have hsub : (totalBlocks - fixedOverhead).toNat = totalBlocks.toNat - 273 :=
    toNat_sub_le (show (273 : UInt32).toNat ≤ _ by simp; omega)
  by_cases hover : totalBlocks.toNat - 273 + 32768 < 2 ^ 32
  · refine ⟨?_, hover⟩
    unfold layoutBitmapBlocks
    rw [UInt32.toNat_div, toNat_add_lt (by rw [hsub]; exact hover), hsub]
    rfl
  · -- 桁あふれのときは、ビットマップのブロックの数が 0 になる。
    refine absurd ?_ hne
    apply UInt32.toNat_inj.mp
    unfold layoutBitmapBlocks
    rw [UInt32.toNat_div, UInt32.toNat_add, hsub]
    simp only [UInt32.reduceToNat]
    omega

theorem layout_freshSuperblock (label : Option (List UInt8)) (nonce : Bytes 12) (hmin : ¬ totalBlocks < 275)
    (hfit : ¬ totalBlocks ≤ 17 + layoutBitmapBlocks totalBlocks + 256)
    (hne : layoutBitmapBlocks totalBlocks ≠ 0) : Layout (freshSuperblock totalBlocks label nonce) := by
  obtain ⟨hbm, hover⟩ := toNat_layoutBitmapBlocks hmin hne
  have hlt := totalBlocks.toNat_lt
  have hstart : (17 + layoutBitmapBlocks totalBlocks).toNat = 17 + (layoutBitmapBlocks totalBlocks).toNat :=
    toNat_add_lt (by simp; omega)
  have hdata : (17 + layoutBitmapBlocks totalBlocks + 256).toNat =
      17 + (layoutBitmapBlocks totalBlocks).toNat + 256 := by
    rw [toNat_add_lt (by rw [hstart]; simp; omega), hstart]
    rfl
  rw [UInt32.not_le, UInt32.lt_iff_toNat_lt, hdata] at hfit
  refine ⟨?_, ?_, ?_, ?_, ?_, ?_, ?_⟩
  · change 16 < (17 : UInt32).toNat
    decide
  · change (17 : UInt32).toNat + (layoutBitmapBlocks totalBlocks).toNat ≤ (17 + layoutBitmapBlocks totalBlocks).toNat
    rw [hstart]
    rfl
  · change (17 + layoutBitmapBlocks totalBlocks).toNat + (256 : UInt32).toNat ≤
      (17 + layoutBitmapBlocks totalBlocks + 256).toNat
    rw [hstart, hdata]
    rfl
  · change (17 + layoutBitmapBlocks totalBlocks + 256).toNat < totalBlocks.toNat
    rw [hdata]
    exact hfit
  · change (0x1000 : UInt32).toNat ≤ 16 * (256 : UInt32).toNat
    decide
  · change totalBlocks.toNat - (17 + layoutBitmapBlocks totalBlocks + 256).toNat ≤
      (layoutBitmapBlocks totalBlocks).toNat * 32768
    rw [hdata]
    omega
  · change (layoutBitmapBlocks totalBlocks).toNat * 32768 ≤ 2 ^ 32
    omega

end

/-! ## 0 で埋める -/

/-- ブロックの範囲 `[start, start + n)` を 0 で埋めた。 -/
structure Zeroed (start n : Nat) (v v' : Vol) : Prop where
  sb : v'.sb = v.sb
  dev : v.dev.Evolves { b | start ≤ b.toNat ∧ b.toNat < start + n } v'.dev
  zero : ∀ b : UInt32, start ≤ b.toNat → b.toNat < start + n → v'.dev.disk b = Bytes.zero 4096
  unprotected : 0 < n → v.dev.writeProtect = 0

theorem wp_zeroFill {v : Vol} (start : UInt32) {n : Nat} (hfit : start.toNat + n < 2 ^ 32)
    {body : Nat → OwfsM Unit}
    (hbody : ∀ i v, wp (body i) (fun _ v' => v.dev.Writes (start + UInt32.ofNat i) ∧
      ∃ c, v' = v.put (start + UInt32.ofNat i) (Bytes.zero 4096) c) (fun _ _ => True) v) :
    wp (forUpto n body) (fun _ v' => Zeroed start.toNat n v v') (fun _ _ => True) v := by
  refine wp_forUpto (fun k v' => Zeroed start.toNat k v v') ?_ ?_ (fun _ h => h)
  · exact ⟨rfl, .refl _ _, fun b h h' => absurd h' (by omega), fun h => absurd h (by omega)⟩
  · intro i v₁ hi hz
    have hat : (start + UInt32.ofNat i).toNat = start.toNat + i := by
      rw [toNat_add_lt (by rw [toNat_ofNat_lt (by omega)]; omega), toNat_ofNat_lt (by omega)]
    refine (hbody i v₁).mono ?_ (fun _ _ h => h)
    rintro _ _ ⟨hw, c, rfl⟩
    refine ⟨hz.sb, (hz.dev.mono ?_).trans (.store ?_), fun b hlo hhi => ?_, fun _ => ?_⟩
    · intro b hb
      exact ⟨hb.1, Nat.lt_succ_of_lt hb.2⟩
    · change _ ∧ _
      rw [hat]
      omega
    · by_cases hb : b = start + UInt32.ofNat i
      · rw [hb]
        exact Function.update_self _ _ _
      · have hne : b.toNat ≠ start.toNat + i := by
          rw [← hat]
          exact fun h => hb (UInt32.toNat_inj.mp h)
        exact (Function.update_of_ne hb _ _).trans (hz.zero b hlo (by omega))
    · rw [← hz.dev.config]
      exact hw.unprotected

theorem bitmapInit_spec {v : Vol} (hl : v.sb.bitmapBlockCount ≠ 0 → Layout v.sb) :
    wp bitmapInit
      (fun _ v' => Layout v.sb ∧ v.dev.writeProtect = 0 ∧
        Zeroed v.sb.bitmapStartBlock.toNat v.sb.bitmapBlockCount.toNat v v')
      (fun _ _ => True) v := by
  unfold bitmapInit
  simp only [wp_bind, wp_get, wp_failIf]
  refine ⟨fun _ => trivial, fun hz => ?_⟩
  rw [not_or] at hz
  have hl := hl hz.2
  have hpos : 0 < v.sb.bitmapBlockCount.toNat := Nat.pos_of_ne_zero fun h => hz.2 (UInt32.toNat_inj.mp h)
  have := hl.tableAfter
  have := hl.dataAfter
  have := hl.dataNonempty
  have := v.sb.totalBlocks.toNat_lt
  refine (wp_zeroFill v.sb.bitmapStartBlock (by omega) fun i v₁ => ?_).mono
    (fun _ _ hz => ⟨hl, hz.unprotected hpos, hz⟩) (fun _ _ h => h)
  simp only [wp_bind, wp_failIf]
  exact ⟨fun _ => trivial, fun _ => wp_writeBlk (fun c hw => ⟨hw, c, rfl⟩) (fun _ _ _ _ => trivial)⟩

/-! ## 空のボリューム -/

theorem enc_zero_inode : Inode.codec.enc Inode.zero = List.replicate 256 0 := by decide +kernel

theorem inodeIn_zero (n : UInt32) : inodeIn (Bytes.zero 4096) n = Inode.zero := by
  have hidx := toNat_inodeEntryIndex n
  have hslice : (Bytes.zero 4096).slice ((inodeEntryIndex n).toNat * 256) 256 = List.replicate 256 0 := by
    unfold Bytes.slice Bytes.zero
    rw [Vector.toList_replicate, List.drop_replicate, List.take_replicate]
    congr 1
    omega
  unfold inodeIn
  rw [hslice, ← enc_zero_inode, Inode.codec.dec_enc]

theorem shaped_zero : Inode.zero.Shaped :=
  ⟨Nat.zero_le _, Nat.zero_le _, ⟨fun h => absurd rfl h, fun h => absurd h (Nat.not_lt_zero _)⟩⟩

theorem volInv_of_zero {v : Vol} (hl : Layout v.sb)
    (hbit : ∀ b ∈ v.sb.bitmapRegion, v.dev.disk b = Bytes.zero 4096)
    (htab : ∀ b ∈ v.sb.tableRegion, v.dev.disk b = Bytes.zero 4096)
    (hfree : v.sb.freeBlocks.toNat = v.sb.dataCount) :
    VolInv v ∧ Summed v ∧ ∀ n : UInt32, n.toNat < v.sb.totalInodes.toNat →
      (inodeAt v.dev.disk v.sb n).entryType = 0 := by
  have hat : ∀ n : UInt32, n.toNat < v.sb.totalInodes.toNat → inodeAt v.dev.disk v.sb n = Inode.zero := by
    intro n hn
    unfold inodeAt
    rw [htab _ (inodeBlockOffset_mem hl hn), inodeIn_zero]
  have hsound : Sound v.dev.disk v.sb fun _ => Inode.zero := by
    refine ⟨hl, fun _ _ => shaped_zero, ⟨fun x hx => ?_, fun x hx => ?_⟩⟩ <;>
    · obtain ⟨n, r⟩ := x
      cases r with
      | none => exact absurd rfl hx.2
      | some i => exact absurd hx.2 (Nat.not_lt_zero _)
  refine ⟨⟨hsound.congr_table fun n hn => ?_, ?_⟩, fun n hn ht => absurd ?_ ht, fun n hn => by rw [hat n hn]; rfl⟩
  · unfold slotInode
    rw [hat n hn]
    rfl
  · have hall : freeCount v.dev.disk v.sb = v.sb.dataCount := by
      unfold freeCount
      rw [Nat.count_iff_forall]
      intro r hr
      unfold bitOf
      rw [hbit _ (bitmapBlockOf_mem hl (lt_of_lt_of_le hr hl.bitmapCovers)), Bytes.bitAt_zero]
    exact hfree.trans hall.symm
  · rw [hat n hn]
    rfl

/-! ## フォーマットの結果 -/

/-- フォーマットを終えたボリューム。メモリの上とディスクの上のスーパーブロックは同じである。 -/
structure Formatted (v : Vol) : Prop extends VolInv v where
  sums : Summed v
  serves : Serves v.dev.toHtlConfig v.sb
  disk : diskSb v = v.sb
  valid : superblockValidate v.sb = true
  flags : v.sb.stateFlags = 0
  fletcher : v.dev.FaultFree → v.sb.fletcher64Bitmap = bitmapFletcher v.dev.disk v.sb

/-- 根のカタログだけを持つボリューム。根のブロックは 0 で埋まり、空きの数の欄は、まだ根を数えていない。 -/
structure Blank (v : Vol) : Prop where
  slots : v.sb.totalInodes = 0x1000
  counter : v.sb.freeInodes = 0x1000
  root : slotVacant (inodeAt v.dev.disk v.sb 0) = false
  others : ∀ n : UInt32, n.toNat < v.sb.totalInodes.toNat → n ≠ 0 → (inodeAt v.dev.disk v.sb n).entryType = 0
  zeroed : ∀ i < (inodeAt v.dev.disk v.sb 0).blockCount.toNat,
    v.dev.disk (mapBlock v.dev.disk (inodeAt v.dev.disk v.sb 0) i) = Bytes.zero 4096

theorem Blank.inTable {v : Vol} (h : Blank v) : (0 : UInt32).toNat < v.sb.totalInodes.toNat := by
  rw [h.slots]
  decide

theorem Blank.eq_root {v : Vol} (h : Blank v) {n : UInt32} (hn : n.toNat < v.sb.totalInodes.toNat)
    (ht : (inodeAt v.dev.disk v.sb n).entryType ≠ 0) : n = 0 := by
  by_contra hne
  exact ht (h.others n hn hne)

theorem Blank.resave {v v' : Vol} (h : Blank v) (hw : WellFormed v) (hsb : SameLedger v.sb v'.sb)
    (hd : v.dev.Evolves {superblockBlock} v'.dev) : Blank v' := by
  have hs := hw.resave_spares hsb hd
  have hrow : inodeAt v'.dev.disk v'.sb 0 = inodeAt v.dev.disk v.sb 0 := hs.record 0 h.inTable (Set.notMem_empty 0)
  refine ⟨hsb.totalInodes.trans h.slots, hsb.freeInodes.trans h.counter, ?_, fun n hn hne => ?_, fun i hi => ?_⟩
  · rw [hrow]
    exact h.root
  · rw [hsb.totalInodes] at hn
    rw [hs.record n hn (Set.notMem_empty n)]
    exact h.others n hn hne
  · rw [hrow] at hi ⊢
    obtain ⟨hmap, hblk⟩ := hs.mapped_eq hw h.inTable (Set.notMem_empty 0) (type_ne_zero_of_live h.root) hi
    rw [hmap, hblk]
    exact h.zeroed i hi

theorem noRef_rootInode (r : Option Nat) : ¬ rootInode.HasRef r := by
  cases r with
  | none => exact fun h => h rfl
  | some i => exact Nat.not_lt_zero _

theorem shaped_rootInode : rootInode.Shaped :=
  ⟨Nat.zero_le _, Nat.zero_le _, ⟨fun h => absurd rfl h, fun h => absurd h (Nat.not_lt_zero _)⟩⟩

theorem formatRoot_spec {v : Vol} (hinv : VolInv v) (hs : Summed v)
    (hempty : ∀ n : UInt32, n.toNat < v.sb.totalInodes.toNat → (inodeAt v.dev.disk v.sb n).entryType = 0)
    (hslots : v.sb.totalInodes = 0x1000) (hcounter : v.sb.freeInodes = 0x1000) :
    wp formatRoot
      (fun _ v' => VolInv v' ∧ Summed v' ∧ Blank v' ∧ SameShape v.sb v'.sb ∧ v.dev.Evolves v.sb.ownBlocks v'.dev)
      (fun _ _ => True) v := by
  have hn : 0 < v.sb.totalInodes.toNat := by
    rw [hslots]
    decide
  have hsound : Sound v.dev.disk v.sb (Function.update (slotInode v.dev.disk v.sb) 0 rootInode) :=
    Sound.vacate hinv.sound shaped_rootInode noRef_rootInode
  have halloc := (allocAndZero_room (Room.refl hsound)).and (spends_allocAndZero v)
  unfold allocAndZero at halloc
  unfold formatRoot
  simp only [wp_bind, wp_attempt] at halloc ⊢
  refine halloc.mono ?_ (fun _ _ _ => trivial)
  intro b v₁ hz
  refine hz.mono ?_ ?_
  · rintro _ v₂ ⟨ht, hspent⟩
    have ht : Taken _ v v v₂ b := ht
    have hp := pushed_direct (n := 0) (s := ⟨v, rootInode⟩) hn (show rootInode.blockCount.toNat < 10 by decide) ht
    simp only [wp_withInode]
    refine (inodeWrite_spec hp.ext.sound.layout 0).mono ?_ (fun _ _ _ => trivial)
    rintro _ s' ⟨_, hrec⟩
    have hn' : 0 < v₂.sb.totalInodes.toNat := by rwa [ht.room.shape.totalInodes]
    have hset := hrec.settled ht.room.staged (hp.ext.sound.remap (rootInode.pushDirect b).sealed hn'
      ⟨rfl, rfl, rfl, rfl⟩ (Nat.zero_le _)) hsound (hp.ext.untouched hsound hn)
    have hroot : inodeAt s'.vol.dev.disk s'.vol.sb 0 = (rootInode.pushDirect b).sealed := by
      rw [hset.table 0 hn, if_pos rfl]
    refine ⟨⟨hset.wellFormed (show rootInode.entryType ≠ 0 by decide), hset.exact hinv.exact⟩,
      hset.summed hs (verify_sealed _), ⟨?_, ?_, ?_, fun m hm hne => ?_, fun i hi => ?_⟩, hset.shape, hset.dev⟩
    · rw [hset.shape.totalInodes, hslots]
    · rw [hrec.sb]
      exact hspent.freeInodes.trans hcounter
    · rw [hroot]
      exact (by decide : slotVacant rootInode = false)
    · rw [hset.shape.totalInodes] at hm
      rw [hset.table m hm, if_neg hne]
      exact hempty m hm
    · rw [hroot] at hi ⊢
      obtain rfl : i = 0 := Nat.lt_one_iff.mp hi
      rw [hrec.block_eq hp.ext.sound hn' rfl rfl (i := 0) Nat.one_pos]
      exact (congrArg v₂.dev.disk hp.last).trans ht.zeroed
  · intro e v₂ _
    exact wp_trivial

/-- スーパーブロックから、`totalBlocks` 個目の手前までのブロック。 -/
def volumeBlocks (totalBlocks : UInt32) : Set UInt32 :=
  { b | superblockBlock.toNat ≤ b.toNat ∧ b.toNat < totalBlocks.toNat }

/-- 装置 `d` から、`totalBlocks` 個のブロックのボリュームの中だけを書いて `v` に着いた。 -/
structure Housed (totalBlocks : UInt32) (d : HtlDevice) (v : Vol) : Prop where
  total : v.sb.totalBlocks = totalBlocks
  dev : d.Evolves (volumeBlocks totalBlocks) v.dev

section

variable {totalBlocks : UInt32} {d : HtlDevice} {v v' : Vol}

theorem volumeBlocks_of_own {sb : Superblock} (htotal : sb.totalBlocks = totalBlocks) :
    sb.ownBlocks ⊆ volumeBlocks totalBlocks := by
  rintro b ⟨hlo, hhi⟩
  rw [htotal] at hhi
  exact ⟨hlo.le, hhi⟩

theorem Layout.superblock_mem {sb : Superblock} (hl : Layout sb) (htotal : sb.totalBlocks = totalBlocks) :
    {superblockBlock} ⊆ volumeBlocks totalBlocks := by
  rintro b rfl
  have := hl.bitmapAfter
  have := hl.tableAfter
  have := hl.dataAfter
  have := hl.dataNonempty
  rw [← htotal]
  exact ⟨le_rfl, by rw [toNat_superblockBlock]; omega⟩

/-- ボリュームの中だけを書いて、大きさを変えなければ、収まったままである。 -/
theorem Housed.trans (h : Housed totalBlocks d v) (htotal : v'.sb.totalBlocks = v.sb.totalBlocks)
    (hdev : v.dev.Evolves (volumeBlocks totalBlocks) v'.dev) : Housed totalBlocks d v' :=
  ⟨htotal.trans h.total, h.dev.trans hdev⟩

end

section

variable {totalBlocks : UInt32} {label : Option (List UInt8)} {nonce : Bytes 12} {d d' : HtlDevice}

theorem serves_freshSuperblock (hsize : d.blockSize = 0x1000)
    (hcap : ¬ (d.totalBlocks > 0 ∧ totalBlocks > d.totalBlocks)) (hwp : d.writeProtect = 0) :
    Serves d.toHtlConfig (freshSuperblock totalBlocks label nonce) := by
  refine ⟨fun b hb => ⟨⟨by rw [hsize]; decide, fun hr => ?_⟩, hwp⟩, hsize⟩
  have hb : b.toNat < totalBlocks.toNat := hb
  have hge := UInt32.le_iff_toNat_le.mp hr.2
  exact hcap ⟨hr.1, UInt32.lt_iff_toNat_lt.mpr (by omega)⟩

theorem formatBody_spec (hsize : d.blockSize = 0x1000)
    (hcap : ¬ (d.totalBlocks > 0 ∧ totalBlocks > d.totalBlocks)) (hmin : ¬ totalBlocks < 275)
    (hfit : ¬ totalBlocks ≤ 17 + layoutBitmapBlocks totalBlocks + 256) :
    wp formatBody (fun _ v' => Formatted v' ∧ Blank v' ∧ Housed totalBlocks d v') (fun _ _ => True)
      ⟨d, freshSuperblock totalBlocks label nonce⟩ := by
  have hlayout := layout_freshSuperblock label nonce hmin hfit
  have hserves : d.writeProtect = 0 → Serves d.toHtlConfig (freshSuperblock totalBlocks label nonce) :=
    serves_freshSuperblock hsize hcap
  have hflags : (freshSuperblock totalBlocks label nonce).stateFlags = 0 := rfl
  have hbrand : (freshSuperblock totalBlocks label nonce).Branded := ⟨rfl, rfl⟩
  have htotal : (freshSuperblock totalBlocks label nonce).totalBlocks = totalBlocks := rfl
  have hslots : (freshSuperblock totalBlocks label nonce).totalInodes = 0x1000 := rfl
  have hcounter : (freshSuperblock totalBlocks label nonce).freeInodes = 0x1000 := rfl
  have hfree : (freshSuperblock totalBlocks label nonce).freeBlocks =
      (freshSuperblock totalBlocks label nonce).totalBlocks -
        (freshSuperblock totalBlocks label nonce).dataRegionStart := rfl
  change (freshSuperblock totalBlocks label nonce).bitmapBlockCount ≠ 0 → _ at hlayout
  clear hmin hfit hcap hsize
  -- ここから先は、配置の具体的な値を使わない。
  generalize freshSuperblock totalBlocks label nonce = sb at *
  unfold formatBody
  rw [wp_bind]
  refine (bitmapInit_spec (v := ⟨d, sb⟩) hlayout).mono ?_ (fun _ _ h => h)
  rintro _ ⟨d₁, sb₁⟩ ⟨hl, hwp, hbit⟩
  obtain rfl : sb₁ = sb := hbit.sb
  have hl : Layout sb₁ := hl
  have hne := hl.dataNonempty
  have hdata := hl.dataAfter
  have htab := hl.tableAfter
  have hlt := sb₁.totalBlocks.toNat_lt
  rw [wp_bind, wp_get, wp_bind]
  refine (wp_zeroFill sb₁.inodeTableStart (n := sb₁.inodeTableBlocks.toNat) (by omega) fun i v₁ =>
    wp_writeBlk (fun c hw => ⟨hw, c, rfl⟩) (fun _ _ _ _ => trivial)).mono ?_ (fun _ _ h => h)
  rintro _ ⟨d₂, sb₂⟩ hzero
  obtain rfl : sb₂ = sb₁ := hzero.sb
  have hbits : ∀ b ∈ sb₂.bitmapRegion, d₂.disk b = Bytes.zero 4096 := by
    intro b hb
    have hkeep := hzero.dev.disk b fun ht => ?_
    · exact hkeep.trans (hbit.zero b hb.1 hb.2)
    · have := hb.2
      have := ht.1
      simp only at *
      omega
  have hcount : sb₂.freeBlocks.toNat = sb₂.dataCount := by
    rw [hfree]
    exact toNat_sub_le hne.le
  obtain ⟨hinv, hsums, hempty⟩ := volInv_of_zero (v := ⟨d₂, sb₂⟩) hl hbits (fun b hb => hzero.zero b hb.1 hb.2) hcount
  have hown : sb₂.ownBlocks ⊆ volumeBlocks totalBlocks := volumeBlocks_of_own htotal
  have hfilled : d.Evolves (volumeBlocks totalBlocks) d₂ :=
    (hbit.dev.mono fun _ hb => hown (hl.bitmap_own hb)).trans (hzero.dev.mono fun _ hb => hown (hl.table_own hb))
  rw [wp_bind]
  refine (formatRoot_spec hinv hsums hempty hslots hcounter).mono ?_ (fun _ _ h => h)
  rintro _ v₃ ⟨hinv₃, hsums₃, hblank₃, hshape, hrooted⟩
  have htotal₃ : v₃.sb.totalBlocks = totalBlocks := hshape.totalBlocks.trans htotal
  have hhoused : Housed totalBlocks d v₃ := ⟨htotal₃, hfilled.trans (hrooted.mono hown)⟩
  have hserves₃ : Serves v₃.dev.toHtlConfig v₃.sb := by
    rw [hhoused.dev.config]
    exact hshape.serves (hserves hwp)
  have hflags₃ : v₃.sb.stateFlags = 0 := by
    obtain ⟨a, b, he⟩ := hshape
    rw [he]
    exact hflags
  have hbrand₃ : v₃.sb.Branded := by
    obtain ⟨a, b, he⟩ := hshape
    rw [he]
    exact hbrand
  refine (syncChanges_spec hinv₃.sound.layout).mono ?_ (fun _ _ _ => trivial)
  rintro _ _ ⟨sum, c, c', rfl, hsum⟩
  have hledger : SameLedger v₃.sb (syncedSb v₃.sb sum).sealed :=
    trans_of SameLedger (.synced v₃.sb sum) (.sealed _)
  have hdev : v₃.dev.Evolves {superblockBlock}
      ((Vol.saved { v₃ with sb := syncedSb v₃.sb sum } c).atClock c').dev :=
    (evolves_saved (v := { v₃ with sb := syncedSb v₃.sb sum })).trans .atClock
  refine ⟨⟨hinv₃.resave hledger hdev, hsums₃.resave hinv₃.sound.layout hledger hdev, hledger.serves hserves₃,
    diskSb_saved, validate_sealed ((SameLedger.synced v₃.sb sum).branded hbrand₃), ?_, fun hff => ?_⟩,
    hblank₃.resave hinv₃.sound hledger hdev,
    hhoused.trans rfl (hdev.mono (hinv₃.sound.layout.superblock_mem htotal₃))⟩
  · change v₃.sb.stateFlags &&& ~~~ (stateDirty ||| stateLocked) = 0
    rw [hflags₃, UInt32.zero_and]
  · have hff₃ : v₃.dev.FaultFree := hff
    exact (hsum ⟨hff₃, hserves₃⟩).trans (resave_fletcher hinv₃.sound.layout hledger hdev).symm

theorem ready_formatBody (totalBlocks : UInt32) (label : Option (List UInt8)) (nonce : Bytes 12) (hff : d.FaultFree)
    (hsize : d.blockSize = 0x1000)
    (hcap : ¬ (d.totalBlocks > 0 ∧ totalBlocks > d.totalBlocks)) (hmin : ¬ totalBlocks < 275)
    (hfit : ¬ totalBlocks ≤ 17 + layoutBitmapBlocks totalBlocks + 256)
    (hok : (formatBody ⟨d, freshSuperblock totalBlocks label nonce⟩).1 = .ok ()) :
    Ready (formatBody ⟨d, freshSuperblock totalBlocks label nonce⟩).2 ∧
      Summed (formatBody ⟨d, freshSuperblock totalBlocks label nonce⟩).2 := by
  obtain ⟨hfmt, _, hhoused⟩ := (formatBody_spec hsize hcap hmin hfit).ok (run_eq hok)
  exact ⟨⟨hfmt.sound, hhoused.dev.faultFree hff, hfmt.serves⟩, hfmt.sums⟩

@[simp] theorem wp_withSuperblock {α : Type} {sb : Superblock} {p : OwfsM α} {Q : α → HtlDevice → Prop}
    {E : OwfsErr → HtlDevice → Prop} :
    wp (withSuperblock sb p) Q E d ↔ wp p (fun a v => Q a v.dev) (fun e v => E e v.dev) ⟨d, sb⟩ := by
  unfold wp withSuperblock
  rcases p ⟨d, sb⟩ with ⟨r, v⟩
  cases r <;> rfl

theorem housed_of_formatVolume (h : formatVolume totalBlocks label d = (.ok (), d')) :
    ∃ sb, Formatted ⟨d', sb⟩ ∧ Blank ⟨d', sb⟩ ∧ Housed totalBlocks d ⟨d', sb⟩ := by
  have hwp : wp (formatVolume totalBlocks label)
      (fun _ d' => ∃ sb, Formatted ⟨d', sb⟩ ∧ Blank ⟨d', sb⟩ ∧ Housed totalBlocks d ⟨d', sb⟩) (fun _ _ => True) d := by
    unfold formatVolume
    simp only [wp_bind, wp_get, wp_failIf, wp_attempt, wp_withSuperblock]
    refine ⟨fun _ => trivial, fun hsize => ⟨fun _ => trivial, fun hcap => ⟨fun _ => trivial, fun hmin =>
      ⟨fun _ => trivial, fun hfit => ?_⟩⟩⟩⟩
    have hbody : ∀ nonce, wp formatBody (fun _ v => ∃ sb, Formatted ⟨v.dev, sb⟩ ∧ Blank ⟨v.dev, sb⟩ ∧
        Housed totalBlocks d ⟨v.dev, sb⟩) (fun _ _ => True) ⟨d, freshSuperblock totalBlocks label nonce⟩ :=
      fun nonce => (formatBody_spec (not_not.mp hsize) hcap hmin hfit).mono (fun _ v hv => ⟨v.sb, hv⟩)
        (fun _ _ h => h)
    exact wp_htlGetEntropy (fun nonce => hbody nonce) (fun _ => hbody _)
  exact hwp.ok h

/-- 通ったフォーマットは、ボリュームの条件を満たすディスクを残す。 -/
theorem formatted_of_formatVolume (h : formatVolume totalBlocks label d = (.ok (), d')) :
    ∃ sb, Formatted ⟨d', sb⟩ ∧ Blank ⟨d', sb⟩ ∧ d'.toHtlConfig = d.toHtlConfig := by
  obtain ⟨sb, hfmt, hblank, hhoused⟩ := housed_of_formatVolume h
  exact ⟨sb, hfmt, hblank, hhoused.dev.config⟩

end

/-! ## フォーマットしたディスクを開く -/

section

variable {totalBlocks : UInt32} {label : Option (List UInt8)} {d₀ d : HtlDevice} {sb sb₀ : Superblock} {v : Vol}

/-- フォーマットしたディスクのスーパーブロックを読むか、マウントするかして得たボリューム。 -/
inductive Opened (d : HtlDevice) : Vol → Prop
  | read {sb₀ : Superblock} {v : Vol} (h : superblockRead ⟨d, sb₀⟩ = (.ok (), v)) : Opened d v
  | mount {sb₀ : Superblock} {v : Vol} (h : mount ⟨d, sb₀⟩ = (.ok (), v)) : Opened d v

theorem Formatted.ready (h : Formatted ⟨d, sb⟩) (hff : d.FaultFree) : Ready ⟨d, sb⟩ := ⟨h.sound, hff, h.serves⟩

theorem Formatted.diskSb_eq (h : Formatted ⟨d, sb⟩) : diskSb ⟨d, sb₀⟩ = sb := h.disk

theorem Formatted.superblockRead_ok (h : Formatted ⟨d, sb⟩) (hff : d.FaultFree) (sb₀ : Superblock) :
    ∃ c, superblockRead ⟨d, sb₀⟩ = (.ok (), Vol.atClock ⟨d, sb⟩ c) := by
  have hwp : wp superblockRead (fun _ v => ∃ c, v = Vol.atClock ⟨d, sb⟩ c) (fun _ _ => False) ⟨d, sb₀⟩ := by
    refine wp_superblockRead (fun c _ _ => ⟨c, ?_⟩) (fun c hbad => ?_) (fun c hno => hno ⟨hff, ?_⟩)
    · rw [h.diskSb_eq]
    · rw [h.diskSb_eq, h.valid] at hbad
      cases hbad
    · exact (h.ready hff).writes_superblock.toReads
  obtain ⟨_, v, hrun, c, rfl⟩ := hwp.exists_ok
  exact ⟨c, hrun⟩

/-- フォーマットしたディスクは、メモリの上に何があってもマウントできる。 -/
theorem Formatted.mount_eq (h : Formatted v) (hff : v.dev.FaultFree) (sb₀ : Superblock) :
    Owfs.mount ⟨v.dev, sb₀⟩ = (.ok (), Vol.saved { v with sb := mountedSb v.sb } (v.dev.clock + 2)) := by
  have hdisk : diskSb ⟨v.dev, sb₀⟩ = v.sb := h.disk
  have hw : v.dev.Writes superblockBlock := (Formatted.ready h hff).writes_superblock
  have hrun := mount_faultFree (v := ⟨v.dev, sb₀⟩) hff hw (by rw [hdisk]; exact h.valid)
    (by rw [hdisk]; exact h.flags)
  rwa [hdisk] at hrun

/-- 開いたボリュームは、フォーマットしたボリュームとスーパーブロックだけが違う。 -/
theorem resaved_of_opened (hfmt : Formatted ⟨d, sb⟩) (hopen : Opened d v) :
    SameLedger sb v.sb ∧ d.Evolves {superblockBlock} v.dev := by
  cases hopen with
  | @read sb₀ v h =>
      have hwp : wp superblockRead (fun _ v => ∃ c, v = Vol.atClock ⟨d, sb⟩ c) (fun _ _ => True) ⟨d, sb₀⟩ := by
        refine wp_superblockRead (fun c _ _ => ⟨c, ?_⟩) (fun _ _ => trivial) (fun _ _ => trivial)
        rw [hfmt.diskSb_eq]
      obtain ⟨c, rfl⟩ := hwp.ok h
      exact ⟨refl_of SameLedger sb, .atClock⟩
  | @mount sb₀ v h =>
      obtain ⟨_, _, _, c, hv⟩ := mount_ok_spec.ok h
      rw [hfmt.diskSb_eq] at hv
      subst hv
      exact ⟨trans_of SameLedger (.mounted sb) (.sealed _), evolves_saved (v := ⟨d, mountedSb sb⟩)⟩

/-- 開いたボリュームは、装置の失敗によらず、ボリュームの条件を満たす。 -/
theorem volInv_of_opened (hformat : formatVolume totalBlocks label d₀ = (.ok (), d)) (hopen : Opened d v) :
    VolInv v ∧ Serves v.dev.toHtlConfig v.sb ∧ v.dev.toHtlConfig = d₀.toHtlConfig := by
  obtain ⟨sb, hfmt, _, hconf⟩ := formatted_of_formatVolume hformat
  obtain ⟨hsb, hdev⟩ := resaved_of_opened hfmt hopen
  refine ⟨hfmt.toVolInv.resave hsb hdev, ?_, hdev.config.trans hconf⟩
  rw [hdev.config]
  exact hsb.serves hfmt.serves

theorem ready_of_opened (hff : d₀.FaultFree) (hformat : formatVolume totalBlocks label d₀ = (.ok (), d))
    (hopen : Opened d v) : Ready v := by
  obtain ⟨hinv, hserves, hconf⟩ := volInv_of_opened hformat hopen
  refine ⟨hinv.sound, ?_, hserves⟩
  unfold HtlConfig.FaultFree at hff ⊢
  rw [hconf]
  exact hff

theorem blank_of_opened (hformat : formatVolume totalBlocks label d₀ = (.ok (), d)) (hopen : Opened d v) :
    Blank v ∧ Summed v := by
  obtain ⟨sb, hfmt, hblank, _⟩ := formatted_of_formatVolume hformat
  obtain ⟨hsb, hdev⟩ := resaved_of_opened hfmt hopen
  exact ⟨hblank.resave hfmt.sound hsb hdev, hfmt.sums.resave hfmt.sound.layout hsb hdev⟩

/-- 失敗のない装置でフォーマットしたディスクは、いつでも開ける。 -/
theorem opened_of_formatVolume (hff : d₀.FaultFree) (hformat : formatVolume totalBlocks label d₀ = (.ok (), d)) :
    ∃ v, Opened d v := by
  obtain ⟨sb, hfmt, _, hconf⟩ := formatted_of_formatVolume hformat
  have hff' : d.FaultFree := by
    unfold HtlConfig.FaultFree at hff ⊢
    rw [hconf]
    exact hff
  obtain ⟨c, hread⟩ := hfmt.superblockRead_ok hff' Superblock.zero
  exact ⟨_, .read hread⟩

end

/-! ## 小さな装置 -/

/-- 280 ブロックの、何も書いていない装置。 -/
def blankDevice : HtlDevice where
  blockSize := 4096
  totalBlocks := 280
  writeProtect := 0
  hasFlush := true
  entropy := none
  fault := fun _ => none
  disk := fun _ => Bytes.zero 4096
  clock := 0
  trail := []

theorem faultFree_blankDevice : blankDevice.FaultFree := fun _ => rfl

/-- 小さな装置をフォーマットした直後のボリューム。 -/
@[irreducible] def formattedVolume : Vol := (formatBody ⟨blankDevice, freshSuperblock 280 none (Bytes.zero 12)⟩).2

theorem formatBody_blankDevice :
    formatBody ⟨blankDevice, freshSuperblock 280 none (Bytes.zero 12)⟩ = (.ok (), formattedVolume) := by
  unfold formattedVolume
  exact run_eq (by decide +kernel)

theorem formatted_formattedVolume :
    Formatted formattedVolume ∧ formattedVolume.dev.toHtlConfig = blankDevice.toHtlConfig := by
  obtain ⟨hfmt, _, hhoused⟩ := (formatBody_spec rfl (by decide) (by decide) (by decide)).ok formatBody_blankDevice
  exact ⟨hfmt, hhoused.dev.config⟩

theorem format_blankDevice : formatVolume 280 none blankDevice = (.ok (), formattedVolume.dev) := by
  refine run_bind rfl (run_bind (run_failIf (by decide)) (run_bind (run_failIf (by decide))
    (run_bind (run_failIf (by decide)) (run_bind (run_failIf (by decide)) (run_bind rfl ?_)))))
  change withSuperblock (freshSuperblock 280 none (Bytes.zero 12)) formatBody blankDevice = _
  unfold withSuperblock
  rw [formatBody_blankDevice]

theorem snd_format_blankDevice : (formatVolume 280 none blankDevice).2 = formattedVolume.dev := by
  rw [format_blankDevice]

theorem faultFree_formattedVolume : formattedVolume.dev.FaultFree := by
  unfold HtlConfig.FaultFree
  rw [formatted_formattedVolume.2]
  exact faultFree_blankDevice

/-- 小さな装置をマウントした直後のボリューム。 -/
@[irreducible] def mountedVolume : Vol :=
  Vol.saved { formattedVolume with sb := mountedSb formattedVolume.sb } (formattedVolume.dev.clock + 2)

theorem mount_formattedVolume (sb₀ : Superblock) :
    mount ⟨formattedVolume.dev, sb₀⟩ = (.ok (), mountedVolume) := by
  unfold mountedVolume
  exact formatted_formattedVolume.1.mount_eq faultFree_formattedVolume sb₀

/-- 例で書く一バイト。 -/
theorem length_seven : UInt32.toNat 1 ≤ [(7 : UInt8)].length := Nat.le_refl 1

end OwStorage.Owfs
