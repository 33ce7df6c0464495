import OwStorage.Owfs.Lemmas.Format

/-!
# フォーマットの配置

フォーマットが通るのは、ビットマップの大きさの切り上げが 32 ビットを越えないときである。通ったフォーマットの配置は、隙間も
重なりもなく、ビットマップはデータ領域を表すのに足りる最小の大きさである。
-/

namespace OwStorage.Owfs

open Lib Prog

/-! ## フォーマットの書く範囲 -/

/-- スーパーブロックから、データ領域の先頭までのブロック。 -/
def formatRegion (sb : Superblock) : Set UInt32 := { b | 16 ≤ b.toNat ∧ b.toNat ≤ sb.dataRegionStart.toNat }

section

variable {sb : Superblock} (hl : Layout sb)
include hl

theorem bitmap_subset_formatRegion : sb.bitmapRegion ⊆ formatRegion sb := by
  intro b hb
  have := hl.bitmapAfter
  have := hl.tableAfter
  have := hl.dataAfter
  exact ⟨by have := hb.1; omega, by have := hb.2; omega⟩

theorem table_subset_formatRegion : sb.tableRegion ⊆ formatRegion sb := by
  intro b hb
  have := hl.bitmapAfter
  have := hl.tableAfter
  have := hl.dataAfter
  exact ⟨by have := hb.1; omega, by have := hb.2; omega⟩

theorem superblock_mem_formatRegion : superblockBlock ∈ formatRegion sb := by
  have := hl.bitmapAfter
  have := hl.tableAfter
  have := hl.dataAfter
  have hat : superblockBlock.toNat = 16 := rfl
  exact ⟨hat.ge, by omega⟩

end

section

variable {v : Vol} (hl : Layout v.sb) (hf : v.dev.FaultFree) (hs : Serves v.dev.toHtlConfig v.sb)
include hl hf hs

/-- 書ける装置では、範囲を埋める繰り返しは止まらない。 -/
theorem zeroFill_runs (start : UInt32) {n : Nat} (hfit : start.toNat + n ≤ v.sb.dataRegionStart.toNat)
    {body : Nat → OwfsM Unit}
    (hbody : ∀ i v₁, i < n → (start + UInt32.ofNat i).toNat = start.toNat + i → v₁.sb = v.sb →
      v₁.dev.FaultFree ∧ v₁.dev.Writes (start + UInt32.ofNat i) →
      wp (body i) (fun _ v' => ∃ c, v' = v₁.put (start + UInt32.ofNat i) (Bytes.zero 4096) c) (fun _ _ => False) v₁) :
    wp (forUpto n body) (fun _ v' => v'.sb = v.sb ∧ v'.dev.toHtlConfig = v.dev.toHtlConfig) (fun _ _ => False) v := by
  have hlt := v.sb.dataRegionStart.toNat_lt
  have hne := hl.dataNonempty
  refine wp_forUpto (fun _ v' => v'.sb = v.sb ∧ v'.dev.toHtlConfig = v.dev.toHtlConfig) ⟨rfl, rfl⟩ ?_ (fun _ h => h)
  rintro i v₁ hi ⟨hsb, hconfig⟩
  have hat : (start + UInt32.ofNat i).toNat = start.toNat + i := by
    rw [toNat_add_lt (by rw [toNat_ofNat_lt (by omega)]; omega), toNat_ofNat_lt (by omega)]
  have hcan : v₁.dev.FaultFree ∧ v₁.dev.Writes (start + UInt32.ofNat i) := by
    unfold HtlConfig.FaultFree
    rw [hconfig]
    exact ⟨hf, hs.writes _ (by omega)⟩
  refine (hbody i v₁ hi hat hsb hcan).mono ?_ (fun _ _ h => h)
  rintro _ _ ⟨c, rfl⟩
  exact ⟨hsb, hconfig⟩

theorem bitmapInit_runs (hpos : 0 < v.sb.bitmapBlockCount.toNat) :
    wp bitmapInit (fun _ _ => True) (fun _ _ => False) v := by
  have hafter := hl.bitmapAfter
  have htable := hl.tableAfter
  have hdata := hl.dataAfter
  unfold bitmapInit
  simp only [wp_bind, wp_get, wp_failIf]
  refine ⟨fun hz => ?_, fun _ => ?_⟩
  · rcases hz with hz | hz <;> have hz := congrArg UInt32.toNat hz <;> rw [UInt32.toNat_zero] at hz <;> omega
  refine (zeroFill_runs hl hf hs v.sb.bitmapStartBlock (by omega) fun i v₁ hi hat hsb hcan => ?_).mono
    (fun _ _ _ => trivial) (fun _ _ h => h)
  simp only [wp_bind, wp_failIf]
  refine ⟨fun hout => ?_, fun _ => wp_writeBlk (fun c _ => ⟨c, rfl⟩) (fun _ _ _ hno => hno hcan)⟩
  have hge := UInt32.le_iff_toNat_le.mp hout
  omega

/-- 空のボリュームに作られる根は、データ領域の先頭のブロックを取る。 -/
theorem formatRoot_touches (hw : volumeWritable v.sb = .ok ()) (hfree : v.sb.freeBlocks ≠ 0)
    (hinodes : 0 < v.sb.totalInodes.toNat) (hclear : ∀ r, r < v.sb.dataCount → bitOf v.dev.disk v.sb r = false) :
    wp formatRoot
      (fun _ v' => v.dev.Evolves (formatRegion v.sb) v'.dev ∧ SameShape v.sb v'.sb) (fun _ _ => False) v := by
  have hne := hl.dataNonempty
  have halloc := allocAndZero_exact hl hf hs
  unfold allocAndZero at halloc
  unfold formatRoot
  simp only [wp_bind, wp_attempt] at halloc ⊢
  have hroot : v.sb.IsData v.sb.dataRegionStart := ⟨le_refl _, hne⟩
  have hnotFull : ¬ Full v := by
    rintro (hz | hall)
    · exact hfree hz
    · have hused := (hall _ hroot).2
      rw [hclear _ (by unfold Superblock.relOf Superblock.dataCount; omega)] at hused
      cases hused
  refine halloc.mono ?_ (fun _ _ h => absurd h.2.2 hnotFull)
  intro b v₁ hz
  refine hz.mono ?_ ?_
  · rintro _ v₂ hfetch
    have hfetch : Fetched v v₂ b := hfetch
    have hshape := hfetch.shape
    have hconfig := hfetch.config
    obtain ⟨v₃, c, hflip, hlow, rfl⟩ := hfetch
    have hb : b = v.sb.dataRegionStart := by
      by_contra hb
      have hgt : v.sb.dataRegionStart.toNat < b.toNat :=
        lt_of_le_of_ne hflip.isData.1 fun h => hb (UInt32.toNat_inj.mp h.symm)
      have hused := (hlow _ hroot hgt).2
      rw [hclear _ (by unfold Superblock.relOf Superblock.dataCount; omega)] at hused
      cases hused
    have hdev : v.dev.Evolves (formatRegion v.sb) (v₃.put b (Bytes.zero 4096) c).dev := by
      refine (hflip.dev.mono (bitmap_subset_formatRegion hl)).trans (.store ?_)
      rw [hb]
      have := hl.bitmapAfter
      have := hl.tableAfter
      have := hl.dataAfter
      exact ⟨by omega, le_refl _⟩
    simp only [wp_withInode]
    refine (inodeWrite_spec (hshape.layout hl) 0).mono ?_ ?_
    · rintro _ s' ⟨_, hrec⟩
      have htable : (v₃.put b (Bytes.zero 4096) c).sb.tableRegion ⊆ formatRegion v.sb := by
        have hregion : v.sb.tableRegion ⊆ formatRegion v.sb := table_subset_formatRegion hl
        obtain ⟨_, _, hsb⟩ := hshape
        rw [hsb]
        exact hregion
      refine ⟨hdev.trans (hrec.dev.mono htable), ?_⟩
      rw [hrec.sb]
      exact hshape
    · rintro _ s' ⟨_, hno⟩
      refine hno ⟨hdev.faultFree hf, ?_⟩ ⟨?_, ?_⟩
      · change Serves (v₃.put b (Bytes.zero 4096) c).dev.toHtlConfig _
        rw [hconfig]
        exact hshape.serves hs
      · rw [hshape.totalInodes]
        exact hinodes
      · rw [hshape.volumeWritable]
        exact hw
  · intro e v₂ h
    refine h.mono ?_ ?_ <;> exact fun _ _ h => hnotFull h.2.2

end

/-! ## フォーマットの本体 -/

/-- 領域の配置が同じである。 -/
structure SameRegions (sb sb' : Superblock) : Prop where
  totalBlocks : sb'.totalBlocks = sb.totalBlocks
  bitmapStart : sb'.bitmapStartBlock = sb.bitmapStartBlock
  bitmapCount : sb'.bitmapBlockCount = sb.bitmapBlockCount
  tableStart : sb'.inodeTableStart = sb.inodeTableStart
  tableBlocks : sb'.inodeTableBlocks = sb.inodeTableBlocks
  dataStart : sb'.dataRegionStart = sb.dataRegionStart

section

variable {d : HtlDevice} {sb : Superblock}

/-- 書ける装置の上では、フォーマットの本体は通り、データ領域の先頭より先には何も書かない。 -/
theorem formatBody_touches (hl : Layout sb) (hf : d.FaultFree) (hs : Serves d.toHtlConfig sb)
    (hw : volumeWritable sb = .ok ()) (hinodes : 0 < sb.totalInodes.toNat)
    (hfree : sb.freeBlocks = sb.totalBlocks - sb.dataRegionStart) :
    wp formatBody
      (fun _ v' => d.Evolves (formatRegion sb) v'.dev ∧ SameRegions sb (diskSb v')) (fun _ _ => False) ⟨d, sb⟩ := by
  have hafter := hl.bitmapAfter
  have htable := hl.tableAfter
  have hdata := hl.dataAfter
  have hne := hl.dataNonempty
  have hcovers := hl.bitmapCovers
  unfold formatBody
  rw [wp_bind]
  refine ((bitmapInit_spec (v := ⟨d, sb⟩) fun _ => hl).and (bitmapInit_runs hl hf hs (by
    change 0 < sb.bitmapBlockCount.toNat
    omega))).mono ?_ (fun _ _ h => h.2)
  rintro _ ⟨d₁, sb₁⟩ ⟨⟨_, _, hbit⟩, _⟩
  obtain rfl : sb₁ = sb := hbit.sb
  have hdev₁ : d.Evolves (formatRegion sb₁) d₁ := hbit.dev.mono (bitmap_subset_formatRegion hl)
  have hf₁ : d₁.FaultFree := hdev₁.faultFree hf
  have hs₁ : Serves d₁.toHtlConfig sb₁ := by
    rw [hdev₁.config]
    exact hs
  rw [wp_bind, wp_get, wp_bind]
  have hzeroed : wp (forUpto sb₁.inodeTableBlocks.toNat fun i =>
      writeBlk (sb₁.inodeTableStart + UInt32.ofNat i) (Bytes.zero 4096))
      (fun _ v' => Zeroed sb₁.inodeTableStart.toNat sb₁.inodeTableBlocks.toNat ⟨d₁, sb₁⟩ v')
        (fun _ _ => True) ⟨d₁, sb₁⟩ :=
    wp_zeroFill _ (by have := sb₁.totalBlocks.toNat_lt; omega) fun i v₁ =>
      wp_writeBlk (fun c hw => ⟨hw, c, rfl⟩) (fun _ _ _ _ => trivial)
  have hruns : wp (forUpto sb₁.inodeTableBlocks.toNat fun i =>
      writeBlk (sb₁.inodeTableStart + UInt32.ofNat i) (Bytes.zero 4096))
      (fun _ v' => v'.sb = sb₁ ∧ v'.dev.toHtlConfig = d₁.toHtlConfig) (fun _ _ => False) ⟨d₁, sb₁⟩ :=
    zeroFill_runs hl hf₁ hs₁ _ hdata fun i v₁ _ _ _ hcan =>
      wp_writeBlk (fun c _ => ⟨c, rfl⟩) (fun _ _ _ hno => hno hcan)
  refine (hzeroed.and hruns).mono ?_ (fun _ _ h => h.2)
  rintro _ ⟨d₂, sb₂⟩ ⟨hzero, hsb₂, hconfig₂⟩
  obtain rfl : sb₂ = sb₁ := hsb₂
  have hdev₂ : d.Evolves (formatRegion sb₂) d₂ := hdev₁.trans (hzero.dev.mono (table_subset_formatRegion hl))
  have hs₂ : Serves d₂.toHtlConfig sb₂ := by
    rw [hdev₂.config]
    exact hs
  have hclear : ∀ r, r < sb₂.dataCount → bitOf d₂.disk sb₂ r = false := by
    intro r hr
    have hmem := bitmapBlockOf_mem hl (lt_of_lt_of_le hr hcovers)
    have hkeep := hzero.dev.disk (sb₂.bitmapBlockOf r) fun ht => by
      have := hmem.2
      have := ht.1
      simp only at *
      omega
    unfold bitOf
    rw [hkeep.trans (hbit.zero _ hmem.1 hmem.2), Bytes.bitAt_zero]
  rw [wp_bind]
  refine (formatRoot_touches (v := ⟨d₂, sb₂⟩) hl (hdev₂.faultFree hf) hs₂ hw ?_ hinodes hclear).mono ?_ (fun _ _ h => h)
  · intro hz
    have hz := congrArg UInt32.toNat (hfree.symm.trans hz)
    rw [toNat_sub_le hne.le, UInt32.toNat_zero] at hz
    omega
  rintro _ v₃ ⟨hdev₃, hshape⟩
  have hall : d.Evolves (formatRegion sb₂) v₃.dev := hdev₂.trans hdev₃
  have hserves : Serves v₃.dev.toHtlConfig v₃.sb := by
    rw [hall.config]
    exact hshape.serves hs
  refine (syncChanges_spec (hshape.layout hl)).mono ?_ (fun _ _ hno => hno ⟨hall.faultFree hf, hserves⟩)
  rintro _ _ ⟨sum, c, c', rfl, _⟩
  refine ⟨(hall.trans ?_).trans .atClock, ?_⟩
  · exact (evolves_saved (v := { v₃ with sb := syncedSb v₃.sb sum })).mono
      (Set.singleton_subset_iff.mpr (superblock_mem_formatRegion hl))
  · have hsaved : diskSb ((Vol.saved { v₃ with sb := syncedSb v₃.sb sum } c).atClock c') =
      (syncedSb v₃.sb sum).sealed :=
      diskSb_saved
    rw [hsaved]
    obtain ⟨_, _, hsb⟩ := hshape
    unfold syncedSb
    rw [hsb]
    exact ⟨rfl, rfl, rfl, rfl, rfl, rfl⟩

end

/-! ## 装置の上のフォーマット -/

section

variable {totalBlocks : UInt32} {label : Option (List UInt8)} {d d' : HtlDevice}

/-- 受け入れられる大きさと装置。 -/
structure Formattable (totalBlocks : UInt32) (d : HtlDevice) : Prop where
  blockSize : d.blockSize = 0x1000
  capacity : ¬ (d.totalBlocks > 0 ∧ totalBlocks > d.totalBlocks)
  large : ¬ totalBlocks < 275
  room : ¬ totalBlocks ≤ 17 + layoutBitmapBlocks totalBlocks + 256
  bitmap : layoutBitmapBlocks totalBlocks ≠ 0
  unprotected : d.writeProtect = 0

/-- フォーマットが通るのは、受け入れられる大きさと装置に限る。 -/
theorem formattable_of_format (hfmt : formatVolume totalBlocks label d = (.ok (), d')) : Formattable totalBlocks d := by
  have hwp : wp (formatVolume totalBlocks label) (fun _ _ => Formattable totalBlocks d) (fun _ _ => True) d := by
    unfold formatVolume
    simp only [wp_bind, wp_get, wp_failIf, wp_attempt, wp_withSuperblock]
    refine ⟨fun _ => trivial, fun hsize => ⟨fun _ => trivial, fun hcap => ⟨fun _ => trivial, fun hmin =>
      ⟨fun _ => trivial, fun hfit => ?_⟩⟩⟩⟩
    have hbody : ∀ nonce, wp formatBody (fun _ _ => Formattable totalBlocks d) (fun _ _ => True)
        ⟨d, freshSuperblock totalBlocks label nonce⟩ := by
      intro nonce
      unfold formatBody
      rw [wp_bind]
      refine (bitmapInit_spec (v := ⟨d, freshSuperblock totalBlocks label nonce⟩)
        (layout_freshSuperblock label nonce hmin hfit)).mono ?_ (fun _ _ h => h)
      rintro _ v₁ ⟨hl, hwp, _⟩
      have hbitmap : layoutBitmapBlocks totalBlocks ≠ 0 := by
        intro hz
        have hcovers : totalBlocks.toNat - (freshSuperblock totalBlocks label nonce).dataRegionStart.toNat ≤
            (layoutBitmapBlocks totalBlocks).toNat * 32768 := hl.bitmapCovers
        have hne : (freshSuperblock totalBlocks label nonce).dataRegionStart.toNat < totalBlocks.toNat :=
          hl.dataNonempty
        rw [hz, UInt32.toNat_zero] at hcovers
        omega
      exact wp_trivial.mono (fun _ _ _ => ⟨not_not.mp hsize, hcap, hmin, hfit, hbitmap, hwp⟩) (fun _ _ h => h)
    exact wp_htlGetEntropy (fun nonce => hbody nonce) (fun _ => hbody _)
  exact hwp.ok hfmt

/-- 受け入れられる大きさの、失敗のない装置では、フォーマットは必ず通る。 -/
theorem formatVolume_touches (h : Formattable totalBlocks d) (hf : d.FaultFree) :
    wp (formatVolume totalBlocks label)
      (fun _ d' => d.Evolves (formatRegion (freshSuperblock totalBlocks label (Bytes.zero 12))) d' ∧
        SameRegions (freshSuperblock totalBlocks label (Bytes.zero 12)) (Superblock.ofBlock (d'.disk superblockBlock)))
      (fun _ _ => False) d := by
  unfold formatVolume
  simp only [wp_bind, wp_get, wp_failIf, wp_attempt, wp_withSuperblock]
  refine ⟨fun hsize => hsize h.blockSize, fun _ => ⟨h.capacity, fun _ => ⟨h.large, fun _ => ⟨h.room, fun _ => ?_⟩⟩⟩⟩
  have hbody : ∀ nonce, wp formatBody
      (fun _ v => d.Evolves (formatRegion (freshSuperblock totalBlocks label (Bytes.zero 12))) v.dev ∧
        SameRegions (freshSuperblock totalBlocks label (Bytes.zero 12)) (diskSb v))
      (fun _ _ => False) ⟨d, freshSuperblock totalBlocks label nonce⟩ := by
    intro nonce
    have hl : Layout (freshSuperblock totalBlocks label nonce) :=
      layout_freshSuperblock label nonce h.large h.room h.bitmap
    have hs : Serves d.toHtlConfig (freshSuperblock totalBlocks label nonce) :=
      serves_freshSuperblock h.blockSize h.capacity h.unprotected
    have hw : volumeWritable (freshSuperblock totalBlocks label nonce) = .ok () := by
      unfold volumeWritable
      rw [show (freshSuperblock totalBlocks label nonce).stateFlags = 0 from rfl,
        show (freshSuperblock totalBlocks label nonce).securityFlags = 0 from rfl]
      rfl
    refine (formatBody_touches hl hf hs hw (by change 0 < (0x1000 : UInt32).toNat; decide) rfl).mono ?_ (fun _ _ h => h)
    rintro _ v ⟨hdev, hsb⟩
    exact ⟨hdev, ⟨hsb.totalBlocks, hsb.bitmapStart, hsb.bitmapCount, hsb.tableStart, hsb.tableBlocks, hsb.dataStart⟩⟩
  exact wp_htlGetEntropy (fun nonce => hbody nonce) (fun _ => hbody _)

end

/-! ## 配置の正しさ -/

/-- 大きさ `totalBlocks` のボリュームの、隙間のない最小の配置。 -/
structure SoundLayout (totalBlocks : UInt32) (sb : Superblock) : Prop where
  total : sb.totalBlocks = totalBlocks
  bitmap : sb.bitmapStartBlock.toNat = superblockBlock.toNat + 1
  table : sb.inodeTableStart.toNat = sb.bitmapStartBlock.toNat + sb.bitmapBlockCount.toNat
  data : sb.dataRegionStart.toNat = sb.inodeTableStart.toNat + sb.inodeTableBlocks.toNat
  nonempty : sb.dataRegionStart.toNat < sb.totalBlocks.toNat
  covers : sb.totalBlocks.toNat - sb.dataRegionStart.toNat ≤ sb.bitmapBlockCount.toNat * 32768
  least : ∀ b, b < sb.bitmapBlockCount.toNat →
    b * 32768 < sb.totalBlocks.toNat - (sb.bitmapStartBlock.toNat + b + sb.inodeTableBlocks.toNat)
  index : ∀ b byteIdx bit, b < sb.bitmapBlockCount.toNat → byteIdx < 4096 → bit < 8 →
    (relIndex b byteIdx bit).toNat = (b * 4096 + byteIdx) * 8 + bit

section

variable {totalBlocks : UInt32} {label : Option (List UInt8)} {d d' : HtlDevice}

theorem soundLayout_fresh (h : Formattable totalBlocks d) :
    SoundLayout totalBlocks (freshSuperblock totalBlocks label (Bytes.zero 12)) := by
  have hl : Layout (freshSuperblock totalBlocks label (Bytes.zero 12)) :=
    layout_freshSuperblock label _ h.large h.room h.bitmap
  obtain ⟨hbm, hover⟩ := toNat_layoutBitmapBlocks h.large h.bitmap
  have hstart : (17 + layoutBitmapBlocks totalBlocks).toNat = 17 + (layoutBitmapBlocks totalBlocks).toNat :=
    toNat_add_lt (by simp; omega)
  have hdata : (17 + layoutBitmapBlocks totalBlocks + 256).toNat =
    17 + (layoutBitmapBlocks totalBlocks).toNat + 256 := by
    rw [toNat_add_lt (by rw [hstart]; simp; omega), hstart]
    rfl
  refine ⟨rfl, rfl, hstart, ?_, hl.dataNonempty, hl.bitmapCovers, fun b hb => ?_, fun b byteIdx bit hb hbyte hbit => ?_⟩
  · change (17 + layoutBitmapBlocks totalBlocks + 256).toNat = (17 + layoutBitmapBlocks totalBlocks).toNat + 256
    rw [hdata, hstart]
  · change b < (layoutBitmapBlocks totalBlocks).toNat at hb
    change b * 32768 < totalBlocks.toNat - (17 + b + 256)
    omega
  · rw [toNat_relIndex (v := ⟨d, freshSuperblock totalBlocks label (Bytes.zero 12)⟩) hl hb hbyte hbit]
    omega

/-- 通ったフォーマットの配置は正しく、書き込みはスーパーブロックからデータ領域の先頭までに収まる。 -/
theorem format_layout_sound (hf : d.FaultFree) (hfmt : formatVolume totalBlocks label d = (.ok (), d')) :
    SoundLayout totalBlocks (Superblock.ofBlock (d'.disk superblockBlock)) ∧
      d.Evolves (formatRegion (Superblock.ofBlock (d'.disk superblockBlock))) d' := by
  have h := formattable_of_format hfmt
  obtain ⟨hdev, hsb⟩ := (formatVolume_touches h hf).ok hfmt
  have hsound : SoundLayout totalBlocks (freshSuperblock totalBlocks label (Bytes.zero 12)) := soundLayout_fresh h
  refine ⟨⟨?_, ?_, ?_, ?_, ?_, ?_, ?_, ?_⟩, ?_⟩
  · rw [hsb.totalBlocks]
    exact hsound.total
  · rw [hsb.bitmapStart]
    exact hsound.bitmap
  · rw [hsb.tableStart, hsb.bitmapStart, hsb.bitmapCount]
    exact hsound.table
  · rw [hsb.dataStart, hsb.tableStart, hsb.tableBlocks]
    exact hsound.data
  · rw [hsb.dataStart, hsb.totalBlocks]
    exact hsound.nonempty
  · rw [hsb.totalBlocks, hsb.dataStart, hsb.bitmapCount]
    exact hsound.covers
  · rw [hsb.bitmapCount, hsb.totalBlocks, hsb.bitmapStart, hsb.tableBlocks]
    exact hsound.least
  · rw [hsb.bitmapCount]
    exact hsound.index
  · unfold formatRegion at hdev ⊢
    rw [hsb.dataStart]
    exact hdev

end

/-- 小さな装置のフォーマット。 -/
theorem format_layout_sound_small :
    blankDevice.FaultFree ∧ formatVolume 280 none blankDevice = (.ok (), formattedVolume.dev) ∧
      SoundLayout 280 (Superblock.ofBlock (formattedVolume.dev.disk superblockBlock)) ∧
      blankDevice.Evolves (formatRegion (Superblock.ofBlock (formattedVolume.dev.disk superblockBlock)))
        formattedVolume.dev :=
  ⟨faultFree_blankDevice, format_blankDevice, format_layout_sound faultFree_blankDevice format_blankDevice⟩

/-! ## 受け入れられる大きさ -/

section

variable {totalBlocks : UInt32} {label : Option (List UInt8)} {d : HtlDevice}

/-- 大きさの切り上げが 32 ビットを越えなければ、受け入れられる。 -/
theorem formattable_of_fit (hsize : d.blockSize = 0x1000) (hcap : d.totalBlocks = 0 ∨ totalBlocks ≤ d.totalBlocks)
    (hw : d.writeProtect = 0) (hmin : 275 ≤ totalBlocks) (hfit : totalBlocks.toNat < 2 ^ 32 - 32495) :
    Formattable totalBlocks d := by
  have hmin' : 275 ≤ totalBlocks.toNat := UInt32.le_iff_toNat_le.mp hmin
  have hsub : (totalBlocks - fixedOverhead).toNat = totalBlocks.toNat - 273 :=
    toNat_sub_le (show (273 : UInt32).toNat ≤ _ by simp; omega)
  have hbm : (layoutBitmapBlocks totalBlocks).toNat = (totalBlocks.toNat - 273 + 32768) / 32769 := by
    unfold layoutBitmapBlocks
    rw [UInt32.toNat_div, toNat_add_lt (by rw [hsub]; simp; omega), hsub]
    rfl
  have hstart : (17 + layoutBitmapBlocks totalBlocks).toNat = 17 + (layoutBitmapBlocks totalBlocks).toNat :=
    toNat_add_lt (by simp; omega)
  refine ⟨hsize, ?_, UInt32.not_lt.mpr hmin, ?_, ?_, hw⟩
  · rintro ⟨hpos, hgt⟩
    rcases hcap with hz | hle
    · rw [hz] at hpos
      exact absurd hpos (by decide)
    · exact UInt32.not_lt.mpr hle hgt
  · rw [UInt32.le_iff_toNat_le, toNat_add_lt (by rw [hstart]; simp; omega), hstart]
    change ¬ _ ≤ _ + 256
    omega
  · intro hz
    rw [hz, UInt32.toNat_zero] at hbm
    omega

/-- 失敗のない装置でフォーマットが通るのは、ビットマップの大きさの切り上げが 32 ビットを越えないときである。 -/
theorem format_accepts_iff (hf : d.FaultFree) (hsize : d.blockSize = 0x1000)
    (hcap : d.totalBlocks = 0 ∨ totalBlocks ≤ d.totalBlocks) (hw : d.writeProtect = 0) (hmin : 275 ≤ totalBlocks) :
    (formatVolume totalBlocks label d).1 = .ok () ↔ totalBlocks.toNat < 2 ^ 32 - 32495 := by
  constructor
  · intro hok
    have h := formattable_of_format (run_eq hok)
    have hover := (toNat_layoutBitmapBlocks h.large h.bitmap).2
    have hmin' := UInt32.le_iff_toNat_le.mp hmin
    change 275 ≤ _ at hmin'
    omega
  · intro hfit
    obtain ⟨_, d', hrun, _⟩ := (formatVolume_touches (formattable_of_fit hsize hcap hw hmin hfit) hf).exists_ok
    exact congrArg Prod.fst hrun

end

/-- 大きさを知らせない装置。 -/
theorem exists_unsized_device :
    ∃ d : HtlDevice, d.FaultFree ∧ d.blockSize = 0x1000 ∧ d.totalBlocks = 0 ∧ d.writeProtect = 0 :=
  ⟨{ blankDevice with totalBlocks := 0 }, fun _ => rfl, rfl, rfl, rfl⟩

/-- 大きさを知らせない装置の上では、百万ブロックのフォーマットが通る。 -/
theorem format_accepts_million :
    ∃ d : HtlDevice, d.FaultFree ∧ d.totalBlocks = 0 ∧ (formatVolume 1000000 none d).1 = .ok () := by
  obtain ⟨d, hf, hsize, hcap, hw⟩ := exists_unsized_device
  exact ⟨d, hf, hcap, (format_accepts_iff hf hsize (.inl hcap) hw (by decide)).mpr (by decide)⟩

/-- 最も大きい大きさでは、切り上げがあふれてビットマップが 0 ブロックになり、フォーマットは断られる。 -/
theorem format_refuses_max :
    ¬ ∀ (totalBlocks : UInt32) (d : HtlDevice), d.FaultFree → d.blockSize = 0x1000 →
      d.totalBlocks = 0 ∨ totalBlocks ≤ d.totalBlocks → d.writeProtect = 0 → 275 ≤ totalBlocks →
      (formatVolume totalBlocks none d).1 = .ok () := by
  intro hclaim
  obtain ⟨d, hf, hsize, hcap, hw⟩ := exists_unsized_device
  have hok := hclaim 0xFFFFFFFF d hf hsize (.inl hcap) hw (by decide)
  exact (formattable_of_format (run_eq hok)).bitmap (by decide)

end OwStorage.Owfs
