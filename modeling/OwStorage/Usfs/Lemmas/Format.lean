import OwStorage.Usfs.Lemmas.Table
import OwStorage.Usfs.Lemmas.Layout

/-!
# フォーマットしたボリューム

失敗のない装置で通ったフォーマットが、空の表と根の項目を持つボリュームを残すことを示す。
-/

namespace OwStorage.Usfs

open Lib Prog

/-! ## 要約の値 -/

/-- ビットマップの前から `q` ブロック分の Fletcher-64 の途中の値。 -/
def bitmapSums (disk : Disk) (sb : Superblock) (q : Nat) : UInt64 × UInt64 :=
  (List.range q).foldl
    (fun s i => (fletcherWords (disk (sb.bitmapStartBlock + UInt32.ofNat i)).toList s).2) (0, 0)

/-- ビットマップの検査値。 -/
def bitmapFletcher (disk : Disk) (sb : Superblock) : UInt64 :=
  fletcherResult (bitmapSums disk sb sb.bitmapBlockCount.toNat)

/-- 項目の表の前から `q` ブロック分の CRC。 -/
def tableCrc (disk : Disk) (sb : Superblock) (q : Nat) : UInt32 :=
  (List.range q).foldl
    (fun crc i => owCrc32c crc (disk (sb.entryTableStart + UInt32.ofNat i)).toList) 0

/-- 項目の表の署名。 -/
def tableSignature (disk : Disk) (sb : Superblock) : UInt32 := tableCrc disk sb sb.entryTableBlocks.toNat

section

variable {v : Vol}

theorem bitmapComputeFletcher64_loads (hf : v.dev.FaultFree)
    (hr : ∀ q < v.sb.bitmapBlockCount.toNat, v.dev.Reads (v.sb.bitmapStartBlock + UInt32.ofNat q)) :
    wp bitmapComputeFletcher64 (fun sum v' => sum = bitmapFletcher v.dev.disk v.sb ∧ Still v v')
      (fun _ _ => False) v := by
  unfold bitmapComputeFletcher64
  simp only [wp_bind, wp_get]
  refine wp_loop (fun q s v' => s = bitmapSums v.dev.disk v.sb q ∧ Still v v')
    ⟨rfl, refl_of Still v⟩ ?_ ?_
  · rintro q s _ hq ⟨rfl, c, rfl⟩
    rw [wp_bind, wp_attempt]
    refine wp_readBlk (fun c' _ => ⟨?_, c', rfl⟩) (fun c' hn => absurd ⟨hf, hr q hq⟩ hn)
    unfold bitmapSums
    rw [List.range_succ, List.foldl_append]
    rfl
  · rintro s _ ⟨rfl, hstill⟩
    exact ⟨rfl, hstill⟩

theorem signatureCompute_loads (hf : v.dev.FaultFree)
    (hr : ∀ q < v.sb.entryTableBlocks.toNat, v.dev.Reads (v.sb.entryTableStart + UInt32.ofNat q)) :
    wp signatureCompute (fun sig v' => sig = tableSignature v.dev.disk v.sb ∧ Still v v') (fun _ _ => False) v := by
  unfold signatureCompute
  simp only [wp_bind, wp_get]
  refine wp_loop (fun q crc v' => crc = tableCrc v.dev.disk v.sb q ∧ Still v v') ⟨rfl, refl_of Still v⟩ ?_ ?_
  · rintro q crc _ hq ⟨rfl, c, rfl⟩
    rw [wp_bind, wp_attempt]
    refine wp_readBlk (fun c' _ => ⟨?_, c', rfl⟩) (fun c' hn => absurd ⟨hf, hr q hq⟩ hn)
    unfold tableCrc
    rw [List.range_succ, List.foldl_append]
    rfl
  · rintro crc _ ⟨rfl, hstill⟩
    exact ⟨rfl, hstill⟩

end

section

variable {v : Vol} (hr : Ready v)
include hr

theorem Ready.bitmapStart_add_mem {q : Nat} (hq : q < v.sb.bitmapBlockCount.toNat) :
    v.sb.bitmapStartBlock + UInt32.ofNat q ∈ v.sb.bitmapRegion := by
  have hmem := bitmapBlockOf_mem hr.layout (r := q * 32768) (by omega)
  unfold Superblock.bitmapBlockOf at hmem
  rwa [Nat.mul_div_cancel _ (by decide)] at hmem

theorem Ready.tableStart_add_mem {q : Nat} (hq : q < v.sb.entryTableBlocks.toNat) :
    v.sb.entryTableStart + UInt32.ofNat q ∈ v.sb.tableRegion := by
  have := hr.layout.bitmapAfter
  have := v.sb.bitmapStartBlock.toNat_lt
  change _ ∧ _
  rw [toNat_add_lt (by rw [toNat_ofNat_lt (by omega)]; omega), toNat_ofNat_lt (by omega)]
  omega

theorem Ready.writes_table {b : UInt32} (hb : b ∈ v.sb.tableRegion) : v.dev.Writes b := by
  have := hr.layout.bitmapAfter
  have := hr.layout.dataAfter
  exact hr.serves.writes b (by have := hb.2; omega)

theorem bitmapComputeFletcher64_ready :
    wp bitmapComputeFletcher64 (fun sum v' => sum = bitmapFletcher v.dev.disk v.sb ∧ Still v v')
      (fun _ _ => False) v :=
  bitmapComputeFletcher64_loads hr.faultFree fun _ hq =>
    ((hr.serves.bitmap hr.layout).writes _ (hr.bitmapStart_add_mem hq)).toReads

theorem signatureCompute_ready :
    wp signatureCompute (fun sig v' => sig = tableSignature v.dev.disk v.sb ∧ Still v v') (fun _ _ => False) v :=
  signatureCompute_loads hr.faultFree fun _ hq => (hr.writes_table (hr.tableStart_add_mem hq)).toReads

end

section

variable {v : Vol} {disk : Disk}

theorem bitmapFletcher_congr (hr : Ready v) (h : ∀ b ∈ v.sb.bitmapRegion, disk b = v.dev.disk b) :
    bitmapFletcher disk v.sb = bitmapFletcher v.dev.disk v.sb := by
  unfold bitmapFletcher bitmapSums
  congr 1
  refine List.foldl_ext _ _ _ fun s q hq => ?_
  rw [h _ (hr.bitmapStart_add_mem (List.mem_range.mp hq))]

theorem tableSignature_congr (hr : Ready v) (h : ∀ b ∈ v.sb.tableRegion, disk b = v.dev.disk b) :
    tableSignature disk v.sb = tableSignature v.dev.disk v.sb := by
  unfold tableSignature tableCrc
  refine List.foldl_ext _ _ _ fun crc q hq => ?_
  rw [h _ (hr.tableStart_add_mem (List.mem_range.mp hq))]

end

/-! ## 0 で埋める -/

/-- `S` のブロックを 0 で埋めた。 -/
structure Zeroed (S : Set UInt32) (v v' : Vol) : Prop where
  sb : v'.sb = v.sb
  dev : v.dev.Evolves S v'.dev
  zero : ∀ b ∈ S, v'.dev.disk b = Bytes.zero 4096
  writes : ∀ b ∈ S, v.dev.Writes b

/-- `start` から始まる `n` 個のブロック。 -/
def blockRange (start n : Nat) : Set UInt32 := { b | start ≤ b.toNat ∧ b.toNat < start + n }

/-- 範囲を順に 0 で埋める繰り返し。失敗のない装置では、書けないブロックがあるときだけ止まる。 -/
theorem wp_zeroFill {v : Vol} (hf : v.dev.FaultFree) (start : UInt32) {n : Nat} (hfit : start.toNat + n < 2 ^ 32)
    {body : Nat → UsfsM Unit}
    (hbody : ∀ i v₁, i < n → v₁.sb = v.sb → v₁.dev.FaultFree →
      wp (body i) (fun _ v' => v₁.dev.Writes (start + UInt32.ofNat i) ∧
        ∃ c, v' = v₁.put (start + UInt32.ofNat i) (Bytes.zero 4096) c)
        (fun _ _ => ¬ v₁.dev.Writes (start + UInt32.ofNat i)) v₁) :
    wp (forUpto n body) (fun _ v' => Zeroed (blockRange start.toNat n) v v')
      (fun _ _ => ∃ b ∈ blockRange start.toNat n, ¬ v.dev.Writes b) v := by
  refine wp_forUpto (fun k v' => Zeroed (blockRange start.toNat k) v v') ?_ ?_ (fun _ h => h)
  · have hempty : ∀ b, b ∉ blockRange start.toNat 0 := fun b hb => absurd hb.2 (by have := hb.1; omega)
    exact ⟨rfl, .refl _ _, fun b hb => absurd hb (hempty b), fun b hb => absurd hb (hempty b)⟩
  · intro i v₁ hi hz
    have hat : (start + UInt32.ofNat i).toNat = start.toNat + i := by
      rw [toNat_add_lt (by rw [toNat_ofNat_lt (by omega)]; omega), toNat_ofNat_lt (by omega)]
    have hcase : ∀ b ∈ blockRange start.toNat (i + 1), b = start + UInt32.ofNat i ∨ b ∈ blockRange start.toNat i := by
      intro b hb
      by_cases he : b.toNat = start.toNat + i
      · exact .inl (UInt32.toNat_inj.mp (he.trans hat.symm))
      · exact .inr ⟨hb.1, by have := hb.2; omega⟩
    refine (hbody i v₁ hi hz.sb (hz.dev.faultFree hf)).mono ?_ ?_
    · rintro _ _ ⟨hw, c, rfl⟩
      refine ⟨hz.sb, (hz.dev.mono ?_).trans (.store ?_), fun b hb => ?_, fun b hb => ?_⟩
      · intro b hb
        exact ⟨hb.1, Nat.lt_succ_of_lt hb.2⟩
      · change _ ∧ _
        rw [hat]
        omega
      · rcases hcase b hb with rfl | hb
        · exact Function.update_self _ _ _
        · by_cases he : b = start + UInt32.ofNat i
          · rw [he]
            exact Function.update_self _ _ _
          · exact (Function.update_of_ne he _ _).trans (hz.zero b hb)
      · rcases hcase b hb with rfl | hb
        · rw [← hz.dev.config]
          exact hw
        · exact hz.writes b hb
    · intro _ _ hno
      rw [hz.dev.config] at hno
      refine ⟨start + UInt32.ofNat i, ⟨?_, ?_⟩, hno⟩ <;> omega

theorem bitmapInit_zeroes {v : Vol} (hl : Placed v.sb) (hf : v.dev.FaultFree) (hpos : 0 < v.sb.bitmapBlockCount.toNat) :
    wp bitmapInit
      (fun _ v' => Zeroed (blockRange v.sb.bitmapStartBlock.toNat v.sb.bitmapBlockCount.toNat) v v')
      (fun _ _ => ∃ b : UInt32, b.toNat < v.sb.dataRegionStart.toNat ∧ ¬ v.dev.Writes b) v := by
  have htable := hl.tableAfter
  have hbitmap := hl.bitmapAfter
  have hdata := hl.dataAfter
  have hlt := v.sb.dataRegionStart.toNat_lt
  unfold bitmapInit
  simp only [wp_bind, wp_get, wp_failIf]
  refine ⟨fun hz => ?_, fun _ => ?_⟩
  · rcases hz with hz | hz <;> have hz := congrArg UInt32.toNat hz <;> rw [UInt32.toNat_zero] at hz <;> omega
  refine (wp_zeroFill hf v.sb.bitmapStartBlock (by omega) fun i v₁ hi hsb hf₁ => ?_).mono (fun _ _ h => h) ?_
  · have hat : (v.sb.bitmapStartBlock + UInt32.ofNat i).toNat = v.sb.bitmapStartBlock.toNat + i := by
      rw [toNat_add_lt (by rw [toNat_ofNat_lt (by omega)]; omega), toNat_ofNat_lt (by omega)]
    simp only [wp_bind, wp_failIf]
    refine ⟨fun hout => ?_, fun _ => wp_writeBlk (fun c hw => ⟨hw, c, rfl⟩) (fun _ _ _ hno hw => hno ⟨hf₁, hw⟩)⟩
    have hge := UInt32.le_iff_toNat_le.mp hout
    omega
  · rintro _ _ ⟨b, hb, hno⟩
    exact ⟨b, by have := hb.2; omega, hno⟩

section

variable {v v' : Vol}

/-- ビットマップの終わりまで書けた装置は、データ領域の手前のどのブロックも読み書きできる。 -/
theorem Zeroed.serves (h : Zeroed (blockRange v.sb.bitmapStartBlock.toNat v.sb.bitmapBlockCount.toNat) v v')
    (hadj : v.sb.dataRegionStart.toNat = v.sb.bitmapStartBlock.toNat + v.sb.bitmapBlockCount.toNat)
    (hpos : 0 < v.sb.bitmapBlockCount.toNat) (hwhole : v.dev.WholeBlocks) : Serves v'.dev.toHtlConfig v.sb := by
  refine ⟨fun b hb => ?_, by rw [h.dev.config]; exact hwhole⟩
  have hlt := v.sb.dataRegionStart.toNat_lt
  -- 最後に埋めたビットマップのブロックは、データ領域の直前にある。
  have hat : (UInt32.ofNat (v.sb.dataRegionStart.toNat - 1)).toNat = v.sb.dataRegionStart.toNat - 1 :=
    toNat_ofNat_lt (by omega)
  have hmem : UInt32.ofNat (v.sb.dataRegionStart.toNat - 1) ∈
      blockRange v.sb.bitmapStartBlock.toNat v.sb.bitmapBlockCount.toNat := by
    change _ ∧ _
    omega
  rw [h.dev.config]
  exact (h.writes _ hmem).of_le (by rw [hat]; exact Nat.le_sub_one_of_lt hb)

end

/-! ## 空のボリューム -/

/-- 根の項目だけを持つ見かけ。 -/
def freshView (who : OwIdentity) (sb : Superblock) : View where
  used := fill (fun _ => false) 0 1 true
  table := Function.update (fun _ => Entry.zero) 0
    (createdEntry who sb 0 entryCatalog modeDefaultDir (some [0x2F]) 1 0 sb.dataRegionStart 1)
  freeBlocks := sb.freeBlocks - 1
  usedEntries := 1

section

variable {total b : UInt32} {label : Option (List UInt8)} {nonce : Bytes 12}

theorem layout_freshSuperblock (hne : 17 + b.toNat < total.toNat)
    (henough : total.toNat - 17 - b.toNat ≤ b.toNat * 32768) : Layout (freshSuperblock total b label nonce) := by
  have htot := total.toNat_lt
  have hstart : (17 + b).toNat = 17 + b.toNat := by
    rw [toNat_add_lt (by rw [show (17 : UInt32).toNat = 17 from rfl]; omega)]
    rfl
  refine ⟨?_, ?_, ?_, ?_, ?_⟩
  · change 0 < (1 : UInt32).toNat
    decide
  · change (1 : UInt32).toNat + (16 : UInt32).toNat ≤ (17 : UInt32).toNat
    decide
  · change (17 : UInt32).toNat + b.toNat ≤ (17 + b).toNat
    rw [hstart]
    rfl
  · change (256 : UInt32).toNat ≤ 16 * (16 : UInt32).toNat
    decide
  · change total.toNat - (17 + b).toNat ≤ b.toNat * 32768
    rw [hstart]
    omega

/-- フォーマットの本体に渡すスーパーブロック。まだ何も置いていない。 -/
structure Unused (sb : Superblock) : Prop where
  layout : Layout sb
  nonempty : sb.dataRegionStart.toNat < sb.totalBlocks.toNat
  adjacent : sb.dataRegionStart.toNat = sb.bitmapStartBlock.toNat + sb.bitmapBlockCount.toNat
  tableFirst : sb.bitmapStartBlock.toNat = sb.entryTableStart.toNat + sb.entryTableBlocks.toNat
  bitmapPos : 0 < sb.bitmapBlockCount.toNat
  slots : 0 < sb.totalEntries.toNat
  empty : sb.usedEntries = 0
  free : sb.freeBlocks = sb.totalBlocks - sb.dataRegionStart
  flags : sb.stateFlags = 0
  unprotected : sb.securityFlags = 0
  branded : sb.Branded

theorem unused_freshSuperblock (hpos : 1 ≤ b.toNat) (hne : 17 + b.toNat < total.toNat)
    (henough : total.toNat - 17 - b.toNat ≤ b.toNat * 32768) : Unused (freshSuperblock total b label nonce) := by
  have htot := total.toNat_lt
  have hstart : (17 + b).toNat = 17 + b.toNat := by
    rw [toNat_add_lt (by rw [show (17 : UInt32).toNat = 17 from rfl]; omega)]
    rfl
  refine ⟨layout_freshSuperblock hne henough, ?_, hstart, rfl, hpos, ?_, rfl, rfl, rfl, rfl, rfl, rfl⟩
  · change (17 + b).toNat < _
    rw [hstart]
    exact hne
  · change 0 < (256 : UInt32).toNat
    decide

end

section

variable {sb : Superblock} (h : Unused sb)
include h

theorem Unused.writable : volumeWritable sb = .ok () := by
  unfold volumeWritable
  rw [h.flags, h.unprotected]
  rfl

theorem Unused.free_ne_zero : sb.freeBlocks ≠ 0 := by
  intro hz
  have hne := h.nonempty
  have := congrArg UInt32.toNat (h.free.symm.trans hz)
  rw [toNat_sub_le (by omega), UInt32.toNat_zero] at this
  omega

end

/-- フォーマットした直後のボリューム。マウントしただけのものも含む。 -/
structure Fresh (who : OwIdentity) (sb₀ : Superblock) (v : Vol) : Prop where
  ready : Ready v
  geometry : SameGeometry { sb₀ with freeBlocks := sb₀.freeBlocks - 1, usedEntries := 1 } v.sb
  plain : v.sb.securityFlags = 0
  flags : v.sb.stateFlags = 0 ∨ v.sb.stateFlags = stateDirty
  fletcher : v.sb.fletcher64Bitmap = bitmapFletcher v.dev.disk v.sb
  signature : v.sb.signature = tableSignature v.dev.disk v.sb
  view : viewOf v = freshView who sb₀
  onDisk : diskSb v = v.sb
  valid : superblockValidate v.sb = true

/-- 配置の同じスーパーブロックの要約は、装置の内容だけで決まる。 -/
theorem Resaved.fletcher {v v' : Vol} (h : Resaved v v') (hr : Ready v) :
    bitmapFletcher v'.dev.disk v'.sb = bitmapFletcher v.dev.disk v.sb := by
  have hcongr := bitmapFletcher_congr hr (h.bitmap hr.layout)
  obtain ⟨⟨_, _, _, _, _, _, hsb⟩, _, _⟩ := h
  rw [← hcongr, hsb]
  rfl

theorem Resaved.signature {v v' : Vol} (h : Resaved v v') (hr : Ready v) :
    tableSignature v'.dev.disk v'.sb = tableSignature v.dev.disk v.sb := by
  have hcongr := tableSignature_congr hr (h.table hr.layout.placed)
  obtain ⟨⟨_, _, _, _, _, _, hsb⟩, _, _⟩ := h
  rw [← hcongr, hsb]
  rfl

theorem Fresh.resaved {who : OwIdentity} {sb₀ : Superblock} {v v' : Vol} (h : Fresh who sb₀ v) (hres : Resaved v v')
    (hsec : v'.sb.securityFlags = v.sb.securityFlags) (hflags : v'.sb.stateFlags = 0 ∨ v'.sb.stateFlags = stateDirty)
    (hsum : v'.sb.fletcher64Bitmap = v.sb.fletcher64Bitmap) (hsig : v'.sb.signature = v.sb.signature)
    (hsaved : diskSb v' = v'.sb) (hvalid : superblockValidate v'.sb = true) : Fresh who sb₀ v' where
  ready := hres.ready h.ready
  geometry := h.geometry.trans hres.geometry
  plain := hsec.trans h.plain
  flags := hflags
  fletcher := by rw [hres.fletcher h.ready, hsum, h.fletcher]
  signature := by rw [hres.signature h.ready, hsig, h.signature]
  view := (hres.view h.ready.layout).trans h.view
  onDisk := hsaved
  valid := hvalid

section

variable {sb₀ : Superblock} {v v' : Vol}

theorem viewOf_zeroed (hl : Layout v.sb)
    (htable : ∀ b ∈ v.sb.tableRegion, v.dev.disk b = Bytes.zero 4096)
    (hbitmap : ∀ b ∈ v.sb.bitmapRegion, v.dev.disk b = Bytes.zero 4096) :
    viewOf v = ⟨fun _ => false, fun _ => Entry.zero, v.sb.freeBlocks, v.sb.usedEntries⟩ := by
  have hbits : bitsView v.dev.disk v.sb = fun _ => false := by
    funext r
    by_cases hr : r < v.sb.dataCount
    · rw [bitsView_eq hr]
      unfold bitOf
      rw [hbitmap _ (bitmapBlockOf_mem hl (lt_bitmap_of_lt_data hl hr)), Bytes.bitAt_zero]
    · unfold bitsView
      rw [decide_eq_false hr, Bool.false_and]
  have hentries : tableView v.dev.disk v.sb = fun _ => Entry.zero := by
    funext idx
    unfold tableView
    split
    · rename_i hi
      unfold entryAt
      rw [htable _ (entryBlockOffset_mem hl hi), entryIn_zero]
    · rfl
  unfold viewOf
  rw [hbits, hentries]

theorem firstFit_empty {n s : Nat} (h : FirstFit (fun _ => false) n 1 s) : s = 0 := by
  by_contra hs
  exact h.least 0 (Nat.pos_of_ne_zero hs) fun _ _ => rfl

theorem rootCreated {who : OwIdentity} {idx : UInt32}
    (hview : viewOf v = ⟨fun _ => false, fun _ => Entry.zero, v.sb.freeBlocks, v.sb.usedEntries⟩)
    (hempty : v.sb.usedEntries = 0) (h : Created v v' who entryCatalog (some [0x2F]) 1 0 idx) :
    Becomes {b | b = v.sb.dataRegionStart} v v' (freshView who v.sb) := by
  have hidx : idx = 0 := by
    by_contra hne
    have hpos : 0 < idx.toNat := Nat.pos_of_ne_zero fun h => hne (UInt32.toNat_inj.mp h)
    have hlive := h.slot.before 0 hpos
    rw [hview] at hlive
    exact hlive.1 rfl
  obtain ⟨mode, first, count, s, ⟨htype, _⟩ | ⟨_, hmode, hcount, hfirst, _, hs, _⟩, hbecomes⟩ := h.effect
  · exact absurd htype (by decide)
  · rw [hview] at hs
    have hzero := firstFit_empty hs
    have hplace : first = v.sb.dataRegionStart := UInt32.toNat_inj.mp (by rw [hfirst, hzero, Nat.add_zero])
    subst hmode hcount hidx hzero hplace
    rw [hview, hempty] at hbecomes
    exact ⟨hbecomes.shape, hbecomes.config, hbecomes.view, fun b hb hout => hbecomes.data b hb fun hin => hout hin.2⟩

theorem flushDirty_ready (hr : Ready v) :
    wp flushDirty
      (fun _ v' => Resaved v v' ∧ diskSb v' = v'.sb ∧
        v'.sb = Superblock.sealed (clearFlags (stateDirty ||| stateLocked)
          { v.sb with fletcher64Bitmap := bitmapFletcher v.dev.disk v.sb }))
      (fun _ _ => ¬ v.dev.Writes 0) v := by
  unfold flushDirty
  rw [wp_bind]
  refine (bitmapComputeFletcher64_ready hr).mono ?_ (fun _ _ h => h.elim)
  rintro _ _ ⟨rfl, c, rfl⟩
  simp only [wp_bind, wp_modifySb]
  refine wp_superblockWrite (fun c' hw => ?_) (fun e c' _ hno hw => hno ⟨hr.faultFree, hw⟩)
  refine wp_flushBlk (fun c'' => ⟨⟨⟨_, _, _, _, _, _, rfl⟩, rfl, fun b hb => Function.update_of_ne hb _ _⟩,
    diskSb_saved, rfl⟩) (fun c'' hno _ => hno ⟨hr.faultFree, hw.valid⟩)

theorem finishFormat_ready {who : OwIdentity} (hu : Unused sb₀) (hr : Ready v) (hw0 : v.dev.Writes 0)
    (hshape : SameShape sb₀ v.sb) (hview : viewOf v = freshView who sb₀) :
    wp (do
        modifySb fun sb => { sb with usedEntries := 1 }
        let sum ← bitmapComputeFletcher64
        modifySb fun sb => { sb with fletcher64Bitmap := sum }
        let sig ← signatureCompute
        modifySb fun sb => { sb with signature := sig }
        flushDirty)
      (fun _ v' => Fresh who sb₀ v' ∧ v'.sb.stateFlags = 0 ∧ v'.dev.toHtlConfig = v.dev.toHtlConfig)
      (fun _ _ => False) v := by
  simp only [wp_bind, wp_modifySb]
  have hr₁ : Ready { v with sb := { v.sb with usedEntries := 1 } } :=
    (usedEntries_becomes (T := ∅) 1).ready hr
  have hsb₁ : { v.sb with usedEntries := 1 } = { sb₀ with freeBlocks := sb₀.freeBlocks - 1, usedEntries := 1 } := by
    have hfree : v.sb.freeBlocks = sb₀.freeBlocks - 1 := congrArg View.freeBlocks hview
    obtain ⟨_, _, hsb⟩ := hshape
    rw [← hfree, hsb]
  have hview₁ : viewOf { v with sb := { v.sb with usedEntries := 1 } } = freshView who sb₀ := by
    rw [(usedEntries_becomes (T := ∅) 1).view, hview]
    rfl
  generalize hv₁ : ({ v with sb := { v.sb with usedEntries := 1 } } : Vol) = v₁ at hr₁ hview₁ ⊢
  have hgeo : v₁.sb = { sb₀ with freeBlocks := sb₀.freeBlocks - 1, usedEntries := 1 } := by
    rw [← hv₁]
    exact hsb₁
  have hdev : v₁.dev = v.dev := by
    rw [← hv₁]
  clear hv₁
  refine (bitmapComputeFletcher64_ready hr₁).mono ?_ (fun _ _ h => h.elim)
  rintro _ _ ⟨rfl, c, rfl⟩
  have hr₂ : Resaved v₁
    (Vol.atClock { v₁ with sb := { v₁.sb with fletcher64Bitmap := bitmapFletcher v₁.dev.disk v₁.sb } } c) :=
    ⟨⟨_, _, _, _, _, _, rfl⟩, rfl, fun _ _ => rfl⟩
  refine (signatureCompute_ready (hr₂.ready hr₁)).mono ?_ (fun _ _ h => h.elim)
  rintro _ _ ⟨rfl, c', rfl⟩
  have hr₃ : Resaved v₁ (Vol.atClock { v₁ with sb := { v₁.sb with
      fletcher64Bitmap := bitmapFletcher v₁.dev.disk v₁.sb
      signature := tableSignature v₁.dev.disk v₁.sb } } c') := ⟨⟨_, _, _, _, _, _, rfl⟩, rfl, fun _ _ => rfl⟩
  refine (flushDirty_ready (hr₃.ready hr₁)).mono ?_ (fun _ _ hno => hno ?_)
  · rintro _ v' ⟨hres, hsaved, hsb⟩
    have hres₁ := hr₃.trans hres
    have hstate : v'.sb.stateFlags = 0 := by
      rw [hsb]
      change v₁.sb.stateFlags &&& _ = 0
      rw [hgeo]
      change sb₀.stateFlags &&& _ = 0
      rw [hu.flags, UInt32.zero_and]
    refine ⟨⟨hres₁.ready hr₁, hgeo ▸ hres₁.geometry, ?_, .inl hstate, ?_, ?_,
      (hres₁.view hr₁.layout).trans hview₁, hsaved,
      ?_⟩, hstate, hres₁.config.trans (congrArg HtlDevice.toHtlConfig hdev)⟩
    · rw [hsb]
      change v₁.sb.securityFlags = 0
      rw [hgeo]
      exact hu.unprotected
    · rw [hres₁.fletcher hr₁, hsb]
      exact hr₃.fletcher hr₁
    · rw [hres₁.signature hr₁, hsb]
      rfl
    · rw [hsb]
      refine validate_sealed ?_
      change v₁.sb.Branded
      rw [hgeo]
      exact hu.branded
  · change v₁.dev.Writes 0
    rw [hdev]
    exact hw0

end

/-- フォーマットの本体。失敗のない装置では、書けないブロックがあるときだけ止まる。 -/
theorem formatBody_spec {d : HtlDevice} {sb : Superblock} (hu : Unused sb) (hf : d.Reliable) (who : OwIdentity) :
    wp (formatBody who)
      (fun _ v' => Fresh who sb v' ∧ v'.sb.stateFlags = 0 ∧ v'.dev.toHtlConfig = d.toHtlConfig)
      (fun _ _ => ∃ b : UInt32, b.toNat ≤ sb.dataRegionStart.toNat ∧ ¬ d.Writes b) ⟨d, sb⟩ := by
  have htable := hu.layout.tableAfter
  have hfirst := hu.tableFirst
  have hadj := hu.adjacent
  have hne := hu.nonempty
  have hpos := hu.bitmapPos
  have hlt := sb.dataRegionStart.toNat_lt
  unfold formatBody
  rw [wp_bind, wp_get, wp_bind]
  refine (wp_zeroFill (v := ⟨d, sb⟩) hf.faultFree sb.entryTableStart (n := sb.entryTableBlocks.toNat) (by omega)
    fun i v₁ _ _ hf₁ => ?_).mono ?_ ?_
  · rw [wp_bind, wp_attempt]
    exact wp_writeBlk (fun c hw => ⟨hw, c, rfl⟩) (fun _ _ _ hno hw => hno ⟨hf₁, hw⟩)
  rotate_left
  · rintro _ _ ⟨b, hb, hno⟩
    exact ⟨b, by have := hb.2; omega, hno⟩
  rintro _ ⟨d₁, sb₁⟩ hz₁
  obtain rfl : sb₁ = sb := hz₁.sb
  have hf₁ : d₁.FaultFree := hz₁.dev.faultFree hf.faultFree
  have hcfg₁ : d₁.toHtlConfig = d.toHtlConfig := hz₁.dev.config
  rw [wp_bind]
  refine (bitmapInit_zeroes (v := ⟨d₁, sb₁⟩) hu.layout.placed hf₁ hu.bitmapPos).mono ?_ ?_
  rotate_left
  · rintro _ _ ⟨b, hb, hno⟩
    have hb : b.toNat < sb₁.dataRegionStart.toNat := hb
    rw [← hcfg₁]
    exact ⟨b, by omega, hno⟩
  rintro _ ⟨d₂, sb₂⟩ hz₂
  obtain rfl : sb₂ = sb₁ := hz₂.sb
  have hcfg₂ : d₂.toHtlConfig = d.toHtlConfig := hz₂.dev.config.trans hcfg₁
  have hwhole : d₁.WholeBlocks := by
    rw [hcfg₁]
    exact hf.wholeBlocks
  have hr : Ready ⟨d₂, sb₂⟩ := ⟨hu.layout, hu.nonempty, hz₂.dev.faultFree hf₁, hz₂.serves hadj hpos hwhole⟩
  have hview := viewOf_zeroed (v := ⟨d₂, sb₂⟩) hu.layout
    (fun b hb => (hz₂.dev.disk b fun hb' => table_not_bitmap hu.layout hb hb').trans (hz₁.zero b hb)) hz₂.zero
  have hsum : Summed ⟨d₂, sb₂⟩ := by
    intro idx hlive
    rw [hview] at hlive
    exact absurd rfl hlive
  rw [wp_bind]
  refine (entryAlloc_ready hr hsum who entryCatalog (some [0x2F]) 1 0).mono ?_ ?_
  · rintro idx v₃ hc
    have hroot := rootCreated hview hu.empty hc
    have hw0 : v₃.dev.Writes 0 := by
      rw [hroot.config]
      exact hr.serves.writes 0 (by change (0 : UInt32).toNat < sb₂.dataRegionStart.toNat; rw [UInt32.toNat_zero]; omega)
    refine (finishFormat_ready hu (hroot.ready hr) hw0 hroot.shape hroot.view).mono ?_ ?_
    · rintro _ v' ⟨hfresh, hflags, hconfig⟩
      exact ⟨hfresh, hflags, hconfig.trans (hroot.config.trans hcfg₂)⟩
    · exact fun _ _ h => h.elim
  · rintro _ _ ⟨_, hno⟩
    have hadm : Admissible ⟨d₂, sb₂⟩ who entryCatalog (some [0x2F]) 1 0 := by
      refine ⟨rfl, .inr rfl, by decide, by decide, by decide, ?_, hu.writable, fun hp => ?_⟩
      · change sb₂.usedEntries.toNat < sb₂.totalEntries.toNat
        rw [hu.empty]
        exact hu.slots
      · change _ ∨ sb₂.usedEntries > 0 at hp
        rw [hu.empty] at hp
        exact absurd hp (by decide)
    rcases hno hadm with hfull | ⟨_, hz | hnone | ⟨s, b, hs, hb, hnw⟩⟩
    · have hlive := hfull 0 hu.slots
      rw [hview] at hlive
      exact absurd rfl hlive.1
    · exact absurd hz hu.free_ne_zero
    · rw [hview] at hnone
      refine absurd ⟨0, ?_, fun _ _ => rfl, fun s hs => absurd hs (Nat.not_lt_zero s)⟩ hnone
      change 0 + 1 ≤ sb₂.totalBlocks.toNat - sb₂.dataRegionStart.toNat
      omega
    · rw [hview] at hs
      rw [firstFit_empty hs, Nat.add_zero] at hb
      rw [← hcfg₂]
      exact ⟨b, hb.le, hnw⟩

/-! ## 装置の上のフォーマット -/

section

variable {who : OwIdentity} {totalBlocks : UInt32} {label : Option (List UInt8)} {d d' : HtlDevice}

theorem wp_atDevice {sb : Superblock} {p : UsfsM Unit} {Q : Unit → HtlDevice → Prop} {E : UsfsErr → HtlDevice → Prop} :
    wp (fun d => ((p ⟨d, sb⟩).1, (p ⟨d, sb⟩).2.dev)) Q E d ↔
      wp p (fun a v => Q a v.dev) (fun e v => E e v.dev) ⟨d, sb⟩ := by
  unfold wp
  beta_reduce
  rcases p ⟨d, sb⟩ with ⟨r, v⟩
  cases r <;> rfl

/-- 通ったフォーマットが装置に残すもの。 -/
def Formatted (who : OwIdentity) (totalBlocks b : UInt32) (label : Option (List UInt8)) (d' : HtlDevice) : Prop :=
  ∃ nonce v, Unused (freshSuperblock totalBlocks b label nonce) ∧
    Fresh who (freshSuperblock totalBlocks b label nonce) v ∧ v.sb.stateFlags = 0 ∧ v.dev = d'

/-- 失敗のない装置で、データ領域の先頭までのブロックに書けるなら、フォーマットは通る。 -/
theorem formatVolume_spec (hf : d.Reliable) {b : UInt32} (hb : layoutBitmapBlocks totalBlocks = some b)
    (hlow : 19 ≤ totalBlocks.toNat) (hpos : 1 ≤ b.toNat) (hne : 17 + b.toNat < totalBlocks.toNat)
    (henough : totalBlocks.toNat - 17 - b.toNat ≤ b.toNat * 32768) :
    wp (formatVolume who totalBlocks label)
      (fun _ d' => Formatted who totalBlocks b label d' ∧ d'.toHtlConfig = d.toHtlConfig)
      (fun _ _ => ∃ x : UInt32, x.toNat ≤ 17 + b.toNat ∧ ¬ d.Writes x) d := by
  have hbody : ∀ nonce, wp (fun d => ((formatBody who ⟨d, freshSuperblock totalBlocks b label nonce⟩).1,
      (formatBody who ⟨d, freshSuperblock totalBlocks b label nonce⟩).2.dev))
      (fun _ d' => Formatted who totalBlocks b label d' ∧ d'.toHtlConfig = d.toHtlConfig)
      (fun _ _ => ∃ x : UInt32, x.toNat ≤ 17 + b.toNat ∧ ¬ d.Writes x) d := by
    intro nonce
    have hunused : Unused (freshSuperblock totalBlocks b label nonce) := unused_freshSuperblock hpos hne henough
    have hstart : (freshSuperblock totalBlocks b label nonce).dataRegionStart.toNat = 17 + b.toNat := hunused.adjacent
    refine wp_atDevice.mpr ((formatBody_spec hunused hf who).mono
      (fun _ v h => ⟨⟨nonce, v, hunused, h.1, h.2.1, rfl⟩, h.2.2⟩) (fun _ _ h => ?_))
    rwa [hstart] at h
  unfold formatVolume
  simp only [wp_bind, wp_failIf, hb]
  refine ⟨fun hsmall => ?_, fun _ => wp_bind.mpr (wp_attempt.mpr ?_)⟩
  · exact absurd hlow (Nat.not_le.mpr (UInt32.lt_iff_toNat_lt.mp hsmall))
  · exact wp_htlGetEntropy (fun nonce => hbody nonce) (fun _ => hbody _)

end

/-! ## フォーマットしたディスクを開く -/

/-- フォーマットしたディスクのスーパーブロックを読むか、マウントするかして得たボリューム。 -/
inductive Opened (d : HtlDevice) : Vol → Prop
  | read {sb₀ : Superblock} {v : Vol} (h : superblockRead ⟨d, sb₀⟩ = (.ok (), v)) : Opened d v
  | mount {sb₀ : Superblock} {v : Vol} (h : mount ⟨d, sb₀⟩ = (.ok (), v)) : Opened d v

section

variable {who : OwIdentity} {totalBlocks : UInt32} {label : Option (List UInt8)} {d d' : HtlDevice} {v v' : Vol}
  {sb₀ : Superblock}

theorem Fresh.writable (h : Fresh who sb₀ v) : volumeWritable v.sb = .ok () := by
  unfold volumeWritable
  rw [h.plain]
  rcases h.flags with hflags | hflags <;> rw [hflags] <;> rfl

theorem Fresh.summed (h : Fresh who sb₀ v) : Summed v := by
  intro idx hlive
  rw [h.view] at hlive ⊢
  by_cases hidx : idx = 0
  · rw [hidx]
    exact verify_sealed _
  · have hentry : (freshView who sb₀).table idx = Entry.zero :=
      Function.update_of_ne hidx _ (fun _ => Entry.zero)
    rw [hentry] at hlive
    exact absurd rfl hlive

theorem Fresh.dataRegionStart_eq (h : Fresh who sb₀ v) : v.sb.dataRegionStart = sb₀.dataRegionStart := by
  obtain ⟨_, _, _, _, _, _, hsb⟩ := h.geometry
  rw [hsb]

theorem Fresh.totalBlocks_eq (h : Fresh who sb₀ v) : v.sb.totalBlocks = sb₀.totalBlocks := by
  obtain ⟨_, _, _, _, _, _, hsb⟩ := h.geometry
  rw [hsb]

theorem Fresh.bit (h : Fresh who sb₀ v) {r : Nat} (hr : r < v.sb.dataCount) :
    bitOf v.dev.disk v.sb r = fill (fun _ => false) 0 1 true r := by
  rw [← bitsView_eq hr]
  exact congrFun (congrArg View.used h.view) r

theorem Fresh.freeExact (hu : Unused sb₀) (h : Fresh who sb₀ v) : FreeExact v.dev.disk v.sb := by
  have hcount : v.sb.dataCount = sb₀.totalBlocks.toNat - sb₀.dataRegionStart.toNat := by
    unfold Superblock.dataCount
    rw [h.totalBlocks_eq, h.dataRegionStart_eq]
  have hne := hu.nonempty
  have hfree : v.sb.freeBlocks.toNat = v.sb.dataCount - 1 := by
    have hfield : v.sb.freeBlocks = sb₀.freeBlocks - 1 := congrArg View.freeBlocks h.view
    have hall : sb₀.freeBlocks.toNat = sb₀.totalBlocks.toNat - sb₀.dataRegionStart.toNat := by
      rw [hu.free, toNat_sub_le (by omega)]
    rw [hfield, toNat_sub_le (by rw [hall]; exact Nat.sub_pos_of_lt hne), hall, hcount]
    rfl
  have hsplit : vacancies (fill (fun _ => false) 0 1 true) 0 v.sb.dataCount + vacancies (fun _ => false) 0 1 =
      vacancies (fun _ => false) 0 v.sb.dataCount + 0 := vacancies_fill (by omega)
  have hall : ∀ n, vacancies (fun _ => false) 0 n = n := fun n => Vacant.vacancies fun _ _ => rfl
  rw [hall, hall] at hsplit
  have hcongr : freeCount v.dev.disk v.sb = vacancies (fill (fun _ => false) 0 1 true) 0 v.sb.dataCount :=
    vacancies_congr fun r hr => h.bit (by omega)
  unfold FreeExact
  omega

theorem Fresh.opened (h : Fresh who sb₀ v) (hflags : v.sb.stateFlags = 0) (hopen : Opened v.dev v') :
    Fresh who sb₀ v' ∧ v'.dev.toHtlConfig = v.dev.toHtlConfig := by
  have hdisk : ∀ sb, diskSb ⟨v.dev, sb⟩ = v.sb := fun _ => h.onDisk
  cases hopen with
  | @read sb₁ _ hread =>
      have hwp : wp superblockRead (fun _ v' => ∃ c, v' = v.atClock c) (fun _ _ => True) ⟨v.dev, sb₁⟩ := by
        refine wp_superblockRead (fun c _ _ => ⟨c, ?_⟩) (fun _ _ => trivial) (fun _ _ => trivial)
        rw [hdisk]
      obtain ⟨c, rfl⟩ := hwp.ok hread
      exact ⟨h.resaved (.of_still ⟨c, rfl⟩) rfl h.flags rfl rfl h.onDisk h.valid, rfl⟩
  | @mount sb₁ _ hmount =>
      have hwp : wp mount (fun _ v' => Resaved v v' ∧ diskSb v' = v'.sb ∧ v'.sb = Superblock.sealed
          (setFlags stateDirty { v.sb with mountCount := v.sb.mountCount + 1 })) (fun _ _ => True) ⟨v.dev, sb₁⟩ := by
        unfold mount
        rw [wp_bind]
        refine wp_superblockRead (fun c _ _ => ?_) (fun _ _ => trivial) (fun _ _ => trivial)
        rw [hdisk]
        simp only [wp_bind, wp_get, wp_failIf, wp_ite, wp_modifySb]
        refine ⟨fun _ => trivial, fun _ => ⟨fun hdirty => absurd ?_ hdirty, fun _ => ?_⟩⟩
        · change v.sb.stateFlags &&& _ = 0
          rw [hflags, UInt32.zero_and]
        · exact wp_superblockWrite
            (fun c' _ => ⟨⟨⟨_, _, _, _, _, _, rfl⟩, rfl, fun b hb => Function.update_of_ne hb _ _⟩,
            diskSb_saved, rfl⟩) (fun _ _ _ _ => trivial)
      obtain ⟨hres, hsaved, hsb⟩ := hwp.ok hmount
      refine ⟨h.resaved hres ?_ (.inr ?_) ?_ ?_ hsaved ?_, hres.config⟩
      · rw [hsb]
        rfl
      · rw [hsb]
        change v.sb.stateFlags ||| stateDirty = stateDirty
        rw [hflags]
        rfl
      · rw [hsb]
        rfl
      · rw [hsb]
        rfl
      · rw [hsb]
        have hbrand : v.sb.Branded := branded_of_valid h.valid
        exact validate_sealed ⟨hbrand.1, hbrand.2⟩

theorem fresh_of_format (hf : d.Reliable) (hfit : totalBlocks.toNat < 2 ^ 32 - 32749)
    (hfmt : formatVolume who totalBlocks label d = (.ok (), d')) (hopen : Opened d' v) :
    ∃ b nonce, layoutBitmapBlocks totalBlocks = some b ∧ Unused (freshSuperblock totalBlocks b label nonce) ∧
      Fresh who (freshSuperblock totalBlocks b label nonce) v ∧ v.dev.toHtlConfig = d.toHtlConfig := by
  have hlow : 19 ≤ totalBlocks.toNat := by
    by_contra hsmall
    have hrefuse : totalBlocks < 19 := UInt32.lt_iff_toNat_lt.mpr (Nat.lt_of_not_le hsmall)
    have hwp : wp (formatVolume who totalBlocks label) (fun _ _ => False) (fun _ _ => True) d := by
      unfold formatVolume
      simp only [wp_bind, wp_failIf]
      exact ⟨fun _ => trivial, fun h => absurd hrefuse h⟩
    exact hwp.ok hfmt
  obtain ⟨b, hb, hpos, hne, henough⟩ := layoutBitmapBlocks_of_fit hlow hfit
  obtain ⟨⟨nonce, v₀, hunused, hfresh, hflags, rfl⟩, hconfig⟩ := (formatVolume_spec hf hb hlow hpos hne henough).ok hfmt
  obtain ⟨hfresh', hconfig'⟩ := hfresh.opened hflags hopen
  exact ⟨b, nonce, hb, hunused, hfresh', hconfig'.trans hconfig⟩

/-- データ領域の先頭までのブロックに書ける装置では、フォーマットが通り、読み直せる。 -/
theorem exists_opened (hf : d.Reliable) (hlow : 19 ≤ totalBlocks.toNat) (hfit : totalBlocks.toNat < 2 ^ 32 - 32749)
    (hw : ∀ b x : UInt32, layoutBitmapBlocks totalBlocks = some b → x.toNat ≤ 17 + b.toNat → d.Writes x) :
    ∃ d' v, formatVolume who totalBlocks label d = (.ok (), d') ∧ Opened d' v := by
  obtain ⟨b, hb, hpos, hne, henough⟩ := layoutBitmapBlocks_of_fit hlow hfit
  have hspec : wp (formatVolume who totalBlocks label)
      (fun _ d' => Formatted who totalBlocks b label d' ∧ d'.toHtlConfig = d.toHtlConfig)
      (fun _ _ => ∃ x : UInt32, x.toNat ≤ 17 + b.toNat ∧ ¬ d.Writes x) d :=
        formatVolume_spec hf hb hlow hpos hne henough
  obtain ⟨_, d', hrun, ⟨nonce, v, _, hfresh, _, rfl⟩, _⟩ := hspec.exists_ok_of fun _ _ h =>
    h.elim fun x hx => hx.2 (hw b x hb hx.1)
  have hwp : wp superblockRead (fun _ _ => True) (fun _ _ => False) v := by
    refine wp_superblockRead (fun _ _ _ => trivial) (fun _ hbad => ?_) (fun _ hno => hno ⟨hfresh.ready.faultFree, ?_⟩)
    · rw [hfresh.onDisk, hfresh.valid] at hbad
      cases hbad
    · have htable := hfresh.ready.layout.tableAfter
      have hbitmap := hfresh.ready.layout.bitmapAfter
      have hdata := hfresh.ready.layout.dataAfter
      exact (hfresh.ready.serves.writes 0 (by rw [UInt32.toNat_zero]; omega)).toReads
  obtain ⟨_, v', hread, _⟩ := hwp.exists_ok
  exact ⟨v.dev, v', hrun, .read hread⟩

end

/-! ## 小さな装置 -/

/-- `n` 個のブロックを持つ、0 で埋まった装置。`n` が 0 なら大きさを知らせない。 -/
def zeroDevice (n : UInt32) : HtlDevice where
  blockSize := 4096
  totalBlocks := n
  writeProtect := 0
  hasFlush := true
  entropy := none
  fault := fun _ => none
  disk := fun _ => Bytes.zero 4096
  clock := 0
  trail := []

theorem reliable_zeroDevice (n : UInt32) : (zeroDevice n).Reliable := ⟨fun _ => rfl, rfl⟩

theorem layoutBitmapBlocks_small : layoutBitmapBlocks 64 = some 1 := by
  unfold layoutBitmapBlocks layoutFrom
  decide

theorem writes_zeroDevice {n x : UInt32} (h : n = 0 ∨ x.toNat < n.toNat) : (zeroDevice n).Writes x := by
  refine ⟨⟨by change ¬ (4096 : UInt32) < 0x200; decide, ?_⟩, rfl⟩
  rintro ⟨hpos, hge⟩
  have hpos := UInt32.lt_iff_toNat_lt.mp hpos
  have hge := UInt32.le_iff_toNat_le.mp hge
  rcases h with rfl | h
  · exact absurd hpos (Nat.lt_irrefl 0)
  · exact absurd h (Nat.not_lt.mpr hge)

/-- データ領域の先頭までを持つ装置であれば、64 ブロックのフォーマットは通る。 -/
theorem exists_opened_zeroDevice (who : OwIdentity) {n : UInt32} (hn : n = 0 ∨ 18 < n.toNat) :
    ∃ d' v, formatVolume who 64 none (zeroDevice n) = (.ok (), d') ∧ Opened d' v := by
  refine exists_opened (reliable_zeroDevice n) (by decide) (by decide) fun b x hb hx => writes_zeroDevice ?_
  obtain rfl : b = 1 := Option.some.inj (hb.symm.trans layoutBitmapBlocks_small)
  exact hn.imp_right fun hn => lt_of_le_of_lt hx hn

end OwStorage.Usfs
