import OwStorage.Usfs.Lemmas.Bitmap
import OwStorage.Usfs.Entry

/-!
# 項目の表の規則

表の一つの記録を書いても、ほかの記録は変わらない。書いた記録の検査値は合う。
-/

namespace OwStorage.Usfs

open Lib Prog

/-! ## 呼び出し側の項目を持つ計算 -/

section

variable {α : Type} {s : EntryState} {Q : α → EntryState → Prop} {E : UsfsErr → EntryState → Prop}

@[simp] theorem wp_onVol {p : UsfsM α} :
    wp (onVol p) Q E s ↔
      wp p (fun a v => Q a { s with vol := v }) (fun e v => E e { s with vol := v }) s.vol := wp_within

@[simp] theorem wp_modifyEntry {f : Entry → Entry} {Q : Unit → EntryState → Prop} :
    wp (modifyEntry f) Q E s ↔ Q () { s with entry := f s.entry } := Iff.rfl

@[simp] theorem wp_withEntry {e : Entry} {p : EntryM α} {v : Vol} {Q : α × Entry → Vol → Prop}
    {E : UsfsErr → Vol → Prop} :
    wp (withEntry e p) Q E v ↔
      wp p (fun a s => Q (a, s.entry) s.vol) (fun err s => E err s.vol) ⟨v, e⟩ := by
  unfold wp withEntry
  rcases p ⟨v, e⟩ with ⟨r, s⟩
  cases r <;> rfl

end

/-! ## 記録の往復 -/

theorem length_enc_entry (e : Entry) : (Entry.codec.enc e).length = 256 := Entry.codec.length_enc e

theorem toNat_entrySlotIndex (idx : UInt32) : (entrySlotIndex idx).toNat = idx.toNat % 16 := toNat_and_fifteen idx

theorem entryIn_patch_same (blk : Block) (idx : UInt32) (e : Entry) :
    entryIn (blk.patch ((entrySlotIndex idx).toNat * 256) (Entry.codec.enc e)) idx = e := by
  have hidx := toNat_entrySlotIndex idx
  have hsame := Bytes.slice_patch_same (v := blk) (k := (entrySlotIndex idx).toNat * 256)
    (w := Entry.codec.enc e) (by rw [length_enc_entry]; omega)
  rw [length_enc_entry] at hsame
  unfold entryIn
  rw [hsame, Entry.codec.dec_enc]

theorem entryIn_patch_other (blk : Block) {idx j : UInt32} (h : idx.toNat % 16 ≠ j.toNat % 16) (e : Entry) :
    entryIn (blk.patch ((entrySlotIndex idx).toNat * 256) (Entry.codec.enc e)) j = entryIn blk j := by
  unfold entryIn
  rw [Bytes.slice_patch_disjoint]
  rw [length_enc_entry, toNat_entrySlotIndex, toNat_entrySlotIndex]
  omega

theorem entryIn_zero (idx : UInt32) : entryIn (Bytes.zero 4096) idx = Entry.zero := by
  have hidx := toNat_entrySlotIndex idx
  have hslice : (Bytes.zero 4096).slice ((entrySlotIndex idx).toNat * 256) 256 = List.replicate 256 0 := by
    apply List.ext_getElem?
    intro j
    rw [Bytes.getElem?_slice, List.getElem?_replicate]
    by_cases hj : j < 256
    · rw [if_pos hj, if_pos hj, Vector.getElem?_eq_getElem (by omega), Bytes.getElem_zero]
    · rw [if_neg hj, if_neg hj]
  unfold entryIn
  rw [hslice]
  decide +kernel

/-- 検査値を付け直した項目。 -/
def Entry.sealed (e : Entry) : Entry := { e with checksum := entryComputeChecksum e }

theorem entryComputeChecksum_checksum (e : Entry) (x : UInt32) :
    entryComputeChecksum { e with checksum := x } = entryComputeChecksum e := by
  have hfront : (Entry.front.enc (Entry.fields e).1).length = 0xFC := Entry.front.length_enc _
  have h := owCrc32cStruct_field (Entry.front.enc (Entry.fields e).1) []
    (Codec.u32.enc x) (Codec.u32.enc e.checksum) (Codec.u32.length_enc _) (Codec.u32.length_enc _)
  rw [hfront, List.append_nil, List.append_nil] at h
  exact h

theorem verify_sealed (e : Entry) : entryVerifyChecksum e.sealed = true := by
  unfold entryVerifyChecksum
  rw [beq_iff_eq]
  exact (entryComputeChecksum_checksum e _).symm

/-! ## 表 -/

/-- 項目の表のブロック。 -/
def Superblock.tableRegion (sb : Superblock) : Set UInt32 :=
  { b | sb.entryTableStart.toNat ≤ b.toNat ∧
    b.toNat < sb.entryTableStart.toNat + sb.entryTableBlocks.toNat }

/-- ディスク上の項目 `idx` の記録。 -/
def entryAt (disk : Disk) (sb : Superblock) (idx : UInt32) : Entry := entryIn (disk (entryBlockOffset sb idx)) idx

/-- データ領域の手前のどのブロックも読み書きできる装置。データ領域は装置より大きくてもよい。 -/
structure Serves (c : HtlConfig) (sb : Superblock) : Prop where
  writes : ∀ b : UInt32, b.toNat < sb.dataRegionStart.toNat → c.Writes b
  wholeBlocks : c.WholeBlocks

theorem Serves.bitmap {c : HtlConfig} {sb : Superblock} (h : Serves c sb) (hl : Layout sb) : WritesBitmap c sb := by
  have := hl.dataAfter
  exact ⟨fun b hb => h.writes b (by have := hb.2; omega), h.wholeBlocks⟩

/-- 番号の並ぶ表が、32 ビットの番号の中に収まる。 -/
structure TableFits (sb : Superblock) : Prop where
  entries : sb.totalEntries.toNat ≤ 16 * sb.entryTableBlocks.toNat
  room : sb.entryTableStart.toNat + sb.entryTableBlocks.toNat < 2 ^ 32

/-- 表、ビットマップ、データ領域がこの順に並ぶ。ビットマップはデータ領域を覆わなくてもよい。 -/
structure Placed (sb : Superblock) : Prop where
  tableAfter : 0 < sb.entryTableStart.toNat
  bitmapAfter : sb.entryTableStart.toNat + sb.entryTableBlocks.toNat ≤ sb.bitmapStartBlock.toNat
  dataAfter : sb.bitmapStartBlock.toNat + sb.bitmapBlockCount.toNat ≤ sb.dataRegionStart.toNat
  entriesFit : sb.totalEntries.toNat ≤ 16 * sb.entryTableBlocks.toNat

theorem Layout.placed {sb : Superblock} (hl : Layout sb) : Placed sb :=
  ⟨hl.tableAfter, hl.bitmapAfter, hl.dataAfter, hl.entriesFit⟩

theorem Placed.tableFits {sb : Superblock} (hp : Placed sb) : TableFits sb :=
  ⟨hp.entriesFit, lt_of_le_of_lt hp.bitmapAfter sb.bitmapStartBlock.toNat_lt⟩

theorem Layout.tableFits {sb : Superblock} (hl : Layout sb) : TableFits sb := hl.placed.tableFits

namespace TableFits

variable {sb : Superblock} (ht : TableFits sb)
include ht

theorem toNat_blockOffset {idx : UInt32} (hi : idx.toNat < sb.totalEntries.toNat) :
    (entryBlockOffset sb idx).toNat = sb.entryTableStart.toNat + idx.toNat / 16 := by
  have := ht.entries
  have := ht.room
  unfold entryBlockOffset
  rw [toNat_add_lt (by rw [toNat_shiftRight_four]; omega), toNat_shiftRight_four]

theorem blockOffset_mem {idx : UInt32} (hi : idx.toNat < sb.totalEntries.toNat) :
    entryBlockOffset sb idx ∈ sb.tableRegion := by
  have := ht.entries
  change _ ∧ _
  rw [ht.toNat_blockOffset hi]
  omega

theorem entryAt_update {disk : Disk} {idx j : UInt32} (hi : idx.toNat < sb.totalEntries.toNat)
    (hj : j.toNat < sb.totalEntries.toNat) (e : Entry) :
    entryAt (Function.update disk (entryBlockOffset sb idx) ((disk (entryBlockOffset sb idx)).patch
      ((entrySlotIndex idx).toNat * 256) (Entry.codec.enc e))) sb j =
      if j = idx then e else entryAt disk sb j := by
  unfold entryAt
  by_cases hji : j = idx
  · subst hji
    rw [Function.update_self, entryIn_patch_same, if_pos rfl]
  · rw [if_neg hji]
    by_cases hblk : entryBlockOffset sb j = entryBlockOffset sb idx
    · have hq := congrArg UInt32.toNat hblk
      rw [ht.toNat_blockOffset hi, ht.toNat_blockOffset hj] at hq
      have hne : idx.toNat % 16 ≠ j.toNat % 16 := by
        intro he
        exact hji (UInt32.toNat_inj.mp (by omega))
      rw [hblk, Function.update_self, entryIn_patch_other _ hne]
    · rw [Function.update_of_ne hblk]

end TableFits

section

variable {sb : Superblock} (hp : Placed sb)
include hp

theorem Serves.table {c : HtlConfig} (hs : Serves c sb) {idx : UInt32} (hi : idx.toNat < sb.totalEntries.toNat) :
    c.Writes (entryBlockOffset sb idx) := by
  have := hp.bitmapAfter
  have := hp.dataAfter
  have hmem := hp.tableFits.blockOffset_mem hi
  exact hs.writes _ (by have := hmem.2; omega)

theorem Placed.data_not_table {b : UInt32} (hb : sb.IsData b) : b ∉ sb.tableRegion := by
  intro hm
  have := hp.bitmapAfter
  have := hp.dataAfter
  have := hb.1
  have := hm.2
  omega

end

section

variable {sb : Superblock} (hl : Layout sb)
include hl

theorem entryBlockOffset_mem {idx : UInt32} (hi : idx.toNat < sb.totalEntries.toNat) :
    entryBlockOffset sb idx ∈ sb.tableRegion := hl.tableFits.blockOffset_mem hi

theorem entryAt_congr {disk disk' : Disk} (h : ∀ b ∈ sb.tableRegion, disk' b = disk b) {idx : UInt32}
    (hi : idx.toNat < sb.totalEntries.toNat) : entryAt disk' sb idx = entryAt disk sb idx := by
  unfold entryAt
  rw [h _ (entryBlockOffset_mem hl hi)]

theorem table_not_bitmap {b : UInt32} (hb : b ∈ sb.tableRegion) : b ∉ sb.bitmapRegion := by
  intro hm
  have := hl.bitmapAfter
  have := hb.2
  have := hm.1
  omega

theorem data_not_table {b : UInt32} (hb : sb.IsData b) : b ∉ sb.tableRegion := hl.placed.data_not_table hb

theorem data_not_bitmap {b : UInt32} (hb : sb.IsData b) : b ∉ sb.bitmapRegion := by
  intro hm
  have := hl.dataAfter
  have := hb.1
  have := hm.2
  omega

end

/-- 表の一つの記録だけが変わった。 -/
structure Recorded (v v' : Vol) (idx : UInt32) (e : Entry) : Prop where
  inTable : idx.toNat < v.sb.totalEntries.toNat
  sb : v'.sb = v.sb
  dev : v.dev.Evolves v.sb.tableRegion v'.dev
  logged : v'.dev.trail = v'.dev.disk :: v.dev.trail
  table : ∀ j : UInt32, j.toNat < v.sb.totalEntries.toNat →
    entryAt v'.dev.disk v.sb j = if j = idx then e else entryAt v.dev.disk v.sb j

section

variable {v : Vol} (hl : Placed v.sb)
include hl

theorem entryRead_spec (idx : UInt32) :
    wp (entryRead idx)
      (fun e v' => idx.toNat < v.sb.totalEntries.toNat ∧ e = entryAt v.dev.disk v.sb idx ∧
        (e.entryType ≠ 0 → entryVerifyChecksum e = true) ∧ Still v v')
      (fun e v' => Still v v' ∧
        ((e = .notFound ∧ ¬ idx.toNat < v.sb.totalEntries.toNat) ∨
          (e = .checksumMismatch ∧ idx.toNat < v.sb.totalEntries.toNat ∧
            (entryAt v.dev.disk v.sb idx).entryType ≠ 0 ∧
            entryVerifyChecksum (entryAt v.dev.disk v.sb idx) = false) ∨
          (e = .io ∧ ¬ (v.dev.FaultFree ∧ Serves v.dev.toHtlConfig v.sb)))) v := by
  unfold entryRead
  simp only [wp_bind, wp_get, wp_failIf]
  refine ⟨fun h => ⟨refl_of Still v, .inl ⟨trivial, ?_⟩⟩, fun h => ?_⟩
  · have := UInt32.le_iff_toNat_le.mp h
    omega
  · have hi : idx.toNat < v.sb.totalEntries.toNat := by
      rw [ge_iff_le, UInt32.not_le] at h
      exact UInt32.lt_iff_toNat_lt.mp h
    refine wp_readBlk (fun c _ => ?_)
      (fun c hf => ⟨⟨c, rfl⟩, .inr (.inr ⟨rfl, fun h => hf ⟨h.1, (h.2.table hl hi).toReads⟩⟩)⟩)
    simp only [wp_pure, Bool.not_eq_true', not_and, Bool.not_eq_false]
    exact ⟨fun h => ⟨⟨c, rfl⟩, .inr (.inl ⟨trivial, hi, h⟩)⟩, fun h => ⟨hi, rfl, h, c, rfl⟩⟩

end

/-- 項目の書き込みは、検査値を付けて、表のその記録だけを書き換える。 -/
theorem entryWrite_spec {s : EntryState} (hl : Placed s.vol.sb) (idx : UInt32) :
    wp (entryWrite idx)
      (fun _ s' => s'.entry = s.entry.sealed ∧ Recorded s.vol s'.vol idx s.entry.sealed)
      (fun e s' => Still s.vol s'.vol ∧ (s'.entry = s.entry ∨ s'.entry = s.entry.sealed) ∧
        ((e = .notFound ∧ ¬ idx.toNat < s.vol.sb.totalEntries.toNat) ∨ volumeWritable s.vol.sb = .error e ∨
          (DeviceErr e ∧ ¬ (s.vol.dev.FaultFree ∧ Serves s.vol.dev.toHtlConfig s.vol.sb)))) s := by
  unfold entryWrite
  simp only [wp_bind, wp_get, wp_failIf, wp_ofExcept]
  refine ⟨fun h => ⟨refl_of Still s.vol, .inl trivial, .inl ⟨trivial, ?_⟩⟩, fun h => ⟨fun _ _ => ?_, fun e he =>
    ⟨refl_of Still s.vol, .inl trivial, .inr (.inl he)⟩⟩⟩
  · have := UInt32.le_iff_toNat_le.mp h
    omega
  · have hi : idx.toNat < s.vol.sb.totalEntries.toNat := by
      rw [ge_iff_le, UInt32.not_le] at h
      exact UInt32.lt_iff_toNat_lt.mp h
    rw [wp_onVol]
    refine wp_readBlk (fun c _ => ?_) (fun c hf => ?_)
    · rw [wp_modifyEntry, wp_onVol]
      refine wp_writeBlk (fun c' _ => ⟨rfl, hi, rfl, .store (hl.tableFits.blockOffset_mem hi), rfl, ?_⟩)
        (fun e c' he hf => ?_)
      · intro j hj
        exact hl.tableFits.entryAt_update hi hj s.entry.sealed
      · exact ⟨⟨c', rfl⟩, .inr rfl, .inr (.inr ⟨he, fun hs => hf ⟨hs.1, hs.2.table hl hi⟩⟩)⟩
    · exact ⟨⟨c, rfl⟩, .inl rfl, .inr (.inr ⟨.inl rfl, fun hs => hf ⟨hs.1, (hs.2.table hl hi).toReads⟩⟩)⟩

end OwStorage.Usfs
