import OwStorage.Common.Lemmas.Checksum
import OwStorage.Owfs.Theorems.SyncChecksum
import OwStorage.Usfs.Lemmas.Format

/-!
# 検査値の代数

CRC32c は、続いた 4 バイトまでの違いを必ず見つける。ブロックごとに求めた検査値は、つないだ列の検査値に等しい。
-/

namespace OwStorage

open Lib Prog

/-! ## 続いた 4 バイトまでの違い -/

/-- 位置 `p` から 4 バイトの窓の外では、二つの列は同じである。 -/
def AgreeOutside (x y : List UInt8) (p : Nat) : Prop := ∀ i, i < p ∨ p + 4 ≤ i → x[i]? = y[i]?

/-- 検査値の欄のバイトを 0 にした列。 -/
def zeroedField (data : List UInt8) (off : Nat) : List UInt8 :=
  data.mapIdx fun i b => if off ≤ i ∧ i < off + 4 then 0 else b

section

variable {x y : List UInt8} {p off : Nat}

theorem AgreeOutside.parts (hlen : x.length = y.length) (h : AgreeOutside x y p) :
    ∃ pre w w' post, x = pre ++ (w ++ post) ∧ y = pre ++ (w' ++ post) ∧ w.length = w'.length ∧ w.length ≤ 4 := by
  have hpre : x.take p = y.take p := by
    apply List.ext_getElem?
    intro i
    rw [List.getElem?_take, List.getElem?_take]
    split
    · exact h i (.inl ‹_›)
    · rfl
  have hpost : (x.drop p).drop 4 = (y.drop p).drop 4 := by
    apply List.ext_getElem?
    intro i
    simp only [List.drop_drop, List.getElem?_drop]
    exact h _ (.inr (by omega))
  refine ⟨x.take p, (x.drop p).take 4, (y.drop p).take 4, (x.drop p).drop 4, ?_, ?_, ?_, ?_⟩
  · rw [List.take_append_drop, List.take_append_drop]
  · rw [hpre, hpost, List.take_append_drop, List.take_append_drop]
  · simp only [List.length_take, List.length_drop, hlen]
  · exact List.length_take_le _ _

theorem owCrc32c_burst (hlen : x.length = y.length) (hne : x ≠ y) (h : AgreeOutside x y p) (initial : UInt32) :
    owCrc32c initial x ≠ owCrc32c initial y := by
  obtain ⟨pre, w, w', post, rfl, rfl, hw, hle⟩ := h.parts hlen
  have hww : w ≠ w' := fun heq => hne (by rw [heq])
  rw [owCrc32c_eq, owCrc32c_eq]
  intro heq
  exact crc_burst (by decide) hw (hw ▸ hle) hww _ (UInt32.not_inj.mp heq)

theorem maskField_eq (data : List UInt8) (off : Nat) : maskField off data 0 = zeroedField data off := by
  unfold maskField zeroedField
  rw [List.mapIdx_eq_zipIdx_map]

theorem owCrc32cStruct_zeroed (data : List UInt8) (off : Nat) :
    owCrc32cStruct data off = owCrc32c 0 (zeroedField data off) := by
  rw [owCrc32cStruct_eq, owCrc32c_eq, maskField_eq]
  rfl

/-- 続いた 4 バイトまでの違いは、初期値を問わず CRC32c を変え、欄の外の違いは記録の検査値も変える。 -/
theorem crc32c_detects_burst (hlen : x.length = y.length) (hne : x ≠ y) (h : AgreeOutside x y p) :
    (∀ initial, owCrc32c initial x ≠ owCrc32c initial y) ∧
    ∀ off, (∀ i, off ≤ i → i < off + 4 → x[i]? = y[i]?) → owCrc32cStruct x off ≠ owCrc32cStruct y off := by
  refine ⟨owCrc32c_burst hlen hne h, fun off hfield => ?_⟩
  have hget : ∀ (l : List UInt8) i, (zeroedField l off)[i]? = l[i]?.map fun b =>
    if off ≤ i ∧ i < off + 4 then 0 else b := by
    intro l i
    unfold zeroedField
    rw [List.getElem?_mapIdx]
  rw [owCrc32cStruct_zeroed, owCrc32cStruct_zeroed]
  refine owCrc32c_burst (p := p) ?_ ?_ ?_ 0
  · unfold zeroedField
    rw [List.length_mapIdx, List.length_mapIdx, hlen]
  · intro heq
    apply hne
    apply List.ext_getElem?
    intro i
    by_cases hi : off ≤ i ∧ i < off + 4
    · exact hfield i hi.1 hi.2
    · have hbyte := congrArg (·[i]?) heq
      rw [hget, hget] at hbyte
      simpa [hi] using hbyte
  · intro i hi
    rw [hget, hget, h i hi]

/-- 一つのバイトの違い。 -/
theorem crc32c_detects_bit : owCrc32cStruct [1, 0, 0, 0, 0, 0, 0, 0] 4 ≠ owCrc32cStruct [0, 0, 0, 0, 0, 0, 0, 0] 4 :=
  (crc32c_detects_burst (x := [1, 0, 0, 0, 0, 0, 0, 0]) (y := [0, 0, 0, 0, 0, 0, 0, 0]) (p := 0) rfl (by decide)
    (by
      rintro i (hi | hi)
      · exact absurd hi (Nat.not_lt_zero i)
      · cases i with
        | zero => omega
        | succ i => rfl)).2 4 (by
      intro i hlo _
      cases i with
      | zero => omega
      | succ i => rfl)

end

/-! ## ブロックごとの検査値 -/

/-- 第 `start` ブロックから `n` ブロックをつないだ列。 -/
def blockBytes (disk : Disk) (start : UInt32) (n : Nat) : List UInt8 :=
  (List.range n).flatMap fun q => (disk (start + UInt32.ofNat q)).toList

/-- 第 `start` ブロックから `n` ブロックがどれも装置にある。 -/
def ServesBlocks (d : HtlDevice) (start : UInt32) (n : Nat) : Prop := ∀ q < n, d.Reads (start + UInt32.ofNat q)

theorem usfs_bitmapFletcher_eq (disk : Disk) (sb : Usfs.Superblock) :
    Usfs.bitmapFletcher disk sb = owFletcher64 (blockBytes disk sb.bitmapStartBlock sb.bitmapBlockCount.toNat) := by
  unfold owFletcher64 blockBytes
  rw [fletcherWords_flatMap fun q => disk (sb.bitmapStartBlock + UInt32.ofNat q)]
  rfl

theorem usfs_tableCrc_eq (disk : Disk) (sb : Usfs.Superblock) (q : Nat) :
    Usfs.tableCrc disk sb q = owCrc32c 0 (blockBytes disk sb.entryTableStart q) := by
  induction q with
  | zero => exact (owCrc32c_nil 0).symm
  | succ q ih =>
      have hsplit : blockBytes disk sb.entryTableStart (q + 1) = blockBytes disk sb.entryTableStart q ++
          (disk (sb.entryTableStart + UInt32.ofNat q)).toList := by
        unfold blockBytes
        rw [List.range_succ, List.flatMap_append, List.flatMap_singleton]
      rw [hsplit, owCrc32c_append, ← ih]
      unfold Usfs.tableCrc
      rw [List.range_succ, List.foldl_append]
      rfl

/-- 二つのビットマップの検査値と、表の署名と、記録の検査値は、列の全体から求めたものに等しい。 -/
theorem checksums_of_whole :
    (∀ v : Owfs.Vol, v.dev.FaultFree → ServesBlocks v.dev v.sb.bitmapStartBlock v.sb.bitmapBlockCount.toNat →
      (Owfs.bitmapComputeFletcher64 v).1 =
        .ok (owFletcher64 (blockBytes v.dev.disk v.sb.bitmapStartBlock v.sb.bitmapBlockCount.toNat))) ∧
    (∀ v : Usfs.Vol, v.dev.FaultFree → ServesBlocks v.dev v.sb.bitmapStartBlock v.sb.bitmapBlockCount.toNat →
      (Usfs.bitmapComputeFletcher64 v).1 =
        .ok (owFletcher64 (blockBytes v.dev.disk v.sb.bitmapStartBlock v.sb.bitmapBlockCount.toNat))) ∧
    (∀ v : Usfs.Vol, v.dev.FaultFree → ServesBlocks v.dev v.sb.entryTableStart v.sb.entryTableBlocks.toNat →
      (Usfs.signatureCompute v).1 =
        .ok (owCrc32c 0 (blockBytes v.dev.disk v.sb.entryTableStart v.sb.entryTableBlocks.toNat))) ∧
    ∀ data off, owCrc32cStruct data off = owCrc32c 0 (zeroedField data off) := by
  refine ⟨fun v hf hs => ?_, fun v hf hs => ?_, fun v hf hs => ?_, owCrc32cStruct_zeroed⟩
  · obtain ⟨sum, v', hrun, _, hrep⟩ := (Owfs.bitmapComputeFletcher64_reports v).exists_ok
    rw [hrun]
    rcases hrep with ⟨_, rfl⟩ | ⟨⟨q, hq, hno⟩, _⟩
    · exact congrArg Except.ok (Owfs.bitmapFletcher_eq _ _)
    · exact absurd ⟨hs q hq, hf _⟩ hno
  · obtain ⟨sum, v', hrun, hsum, _⟩ := (Usfs.bitmapComputeFletcher64_loads hf hs).exists_ok
    rw [hrun, hsum, usfs_bitmapFletcher_eq]
  · obtain ⟨sig, v', hrun, hsig, _⟩ := (Usfs.signatureCompute_loads hf hs).exists_ok
    rw [hrun, hsig]
    exact congrArg Except.ok (usfs_tableCrc_eq _ _ _)

/-- フォーマットした小さなボリュームのビットマップ。 -/
theorem bitmap_checksum_of_formatted : (Owfs.bitmapComputeFletcher64 Owfs.formattedVolume).1 =
    .ok (owFletcher64 (blockBytes Owfs.formattedVolume.dev.disk Owfs.formattedVolume.sb.bitmapStartBlock
      Owfs.formattedVolume.sb.bitmapBlockCount.toNat)) := by
  have hready := Owfs.formatted_formattedVolume.1.ready Owfs.faultFree_formattedVolume
  exact checksums_of_whole.1 _ Owfs.faultFree_formattedVolume fun q hq =>
    (hready.serves.bitmap hready.sound.layout (Owfs.bitmapStart_add_mem hready.sound.layout hq)).toReads

end OwStorage
