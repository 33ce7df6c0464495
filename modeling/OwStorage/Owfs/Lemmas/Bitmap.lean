import OwStorage.Owfs.Lemmas.Superblock
import OwStorage.Owfs.Lemmas.Sync
import OwStorage.Owfs.Bitmap
import OwStorage.Lib.Count

/-!
# 空きブロックの勘定

四つの関数は同じビットを別の式で指す。ここでは通し番号 `r` のビット `bitOf` に直し、空きの数との一致を保つことを
それぞれの関数について一度ずつ示す。
-/

namespace OwStorage.Owfs

open Lib Prog

/-! ## 配置 -/

/-- 領域の並びと大きさの条件。 -/
structure Layout (sb : Superblock) : Prop where
  bitmapAfter : 16 < sb.bitmapStartBlock.toNat
  tableAfter : sb.bitmapStartBlock.toNat + sb.bitmapBlockCount.toNat ≤ sb.inodeTableStart.toNat
  dataAfter : sb.inodeTableStart.toNat + sb.inodeTableBlocks.toNat ≤ sb.dataRegionStart.toNat
  dataNonempty : sb.dataRegionStart.toNat < sb.totalBlocks.toNat
  inodesFit : sb.totalInodes.toNat ≤ 16 * sb.inodeTableBlocks.toNat
  bitmapCovers : sb.totalBlocks.toNat - sb.dataRegionStart.toNat ≤ sb.bitmapBlockCount.toNat * 32768
  bitmapSmall : sb.bitmapBlockCount.toNat * 32768 ≤ 2 ^ 32

/-- データ領域のブロック。 -/
def Superblock.IsData (sb : Superblock) (b : UInt32) : Prop :=
  sb.dataRegionStart.toNat ≤ b.toNat ∧ b.toNat < sb.totalBlocks.toNat

def Superblock.dataCount (sb : Superblock) : Nat := sb.totalBlocks.toNat - sb.dataRegionStart.toNat

/-- データ領域の中での番号。 -/
def Superblock.relOf (sb : Superblock) (b : UInt32) : Nat := b.toNat - sb.dataRegionStart.toNat

/-- ビットマップのブロック。 -/
def Superblock.bitmapRegion (sb : Superblock) : Set UInt32 :=
  { b | sb.bitmapStartBlock.toNat ≤ b.toNat ∧
    b.toNat < sb.bitmapStartBlock.toNat + sb.bitmapBlockCount.toNat }

/-- 番号 `r` のビットを含むビットマップのブロック。 -/
def Superblock.bitmapBlockOf (sb : Superblock) (r : Nat) : UInt32 :=
  sb.bitmapStartBlock + UInt32.ofNat (r / 32768)

/-- 番号 `r` のビット。 -/
def bitOf (disk : Disk) (sb : Superblock) (r : Nat) : Bool :=
  (disk (sb.bitmapBlockOf r)).bitAt (r % 32768)

/-- 使用中の印のあるデータブロック。 -/
def usedSet (disk : Disk) (sb : Superblock) : Set UInt32 :=
  { b | sb.IsData b ∧ bitOf disk sb (sb.relOf b) = true }

/-- 印のないデータブロックの数。 -/
def freeCount (disk : Disk) (sb : Superblock) : Nat :=
  Nat.count (fun r => bitOf disk sb r = false) sb.dataCount

/-- 空きの数の欄は、印のないデータブロックの数に等しい。 -/
def FreeExact (disk : Disk) (sb : Superblock) : Prop := sb.freeBlocks.toNat = freeCount disk sb

/-- ビットマップの前から `q` ブロック分の Fletcher-64 の途中の値。 -/
def bitmapSums (disk : Disk) (sb : Superblock) (q : Nat) : UInt64 × UInt64 :=
  (List.range q).foldl
    (fun s i => (fletcherWords (disk (sb.bitmapStartBlock + UInt32.ofNat i)).toList s).2) (0, 0)

/-- ビットマップの検査値。 -/
def bitmapFletcher (disk : Disk) (sb : Superblock) : UInt64 :=
  fletcherResult (bitmapSums disk sb sb.bitmapBlockCount.toNat)

section

variable {sb : Superblock} {disk : Disk} {b : UInt32} {r : Nat}

theorem Superblock.IsData.relOf_lt (h : sb.IsData b) : sb.relOf b < sb.dataCount := by
  unfold relOf dataCount
  have := h.1
  have := h.2
  omega

theorem relOf_inj {b' : UInt32} (h : sb.IsData b) (h' : sb.IsData b') (he : sb.relOf b = sb.relOf b') :
    b = b' := by
  apply UInt32.toNat_inj.mp
  unfold Superblock.relOf at he
  have := h.1
  have := h'.1
  omega

variable (hl : Layout sb)
include hl

theorem toNat_bitmapBlockOf (hr : r < sb.bitmapBlockCount.toNat * 32768) :
    (sb.bitmapBlockOf r).toNat = sb.bitmapStartBlock.toNat + r / 32768 := by
  have hq : r / 32768 < sb.bitmapBlockCount.toNat := Nat.div_lt_of_lt_mul (by omega)
  have := hl.tableAfter
  have := sb.inodeTableStart.toNat_lt
  unfold Superblock.bitmapBlockOf
  rw [toNat_add_lt (by rw [toNat_ofNat_lt (by omega)]; omega), toNat_ofNat_lt (by omega)]

theorem bitmapBlockOf_mem (hr : r < sb.bitmapBlockCount.toNat * 32768) :
    sb.bitmapBlockOf r ∈ sb.bitmapRegion := by
  have hq : r / 32768 < sb.bitmapBlockCount.toNat := Nat.div_lt_of_lt_mul (by omega)
  change _ ∧ _
  rw [toNat_bitmapBlockOf hl hr]
  omega

theorem bitOf_congr {disk' : Disk} (h : ∀ b ∈ sb.bitmapRegion, disk' b = disk b) (hr : r < sb.dataCount) :
    bitOf disk' sb r = bitOf disk sb r := by
  unfold bitOf
  rw [h _ (bitmapBlockOf_mem hl (by have := hl.bitmapCovers; unfold Superblock.dataCount at hr; omega))]

theorem usedSet_congr {disk' : Disk} (h : ∀ b ∈ sb.bitmapRegion, disk' b = disk b) :
    usedSet disk' sb = usedSet disk sb := by
  ext b
  exact and_congr_right fun hb => by rw [bitOf_congr hl h hb.relOf_lt]

theorem freeCount_congr {disk' : Disk} (h : ∀ b ∈ sb.bitmapRegion, disk' b = disk b) :
    freeCount disk' sb = freeCount disk sb := by
  unfold freeCount
  refine count_congr fun r hr => ?_
  rw [bitOf_congr hl h hr]

theorem bitmap_eq_of_bitOf {disk' : Disk}
    (h : ∀ r, r < sb.bitmapBlockCount.toNat * 32768 → bitOf disk' sb r = bitOf disk sb r) :
    ∀ x ∈ sb.bitmapRegion, disk' x = disk x := by
  intro x hx
  refine Bytes.eq_of_bitAt fun r hr => ?_
  have hq : (x.toNat - sb.bitmapStartBlock.toNat) * 32768 + r < sb.bitmapBlockCount.toNat * 32768 := by
    have := hx.1
    have := hx.2
    omega
  have hblk : sb.bitmapBlockOf ((x.toNat - sb.bitmapStartBlock.toNat) * 32768 + r) = x := by
    apply UInt32.toNat_inj.mp
    rw [toNat_bitmapBlockOf hl hq]
    have := hx.1
    omega
  have hbit := h _ hq
  unfold bitOf at hbit
  rw [hblk, show ((x.toNat - sb.bitmapStartBlock.toNat) * 32768 + r) % 32768 = r by omega] at hbit
  exact hbit

theorem bitOf_update {i k r' : Nat} {used : Bool} (hr : r < sb.bitmapBlockCount.toNat * 32768)
    (hr' : r' < sb.bitmapBlockCount.toNat * 32768) (hi : i < 4096) (hk : k < 8)
    (hik : r % 32768 = i * 8 + k) :
    bitOf (Function.update disk (sb.bitmapBlockOf r) ((disk (sb.bitmapBlockOf r)).setBit i k used)) sb r' =
      if r' = r then used else bitOf disk sb r' := by
  unfold bitOf
  by_cases hq : r' / 32768 = r / 32768
  · have hblk : sb.bitmapBlockOf r' = sb.bitmapBlockOf r := by
      unfold Superblock.bitmapBlockOf
      rw [hq]
    rw [hblk, Function.update_self, Bytes.bitAt_setBit _ hi hk, ← hik]
    by_cases he : r' = r
    · rw [if_pos (by rw [he]), if_pos he]
    · rw [if_neg (by omega), if_neg he]
  · have hblk : sb.bitmapBlockOf r' ≠ sb.bitmapBlockOf r := by
      intro he
      have := congrArg UInt32.toNat he
      rw [toNat_bitmapBlockOf hl hr, toNat_bitmapBlockOf hl hr'] at this
      omega
    rw [Function.update_of_ne hblk, if_neg (by rintro rfl; exact hq rfl)]

end

/-! ## 空きビットの探索 -/

theorem findClear_some {buf : Block} {i k : Nat} (h : findClear buf = some (i, k)) :
    i < 4096 ∧ k < 8 ∧ buf.bitAt (i * 8 + k) = false ∧ ∀ r, r < i * 8 + k → buf.bitAt r = true := by
  unfold findClear at h
  obtain ⟨i', hi', hfi, hbefore⟩ := findSome?_range h
  have hfull : ∀ j, j < i' → ∀ m, m < 8 → buf.testBit j m = true := by
    intro j hj m hm
    have hnone := hbefore j hj
    by_cases hff : buf[j]?.getD 0 = 0xFF
    · unfold Bytes.testBit
      rw [hff]
      interval_cases m <;> decide
    · rw [if_pos hff] at hnone
      have := findSome?_range_none hnone m hm
      by_contra hb
      simp [hb] at this
  split at hfi
  · obtain ⟨k', hk', hfk, hk_before⟩ := findSome?_range hfi
    by_cases hclear : buf.testBit i' k' = true
    · simp [hclear] at hfk
    · simp only [hclear, Bool.not_false, ↓reduceIte, Option.some.injEq, Prod.mk.injEq] at hfk
      obtain ⟨rfl, rfl⟩ := hfk
      refine ⟨hi', hk', ?_, fun r hr => ?_⟩
      · unfold Bytes.bitAt
        rw [show (i' * 8 + k') / 8 = i' by omega, show (i' * 8 + k') % 8 = k' by omega]
        exact Bool.eq_false_iff.mpr hclear
      · unfold Bytes.bitAt
        by_cases hri : r / 8 < i'
        · exact hfull _ hri _ (Nat.mod_lt _ (by decide))
        · have hq : r / 8 = i' := by omega
          rw [hq]
          by_contra hb
          have := hk_before (r % 8) (by omega)
          simp [hb] at this
  · cases hfi

theorem findClear_none {buf : Block} (h : findClear buf = none) (r : Nat) (hr : r < 32768) :
    buf.bitAt r = true := by
  unfold findClear at h
  have hnone := findSome?_range_none h (r / 8) (by omega)
  unfold Bytes.bitAt
  have hm : r % 8 < 8 := Nat.mod_lt _ (by decide)
  by_cases hff : buf[r / 8]?.getD 0 = 0xFF
  · unfold Bytes.testBit
    rw [hff]
    interval_cases r % 8 <;> decide
  · rw [if_pos hff] at hnone
    have := findSome?_range_none hnone (r % 8) hm
    by_contra hb
    simp [hb] at this

/-! ## 一つのビットの変化 -/

/-- ボリュームの全体を読み書きできる装置。 -/
structure Serves (c : HtlConfig) (sb : Superblock) : Prop where
  writes : ∀ b : UInt32, b.toNat < sb.totalBlocks.toNat → c.Writes b
  wholeBlocks : c.WholeBlocks

/-- データブロック `b` のビットだけが `used` に変わり、空きの数が合わせて変わった。 -/
structure Flipped (v v' : Vol) (b : UInt32) (used : Bool) : Prop where
  isData : v.sb.IsData b
  was : bitOf v.dev.disk v.sb (v.sb.relOf b) = ! used
  sb : v'.sb = { v.sb with freeBlocks := if used then v.sb.freeBlocks - 1 else v.sb.freeBlocks + 1 }
  dev : v.dev.Evolves v.sb.bitmapRegion v'.dev
  logged : v'.dev.trail = v'.dev.disk :: v.dev.trail
  bits : ∀ r, r < v.sb.dataCount →
    bitOf v'.dev.disk v.sb r = if r = v.sb.relOf b then used else bitOf v.dev.disk v.sb r
  whole : ∀ r, r < v.sb.bitmapBlockCount.toNat * 32768 →
    bitOf v'.dev.disk v.sb r = if r = v.sb.relOf b then used else bitOf v.dev.disk v.sb r

namespace Flipped

variable {v v' : Vol} {b : UInt32}

theorem ofBits {used : Bool} (hl : Layout v.sb) (hb : v.sb.IsData b)
    (hwas : bitOf v.dev.disk v.sb (v.sb.relOf b) = ! used)
    (hsb : v'.sb = { v.sb with freeBlocks := if used then v.sb.freeBlocks - 1 else v.sb.freeBlocks + 1 })
    (hdev : v.dev.Evolves v.sb.bitmapRegion v'.dev) (hlog : v'.dev.trail = v'.dev.disk :: v.dev.trail)
    (h : ∀ r, r < v.sb.bitmapBlockCount.toNat * 32768 →
      bitOf v'.dev.disk v.sb r = if r = v.sb.relOf b then used else bitOf v.dev.disk v.sb r) : Flipped v v' b used :=
  ⟨hb, hwas, hsb, hdev, hlog, fun r hr => h r (lt_of_lt_of_le hr hl.bitmapCovers), h⟩

theorem mem_usedSet {used : Bool} (h : Flipped v v' b used) {x : UInt32} (hx : v.sb.IsData x) :
    x ∈ usedSet v'.dev.disk v'.sb ↔ if x = b then used = true else x ∈ usedSet v.dev.disk v.sb := by
  have hgeo : x ∈ usedSet v'.dev.disk v'.sb ↔ bitOf v'.dev.disk v.sb (v.sb.relOf x) = true := by
    rw [h.sb]
    exact ⟨fun hm => hm.2, fun hm => ⟨hx, hm⟩⟩
  rw [hgeo, h.bits _ hx.relOf_lt]
  by_cases hxb : x = b
  · subst hxb
    simp
  · rw [if_neg hxb, if_neg fun he => hxb (relOf_inj hx h.isData he)]
    exact ⟨fun hm => ⟨hx, hm⟩, fun hm => hm.2⟩

theorem used_mono (h : Flipped v v' b true) {x : UInt32} (hx : x ∈ usedSet v.dev.disk v.sb) :
    x ∈ usedSet v'.dev.disk v'.sb := by
  rw [h.mem_usedSet hx.1]
  split
  · rfl
  · exact hx

theorem freeExact {used : Bool} (h : Flipped v v' b used) (hf : FreeExact v.dev.disk v.sb) :
    FreeExact v'.dev.disk v'.sb := by
  unfold FreeExact at hf ⊢
  have hr := h.isData.relOf_lt
  have hgeo : freeCount v'.dev.disk v'.sb = freeCount v'.dev.disk v.sb := by
    rw [h.sb]
    rfl
  have hself : bitOf v'.dev.disk v.sb (v.sb.relOf b) = used := by
    rw [h.bits _ hr, if_pos rfl]
  have hsame : ∀ r, r < v.sb.dataCount → r ≠ v.sb.relOf b →
      (bitOf v'.dev.disk v.sb r = false ↔ bitOf v.dev.disk v.sb r = false) := by
    intro r hlt hne
    rw [h.bits r hlt, if_neg hne]
  have hbound := Nat.count_le (p := fun r => bitOf v'.dev.disk v.sb r = false) (n := v.sb.dataCount)
  have hcount : v.sb.dataCount < 2 ^ 32 := lt_of_le_of_lt (Nat.sub_le _ _) v.sb.totalBlocks.toNat_lt
  rw [hgeo, h.sb]
  cases used with
  | true =>
      have hgain : freeCount v.dev.disk v.sb = freeCount v'.dev.disk v.sb + 1 :=
        count_of_gain hr (by simp [hself]) h.was fun x hx hne => (hsame x hx hne).symm
      simp only [↓reduceIte]
      rw [toNat_sub_le (by rw [hf, hgain]; exact Nat.le_add_left 1 _), hf, hgain]
      rfl
  | false =>
      have hgain : freeCount v'.dev.disk v.sb = freeCount v.dev.disk v.sb + 1 :=
        count_of_gain hr (by simp [h.was]) hself hsame
      simp only [Bool.false_eq_true, ↓reduceIte]
      rw [toNat_add_one_lt (by rw [hf, ← hgain]; exact lt_of_le_of_lt hbound hcount), hf, hgain]

end Flipped

/-! ## 割り当て -/

section

variable {v : Vol} (hl : Layout v.sb)
include hl

theorem toNat_relIndex {q i k : Nat} (hq : q < v.sb.bitmapBlockCount.toNat) (hi : i < 4096) (hk : k < 8) :
    (relIndex q i k).toNat = q * 32768 + i * 8 + k := by
  have := hl.bitmapSmall
  have hlt : q * 32768 + i * 8 + k < 2 ^ 32 := by omega
  unfold relIndex
  simp only [UInt32.toNat_add, UInt32.toNat_mul, UInt32.toNat_ofNat', UInt32.reduceToNat]
  omega

/-- ビットマップの第 `q` ブロックを装置が読み書きできる。 -/
theorem Serves.bitmap (hs : Serves v.dev.toHtlConfig v.sb) {b : UInt32} (hb : b ∈ v.sb.bitmapRegion) :
    v.dev.Writes b := by
  have := hl.tableAfter
  have := hl.dataAfter
  have := hl.dataNonempty
  exact hs.writes b (by have := hb.2; omega)

/-- 空きビットが見つかった後。データ領域の終わりを越えていれば、空きはない。 -/
theorem takeBit_spec {q i k c : Nat} (hq : q < v.sb.bitmapBlockCount.toNat) (hi : i < 4096) (hk : k < 8)
    (hclear : bitOf v.dev.disk v.sb (q * 32768 + i * 8 + k) = false)
    (hbelow : ∀ r, r < q * 32768 + i * 8 + k → bitOf v.dev.disk v.sb r = true) :
    wp (takeBit v.sb q (v.dev.disk (v.sb.bitmapStartBlock + UInt32.ofNat q)) i k)
      (fun b v' => Flipped v v' b true ∧
        ∀ b', v.sb.IsData b' → b'.toNat < b.toNat → b' ∈ usedSet v.dev.disk v.sb)
      (fun e v' => Still v v' ∧
        ((e = .noFreeBlocks ∧ ∀ b, v.sb.IsData b → b ∈ usedSet v.dev.disk v.sb) ∨
          (DeviceErr e ∧ ¬ (v.dev.FaultFree ∧ Serves v.dev.toHtlConfig v.sb)))) (v.atClock c) := by
  have hrel := toNat_relIndex hl hq hi hk
  have hne := hl.dataNonempty
  have htot := v.sb.totalBlocks.toNat_lt
  have hin : q * 32768 + i * 8 + k < v.sb.bitmapBlockCount.toNat * 32768 := by omega
  have hblk : v.sb.bitmapStartBlock + UInt32.ofNat q = v.sb.bitmapBlockOf (q * 32768 + i * 8 + k) := by
    unfold Superblock.bitmapBlockOf
    rw [show (q * 32768 + i * 8 + k) / 32768 = q by omega]
  have hmem := bitmapBlockOf_mem hl hin
  have hone : (1 : UInt32).toNat ≤ v.sb.totalBlocks.toNat := by simp; omega
  have hlast : (v.sb.totalBlocks - 1 - v.sb.dataRegionStart).toNat =
      v.sb.totalBlocks.toNat - 1 - v.sb.dataRegionStart.toNat := by
    rw [toNat_sub_le (by rw [toNat_sub_le hone]; simp; omega), toNat_sub_le hone]
    rfl
  unfold takeBit
  simp only [wp_bind, wp_failIf]
  refine ⟨fun hgt => ⟨⟨c, rfl⟩, .inl ⟨trivial, fun b hb => ⟨hb, hbelow _ ?_⟩⟩⟩, fun hle => ?_⟩
  · have hgt' := UInt32.lt_iff_toNat_lt.mp hgt
    have := hb.relOf_lt
    unfold Superblock.dataCount at this
    omega
  · have hle' : (relIndex q i k).toNat ≤ v.sb.totalBlocks.toNat - 1 - v.sb.dataRegionStart.toNat := by
      rw [← hlast]
      exact Nat.not_lt.mp fun h => hle (UInt32.lt_iff_toNat_lt.mpr h)
    have hb : (v.sb.dataRegionStart + relIndex q i k).toNat =
        v.sb.dataRegionStart.toNat + (relIndex q i k).toNat := toNat_add_lt (by omega)
    have hrelOf : v.sb.relOf (v.sb.dataRegionStart + relIndex q i k) = q * 32768 + i * 8 + k := by
      unfold Superblock.relOf
      omega
    rw [hblk]
    refine wp_writeBlk (fun c' _ => ⟨?_, fun b' hb' hlt => ⟨hb', hbelow _ ?_⟩⟩) (fun e c' hd hn => ?_)
    · refine .ofBits hl ⟨by omega, by omega⟩ ?_ rfl (.store hmem) rfl fun r hr => ?_
      · rw [hrelOf, hclear]
        rfl
      · rw [hrelOf]
        exact bitOf_update hl hin hr hi hk (by omega)
    · have := hb'.1
      unfold Superblock.relOf
      omega
    · exact ⟨⟨c', rfl⟩, .inr ⟨hd, fun h => hn ⟨h.1, h.2.bitmap hl hmem⟩⟩⟩

/-- 割り当ては、最も番号の小さい空きブロックのビットだけを立てる。 -/
theorem bitmapAlloc_spec :
    wp bitmapAlloc
      (fun b v' => Flipped v v' b true ∧
        ∀ b', v.sb.IsData b' → b'.toNat < b.toNat → b' ∈ usedSet v.dev.disk v.sb)
      (fun e v' => Still v v' ∧
        ((e = .noFreeBlocks ∧ (v.sb.freeBlocks = 0 ∨ ∀ b, v.sb.IsData b → b ∈ usedSet v.dev.disk v.sb)) ∨
          (DeviceErr e ∧ ¬ (v.dev.FaultFree ∧ Serves v.dev.toHtlConfig v.sb)))) v := by
  unfold bitmapAlloc
  simp only [wp_bind, wp_get, wp_failIf]
  refine ⟨fun hz => ⟨refl_of Still v, .inl ⟨trivial, .inl hz⟩⟩, fun hz => ?_⟩
  refine wp_loop (fun q _ v' => Still v v' ∧ ∀ r, r < q * 32768 → bitOf v.dev.disk v.sb r = true)
    ⟨refl_of Still v, fun r hr => absurd hr (by omega)⟩ ?_ ?_
  · rintro q _ _ hq ⟨⟨c, rfl⟩, hfull⟩
    have hsame : ∀ r, r / 32768 = q → bitOf v.dev.disk v.sb r =
        (v.dev.disk (v.sb.bitmapStartBlock + UInt32.ofNat q)).bitAt (r % 32768) := by
      rintro r rfl
      rfl
    have hmem : v.sb.bitmapStartBlock + UInt32.ofNat q ∈ v.sb.bitmapRegion := by
      have hmem := bitmapBlockOf_mem hl (r := q * 32768) (by omega)
      unfold Superblock.bitmapBlockOf at hmem
      rwa [Nat.mul_div_cancel _ (by decide)] at hmem
    rw [wp_bind]
    refine wp_readBlk (fun c' _ => ?_) (fun c' hn => ?_)
    · cases hfind : findClear ((v.atClock c).dev.disk (v.sb.bitmapStartBlock + UInt32.ofNat q)) with
      | none =>
          refine ⟨⟨c', rfl⟩, fun r hr => ?_⟩
          by_cases hlow : r < q * 32768
          · exact hfull r hlow
          · rw [hsame r (by omega)]
            exact findClear_none hfind _ (Nat.mod_lt _ (by decide))
      | some p =>
          obtain ⟨i, k⟩ := p
          obtain ⟨hi, hk, hclear, hbefore⟩ := findClear_some hfind
          have hbelow : ∀ r, r < q * 32768 + i * 8 + k → bitOf v.dev.disk v.sb r = true := by
            intro r hr
            by_cases hlow : r < q * 32768
            · exact hfull r hlow
            · rw [hsame r (by omega)]
              exact hbefore _ (by omega)
          have hat : bitOf v.dev.disk v.sb (q * 32768 + i * 8 + k) = false := by
            rw [hsame _ (by omega), show (q * 32768 + i * 8 + k) % 32768 = i * 8 + k by omega]
            exact hclear
          change wp (takeBit _ _ _ _ _ >>= _) _ _ _
          rw [wp_bind]
          refine (takeBit_spec hl hq hi hk hat hbelow).mono (fun b v' h => h) ?_
          rintro e v' ⟨hs, ⟨rfl, hall⟩ | hd⟩
          · exact ⟨hs, .inl ⟨rfl, .inr hall⟩⟩
          · exact ⟨hs, .inr hd⟩
    · exact ⟨⟨c', rfl⟩, .inr ⟨.inl rfl, fun h => hn ⟨h.1, (h.2.bitmap hl hmem).toReads⟩⟩⟩
  · rintro _ _ ⟨⟨c, rfl⟩, hfull⟩
    refine ⟨⟨c, rfl⟩, .inl ⟨rfl, .inr fun b hb => ⟨hb, hfull _ ?_⟩⟩⟩
    exact lt_of_lt_of_le hb.relOf_lt hl.bitmapCovers

/-! ## 解放と問い合わせ -/

omit hl in
theorem toNat_rel {b : UInt32} (hb : v.sb.IsData b) : (b - v.sb.dataRegionStart).toNat = v.sb.relOf b :=
  toNat_sub_le hb.1

omit hl in
theorem bitmapBlock_eq {b : UInt32} (hb : v.sb.IsData b) :
    v.sb.bitmapStartBlock + ((b - v.sb.dataRegionStart) >>> 3 >>> 12) =
      v.sb.bitmapBlockOf (v.sb.relOf b) := by
  unfold Superblock.bitmapBlockOf
  congr 1
  apply UInt32.toNat_inj.mp
  have hlt := (b - v.sb.dataRegionStart).toNat_lt
  rw [toNat_shiftRight_twelve, toNat_shiftRight_three, toNat_rel hb, toNat_ofNat_lt]
  · omega
  · rw [toNat_rel hb] at hlt
    omega

omit hl in
theorem testBit_eq_bitOf {b : UInt32} (hb : v.sb.IsData b) :
    (v.dev.disk (v.sb.bitmapBlockOf (v.sb.relOf b))).testBit
        ((b - v.sb.dataRegionStart) >>> 3 &&& 4095).toNat ((b - v.sb.dataRegionStart) &&& 7).toNat =
      bitOf v.dev.disk v.sb (v.sb.relOf b) := by
  unfold bitOf Bytes.bitAt
  rw [toNat_and_4095, toNat_and_seven, toNat_shiftRight_three, toNat_rel hb]
  congr 1 <;> omega

/-- データブロックの解放は、立っているそのビットだけを下ろす。ほかの番号は断る。 -/
theorem bitmapFree_spec (b : UInt32) :
    wp (bitmapFree b)
      (fun _ v' => v.sb.IsData b ∧ (Flipped v v' b false ∨ (b ∉ usedSet v.dev.disk v.sb ∧ Still v v')))
      (fun e v' => Still v v' ∧
        ((e = .invalidParam ∧ ¬ v.sb.IsData b) ∨
          (DeviceErr e ∧ ¬ (v.dev.FaultFree ∧ Serves v.dev.toHtlConfig v.sb)))) v := by
  have hne := hl.dataNonempty
  unfold bitmapFree
  simp only [wp_bind, wp_get, wp_failIf]
  refine ⟨fun hout => ⟨refl_of Still v, .inl ⟨trivial, fun hb => ?_⟩⟩, fun hin => ?_⟩
  · rcases hout with h | h
    · have := UInt32.lt_iff_toNat_lt.mp h
      have := hb.1
      omega
    · have := UInt32.le_iff_toNat_le.mp h
      have := hb.2
      omega
  · have hb : v.sb.IsData b := by
      rw [not_or, UInt32.not_lt, ge_iff_le, UInt32.not_le, UInt32.le_iff_toNat_le,
        UInt32.lt_iff_toNat_lt] at hin
      exact hin
    have hrange : v.sb.relOf b < v.sb.bitmapBlockCount.toNat * 32768 :=
      lt_of_lt_of_le hb.relOf_lt hl.bitmapCovers
    have hmem := bitmapBlockOf_mem hl hrange
    have hbound : bitmapBoundsOk v.sb (b - v.sb.dataRegionStart) = true := by
      have hone : (1 : UInt32).toNat ≤ v.sb.totalBlocks.toNat := by simp; omega
      have := hb.2
      unfold bitmapBoundsOk
      rw [decide_eq_true_eq, UInt32.le_iff_toNat_le, toNat_rel hb, toNat_sub_le, toNat_sub_le hone]
      · unfold Superblock.relOf
        simp only [UInt32.reduceToNat]
        omega
      · rw [toNat_sub_le hone]
        simp only [UInt32.reduceToNat]
        omega
    refine ⟨fun h => absurd h (by simp [hbound]), fun _ => ?_⟩
    rw [bitmapBlock_eq hb]
    refine wp_readBlk (fun c _ => ?_) (fun c hn => ?_)
    · simp only [wp_whenever, wp_bind, testBit_eq_bitOf hb]
      refine ⟨fun hset => ?_, fun hclear => ⟨hb, .inr ⟨fun hu => hclear hu.2, c, rfl⟩⟩⟩
      refine wp_writeBlk (fun c' _ => ⟨hb, .inl ?_⟩) (fun e c' hd hn => ?_)
      · refine .ofBits hl hb hset rfl (.store hmem) rfl fun r hr => ?_
        refine bitOf_update hl hrange hr ?_ ?_ ?_
        · rw [toNat_and_4095]
          exact Nat.mod_lt _ (by decide)
        · rw [toNat_and_seven]
          exact Nat.mod_lt _ (by decide)
        · rw [toNat_and_4095, toNat_and_seven, toNat_shiftRight_three, toNat_rel hb]
          omega
      · exact ⟨⟨c', rfl⟩, .inr ⟨hd, fun h => hn ⟨h.1, h.2.bitmap hl hmem⟩⟩⟩
    · exact ⟨⟨c, rfl⟩, .inr ⟨.inl rfl, fun h => hn ⟨h.1, (h.2.bitmap hl hmem).toReads⟩⟩⟩

/-- 失敗のない装置への問い合わせは、使用中のデータブロックだけを「使用中」とする。 -/
theorem bitmapIsUsed_spec (b : UInt32) (hf : v.dev.FaultFree) (hs : Serves v.dev.toHtlConfig v.sb) :
    wp (bitmapIsUsed b) (fun u v' => (u = true ↔ b ∈ usedSet v.dev.disk v.sb) ∧ Still v v')
      (fun _ _ => False) v := by
  unfold bitmapIsUsed
  simp only [wp_bind, wp_get, wp_ite]
  refine ⟨fun hout => ⟨⟨fun h => by simp at h, fun hu => ?_⟩, refl_of Still v⟩, fun hin => ?_⟩
  · rcases hout with h | h
    · have := UInt32.lt_iff_toNat_lt.mp h
      have := hu.1.1
      omega
    · have := UInt32.le_iff_toNat_le.mp h
      have := hu.1.2
      omega
  · have hb : v.sb.IsData b := by
      rw [not_or, UInt32.not_lt, ge_iff_le, UInt32.not_le, UInt32.le_iff_toNat_le,
        UInt32.lt_iff_toNat_lt] at hin
      exact hin
    have hmem := bitmapBlockOf_mem hl (lt_of_lt_of_le hb.relOf_lt hl.bitmapCovers)
    rw [bitmapBlock_eq hb, wp_attempt]
    refine wp_readBlk (fun c _ => ?_) (fun c hn => absurd ⟨hf, (hs.bitmap hl hmem).toReads⟩ hn)
    change (_ = true ↔ _) ∧ _
    rw [testBit_eq_bitOf hb]
    exact ⟨⟨fun h => ⟨hb, h⟩, fun h => h.2⟩, c, rfl⟩

/-! ## 全体を読む関数 -/

theorem bitmapStart_add_mem {q : Nat} (hq : q < v.sb.bitmapBlockCount.toNat) :
    v.sb.bitmapStartBlock + UInt32.ofNat q ∈ v.sb.bitmapRegion := by
  have hmem := bitmapBlockOf_mem hl (r := q * 32768) (by omega)
  unfold Superblock.bitmapBlockOf at hmem
  rwa [Nat.mul_div_cancel _ (by decide)] at hmem

theorem countFreeIn_eq {q : Nat} (hq : q < v.sb.bitmapBlockCount.toNat) :
    countFreeIn (v.sb.totalBlocks - v.sb.dataRegionStart) q
        (v.dev.disk (v.sb.bitmapStartBlock + UInt32.ofNat q)) =
      Nat.count (fun j => q * 32768 + j < v.sb.dataCount ∧ bitOf v.dev.disk v.sb (q * 32768 + j) = false)
        32768 := by
  have hne := hl.dataNonempty
  have hd : (v.sb.totalBlocks - v.sb.dataRegionStart).toNat = v.sb.dataCount := toNat_sub_le (by omega)
  have hbyte : ∀ i, i < 4096 →
      ((List.range 8).takeWhile fun k =>
          ! decide (relIndex q i k ≥ v.sb.totalBlocks - v.sb.dataRegionStart)).countP
        (fun k => ! (v.dev.disk (v.sb.bitmapStartBlock + UInt32.ofNat q)).testBit i k) =
      Nat.count (fun j => q * 32768 + (i * 8 + j) < v.sb.dataCount ∧
        bitOf v.dev.disk v.sb (q * 32768 + (i * 8 + j)) = false) 8 := by
    intro i hi
    -- 打ち切りの条件は、残りの幅との比較に等しい。
    have hcut : ∀ k, k < 8 →
        (! decide (relIndex q i k ≥ v.sb.totalBlocks - v.sb.dataRegionStart)) =
          decide (k < v.sb.dataCount - (q * 32768 + i * 8)) := by
      intro k hk
      have hrel := toNat_relIndex hl hq hi hk
      rw [← decide_not, decide_eq_decide, ge_iff_le, UInt32.le_iff_toNat_le, hd, hrel]
      omega
    rw [countP_takeWhile _ hcut]
    unfold Nat.count
    apply List.countP_congr
    intro k hk
    have hk8 := List.mem_range.mp hk
    have hbit : bitOf v.dev.disk v.sb (q * 32768 + (i * 8 + k)) =
        (v.dev.disk (v.sb.bitmapStartBlock + UInt32.ofNat q)).testBit i k := by
      unfold bitOf Superblock.bitmapBlockOf Bytes.bitAt
      rw [show (q * 32768 + (i * 8 + k)) / 32768 = q by omega,
        show (q * 32768 + (i * 8 + k)) % 32768 / 8 = i by omega,
        show (q * 32768 + (i * 8 + k)) % 32768 % 8 = k by omega]
    simp only [decide_eq_true_eq, hbit, Bool.not_eq_eq_eq_not, Bool.not_true]
    constructor <;> rintro ⟨hlt, hb⟩ <;> exact ⟨by omega, hb⟩
  have hmul := count_mul (p := fun j => q * 32768 + j < v.sb.dataCount ∧
    bitOf v.dev.disk v.sb (q * 32768 + j) = false) 8 4096
  simp only [Nat.reduceMul] at hmul
  rw [hmul]
  exact congrArg List.sum (List.map_congr_left fun i hi => hbyte i (List.mem_range.mp hi))

theorem bitmapCountFree_spec (hf : v.dev.FaultFree) (hs : Serves v.dev.toHtlConfig v.sb) :
    wp bitmapCountFree (fun n v' => n = UInt32.ofNat (freeCount v.dev.disk v.sb) ∧ Still v v')
      (fun _ _ => False) v := by
  unfold bitmapCountFree
  simp only [wp_bind, wp_get]
  refine wp_loop (fun q n v' => n = UInt32.ofNat (Nat.count (fun r => r < v.sb.dataCount ∧
    bitOf v.dev.disk v.sb r = false) (q * 32768)) ∧ Still v v') ⟨by simp, refl_of Still v⟩ ?_ ?_
  · rintro q n _ hq ⟨rfl, c, rfl⟩
    have hmem := bitmapStart_add_mem hl hq
    rw [wp_bind, wp_attempt]
    refine wp_readBlk (fun c' _ => ⟨?_, c', rfl⟩) (fun c' hn => absurd ⟨hf, (hs.bitmap hl hmem).toReads⟩ hn)
    rw [Nat.succ_mul, Nat.count_add, UInt32.ofNat_add, ← countFreeIn_eq hl hq]
    rfl
  · rintro n _ ⟨rfl, hstill⟩
    refine ⟨?_, hstill⟩
    rw [count_bounded (show v.sb.dataCount ≤ _ from hl.bitmapCovers)]
    rfl

theorem bitmapComputeFletcher64_spec (hf : v.dev.FaultFree) (hs : Serves v.dev.toHtlConfig v.sb) :
    wp bitmapComputeFletcher64 (fun sum v' => sum = bitmapFletcher v.dev.disk v.sb ∧ Still v v')
      (fun _ _ => False) v := by
  unfold bitmapComputeFletcher64
  simp only [wp_bind, wp_get]
  refine wp_loop (fun q s v' => s = bitmapSums v.dev.disk v.sb q ∧ Still v v')
    ⟨rfl, refl_of Still v⟩ ?_ ?_
  · rintro q s _ hq ⟨rfl, c, rfl⟩
    have hmem := bitmapStart_add_mem hl hq
    rw [wp_bind, wp_attempt]
    refine wp_readBlk (fun c' _ => ⟨?_, c', rfl⟩) (fun c' hn => absurd ⟨hf, (hs.bitmap hl hmem).toReads⟩ hn)
    unfold bitmapSums
    rw [List.range_succ, List.foldl_append]
    rfl
  · rintro s _ ⟨rfl, hstill⟩
    exact ⟨rfl, hstill⟩

theorem bitmapFletcher_congr {disk : Disk} (h : ∀ b ∈ v.sb.bitmapRegion, disk b = v.dev.disk b) :
    bitmapFletcher disk v.sb = bitmapFletcher v.dev.disk v.sb := by
  have hsums : ∀ q, q ≤ v.sb.bitmapBlockCount.toNat →
      bitmapSums disk v.sb q = bitmapSums v.dev.disk v.sb q := by
    intro q
    induction q with
    | zero => intro _; rfl
    | succ q ih =>
        intro hq
        have hi := ih (by omega)
        unfold bitmapSums at hi ⊢
        rw [List.range_succ, List.foldl_append, List.foldl_append, hi]
        simp only [List.foldl_cons, List.foldl_nil]
        rw [h _ (bitmapStart_add_mem hl (by omega))]
  unfold bitmapFletcher
  rw [hsums _ le_rfl]

end

end OwStorage.Owfs
