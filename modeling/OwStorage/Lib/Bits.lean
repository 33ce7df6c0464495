import OwStorage.Lib.Bytes
import Mathlib.Data.Nat.Bitwise

/-!
# バイトの並びをビットの並びとして扱う

第 `r` ビットは、第 `r / 8` バイトの下から `r % 8` 番目のビットである。
-/

namespace OwStorage.Lib

/-- C の `b & (1U << k)` が 0 でないか。 -/
def bitSet (b : UInt8) (k : Nat) : Bool := b &&& (1 <<< UInt8.ofNat k) != 0

namespace Bytes

variable {n : Nat}

/-- 第 `i` バイトの第 `k` ビット。 -/
def testBit (buf : Bytes n) (i k : Nat) : Bool := bitSet (buf[i]?.getD 0) k

/-- 第 `i` バイトの第 `k` ビットを `used` にする。 -/
def setBit (buf : Bytes n) (i k : Nat) (used : Bool) : Bytes n :=
  if used then buf.setIfInBounds i (buf[i]?.getD 0 ||| (1 <<< UInt8.ofNat k))
  else buf.setIfInBounds i (buf[i]?.getD 0 &&& ~~~ (1 <<< UInt8.ofNat k))

/-- 通し番号 `r` のビット。 -/
def bitAt (buf : Bytes n) (r : Nat) : Bool := buf.testBit (r / 8) (r % 8)

end Bytes

/-! ## 一バイトの中のビット -/

theorem toNat_one_shiftLeft {k : Nat} (hk : k < 8) : (1 <<< UInt8.ofNat k : UInt8).toNat = 2 ^ k := by
  have hmod : k % 256 % 8 = k := by omega
  have hlt : 2 ^ k < 256 := by interval_cases k <;> decide
  simp [UInt8.toNat_shiftLeft, hmod, Nat.shiftLeft_eq, Nat.mod_eq_of_lt hlt]

theorem bitSet_eq_testBit (b : UInt8) {k : Nat} (hk : k < 8) : bitSet b k = b.toNat.testBit k := by
  have hzero : (b &&& (1 <<< UInt8.ofNat k)) = 0 ↔ b.toNat.testBit k = false := by
    rw [← UInt8.toNat_inj, UInt8.toNat_and, toNat_one_shiftLeft hk, Nat.and_two_pow]
    cases b.toNat.testBit k <;> simp
  unfold bitSet
  cases hb : b.toNat.testBit k
  · simp [hzero.mpr hb]
  · simp only [bne_iff_ne, ne_eq]
    intro h'
    rw [hzero.mp h'] at hb
    cases hb

theorem bitSet_zero (k : Nat) : bitSet 0 k = false := by simp [bitSet]

/-- ビットがどれも同じバイトは等しい。 -/
theorem eq_of_bitSet {a b : UInt8} (h : ∀ k < 8, bitSet a k = bitSet b k) : a = b := by
  apply UInt8.toNat_inj.mp
  apply Nat.eq_of_testBit_eq
  intro k
  by_cases hk : k < 8
  · rw [← bitSet_eq_testBit a hk, ← bitSet_eq_testBit b hk, h k hk]
  · have hlt : ∀ x : UInt8, x.toNat < 2 ^ k := fun x =>
      lt_of_lt_of_le x.toNat_lt (Nat.pow_le_pow_right (by decide) (by omega))
    rw [Nat.testBit_lt_two_pow (hlt a), Nat.testBit_lt_two_pow (hlt b)]

theorem bitSet_or (b : UInt8) {k j : Nat} (hk : k < 8) (hj : j < 8) :
    bitSet (b ||| (1 <<< UInt8.ofNat k)) j = (bitSet b j || decide (k = j)) := by
  rw [bitSet_eq_testBit _ hj, bitSet_eq_testBit _ hj, UInt8.toNat_or, Nat.testBit_or,
    toNat_one_shiftLeft hk, Nat.testBit_two_pow]

theorem bitSet_and_not (b : UInt8) {k j : Nat} (hk : k < 8) (hj : j < 8) :
    bitSet (b &&& ~~~ (1 <<< UInt8.ofNat k)) j = (bitSet b j && ! decide (k = j)) := by
  have hlt : 2 ^ k < 256 := by interval_cases k <;> decide
  rw [bitSet_eq_testBit _ hj, bitSet_eq_testBit _ hj, UInt8.toNat_and, Nat.testBit_and, UInt8.toNat_not,
    toNat_one_shiftLeft hk, show UInt8.size - 1 - 2 ^ k = 2 ^ 8 - (2 ^ k + 1) by simp [UInt8.size],
    Nat.testBit_two_pow_sub_succ (by omega), Nat.testBit_two_pow]
  simp [hj]

/-! ## ビットの並び -/

namespace Bytes

variable {n : Nat}

theorem testBit_setBit (buf : Bytes n) {i k j m : Nat} {used : Bool} (hi : i < n) (hk : k < 8)
    (hm : m < 8) :
    (buf.setBit i k used).testBit j m = if i = j ∧ k = m then used else buf.testBit j m := by
  unfold setBit testBit
  by_cases hij : i = j
  · subst hij
    cases used with
    | true =>
        simp only [↓reduceIte, Vector.getElem?_setIfInBounds_self_of_lt hi, Option.getD_some,
          bitSet_or _ hk hm]
        by_cases hkm : k = m <;> simp [hkm]
    | false =>
        simp only [Bool.false_eq_true, ↓reduceIte, Vector.getElem?_setIfInBounds_self_of_lt hi,
          Option.getD_some, bitSet_and_not _ hk hm]
        by_cases hkm : k = m <;> simp [hkm]
  · cases used <;> simp [hij]

theorem bitAt_setBit (buf : Bytes n) {i k r : Nat} {used : Bool} (hi : i < n) (hk : k < 8) :
    (buf.setBit i k used).bitAt r = if r = i * 8 + k then used else buf.bitAt r := by
  unfold bitAt
  rw [testBit_setBit buf hi hk (Nat.mod_lt _ (by decide))]
  by_cases h : r = i * 8 + k
  · rw [if_pos (by omega), if_pos h]
  · rw [if_neg (by omega), if_neg h]

theorem eq_of_bitAt {a b : Bytes n} (h : ∀ r, r < n * 8 → a.bitAt r = b.bitAt r) : a = b := by
  refine Vector.ext fun i hi => eq_of_bitSet fun k hk => ?_
  have hbit := h (i * 8 + k) (by omega)
  unfold bitAt testBit at hbit
  rw [show (i * 8 + k) / 8 = i by omega, show (i * 8 + k) % 8 = k by omega, Vector.getElem?_eq_getElem hi,
    Vector.getElem?_eq_getElem hi] at hbit
  exact hbit

theorem bitAt_zero (r : Nat) : (zero n).bitAt r = false := by
  unfold bitAt testBit
  by_cases h : r / 8 < n
  · rw [Vector.getElem?_eq_getElem h, getElem_zero, Option.getD_some, bitSet_zero]
  · rw [Vector.getElem?_eq_none (by omega), Option.getD_none, bitSet_zero]

end Bytes

end OwStorage.Lib
