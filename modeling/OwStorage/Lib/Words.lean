import Mathlib.Tactic

/-!
# 32 ビットの語

ずらしとマスクを自然数の商と余りに直す等式と、旗のビットの性質である。
-/

namespace OwStorage.Lib

/-! ## 商と余り -/

section

variable (a : UInt32)

@[simp] theorem toNat_shiftRight_three : (a >>> 3).toNat = a.toNat / 8 := by
  simp [UInt32.toNat_shiftRight, Nat.shiftRight_eq_div_pow]

@[simp] theorem toNat_shiftRight_four : (a >>> 4).toNat = a.toNat / 16 := by
  simp [UInt32.toNat_shiftRight, Nat.shiftRight_eq_div_pow]

@[simp] theorem toNat_shiftRight_twelve : (a >>> 12).toNat = a.toNat / 4096 := by
  simp [UInt32.toNat_shiftRight, Nat.shiftRight_eq_div_pow]

@[simp] theorem toNat_and_seven : (a &&& 7).toNat = a.toNat % 8 := by
  rw [UInt32.toNat_and]
  exact Nat.and_two_pow_sub_one_eq_mod a.toNat 3

@[simp] theorem toNat_and_fifteen : (a &&& 15).toNat = a.toNat % 16 := by
  rw [UInt32.toNat_and]
  exact Nat.and_two_pow_sub_one_eq_mod a.toNat 4

@[simp] theorem toNat_and_4095 : (a &&& 4095).toNat = a.toNat % 4096 := by
  rw [UInt32.toNat_and]
  exact Nat.and_two_pow_sub_one_eq_mod a.toNat 12

end

theorem toNat_ofNat_lt {n : Nat} (h : n < 2 ^ 32) : (UInt32.ofNat n).toNat = n :=
  UInt32.toNat_ofNat_of_lt' h

theorem toNat_add_lt {a b : UInt32} (h : a.toNat + b.toNat < 2 ^ 32) :
    (a + b).toNat = a.toNat + b.toNat := by
  rw [UInt32.toNat_add, Nat.mod_eq_of_lt h]

theorem toNat_sub_le {a b : UInt32} (h : b.toNat ≤ a.toNat) : (a - b).toNat = a.toNat - b.toNat :=
  UInt32.toNat_sub_of_le a b (UInt32.le_iff_toNat_le.mpr h)

theorem toNat_add_one_lt {a : UInt32} (h : a.toNat + 1 < 2 ^ 32) : (a + 1).toNat = a.toNat + 1 :=
  toNat_add_lt h

/-- 大きいほうを `b` で切る式。 -/
theorem toNat_clamp {a b : UInt32} : (if a > b then b else a).toNat = min a.toNat b.toNat := by
  by_cases h : a > b
  · have := UInt32.lt_iff_toNat_lt.mp h
    rw [if_pos h]
    omega
  · have := UInt32.le_iff_toNat_le.mp (UInt32.not_lt.mp h)
    rw [if_neg h]
    omega

/-- 位置 `pos` から、残り `rest` バイトのうち一つのブロックに収まる長さ。 -/
theorem toNat_chunk (pos rest : UInt32) :
    (if rest > 4096 - (pos &&& 4095) then 4096 - (pos &&& 4095) else rest).toNat =
      min rest.toNat (4096 - pos.toNat % 4096) := by
  have hoff := toNat_and_4095 pos
  have hlt : pos.toNat % 4096 < 4096 := Nat.mod_lt _ (by decide)
  rw [toNat_clamp, toNat_sub_le (by rw [hoff]; exact hlt.le), hoff]
  rfl

theorem or_shiftLeft {a b i : Nat} (h : b < 2 ^ i) : b ||| (a <<< i) = b + a * 2 ^ i := by
  rw [Nat.or_comm, ← Nat.shiftLeft_add_eq_or_of_lt h, Nat.shiftLeft_eq, Nat.add_comm]

/-- 立てた旗は、立っている。 -/
theorem or_and_mask (a mask : UInt8) : (a ||| mask) &&& mask = mask := by
  apply UInt8.toBitVec_inj.mp
  ext i hi
  simp
  grind

theorem toNat_and_ff (a : UInt32) : (a &&& 0xFF).toUInt8.toNat = a.toNat % 256 := by
  have h := Nat.and_two_pow_sub_one_eq_mod a.toNat 8
  rw [UInt32.toNat_toUInt8, UInt32.toNat_and]
  simp only [Nat.reducePow, Nat.reduceSub] at h
  simp only [UInt32.reduceToNat, h]
  omega

/-! ## 旗 -/

section

variable {f m k a b : UInt32}

/-- 続けて引くことは、和を引くことに等しい。 -/
theorem sub_sub_words (a b c : UInt32) : a - b - c = a - (b + c) := by grind

theorem and_or_distrib : f &&& (a ||| b) = (f &&& a) ||| (f &&& b) := by
  apply UInt32.toBitVec_inj.mp
  ext i hi
  simp [Bool.and_or_distrib_left]

theorem or_and_distrib : (a ||| b) &&& f = (a &&& f) ||| (b &&& f) := by
  rw [UInt32.and_comm, and_or_distrib, UInt32.and_comm f a, UInt32.and_comm f b]

/-- どれかの旗が立っていることは、旗ごとに調べてよい。 -/
theorem and_or_ne_zero : f &&& (a ||| b) ≠ 0 ↔ f &&& a ≠ 0 ∨ f &&& b ≠ 0 := by
  rw [and_or_distrib, ne_eq, UInt32.or_eq_zero_iff]
  tauto

/-- 旗を立てても、立っていた旗は残る。 -/
theorem or_and_ne_zero : (f ||| m) &&& k ≠ 0 ↔ f &&& k ≠ 0 ∨ m &&& k ≠ 0 := by
  rw [or_and_distrib, ne_eq, UInt32.or_eq_zero_iff]
  tauto

/-- 旗を下ろしても、ほかの旗は残る。 -/
theorem and_not_and (h : ~~~ m &&& k = k) : f &&& ~~~ m &&& k = f &&& k := by
  rw [UInt32.and_assoc, h]

/-- 下ろした旗は立っていない。 -/
theorem and_not_and_eq_zero (h : ~~~ m &&& k = 0) : f &&& ~~~ m &&& k = 0 := by
  rw [UInt32.and_assoc, h, UInt32.and_zero]

end

end OwStorage.Lib
