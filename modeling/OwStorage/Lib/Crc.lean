import OwStorage.Lib.Bytes
import OwStorage.Lib.Words

/-!
# 巡回冗長検査

32 ビットの除算の一歩は排他的論理和と可換で、単射である。このため、最上位の項を持つ生成多項式では、
続いた 4 バイトまでの違いは必ず余りに現れる。
-/

namespace OwStorage.Lib

/-- 生成多項式 `poly` による一ビット分の除算。 -/
def crcBit (poly c : UInt32) : UInt32 := if c &&& 1 != 0 then (c >>> 1) ^^^ poly else c >>> 1

/-- 一バイト分の除算。 -/
def crcByte (poly c : UInt32) (byte : UInt8) : UInt32 := (crcBit poly)^[8] (c ^^^ byte.toUInt32)

section

variable {poly a b c : UInt32}

theorem toNat_and_one (a : UInt32) : (a &&& 1).toNat = a.toNat % 2 := by
  rw [UInt32.toNat_and]
  exact Nat.and_two_pow_sub_one_eq_mod a.toNat 1

theorem and_one_bne_zero (a : UInt32) : (a &&& 1 != 0) = decide (a.toNat % 2 = 1) := by
  have h : (a &&& 1 = 0) ↔ a.toNat % 2 = 0 := by
    rw [← UInt32.toNat_inj, toNat_and_one]
    rfl
  by_cases hz : a.toNat % 2 = 0
  · simp [h.mpr hz, hz]
  · have hne : a &&& 1 ≠ 0 := fun he => hz (h.mp he)
    have hodd : a.toNat % 2 = 1 := by omega
    rw [bne_iff_ne.mpr hne, decide_eq_true hodd]

theorem crcBit_odd (h : a.toNat % 2 = 1) : crcBit poly a = (a >>> 1) ^^^ poly := by
  unfold crcBit
  rw [and_one_bne_zero, if_pos (by simpa using h)]

theorem crcBit_even (h : a.toNat % 2 = 0) : crcBit poly a = a >>> 1 := by
  unfold crcBit
  rw [and_one_bne_zero, if_neg (by simp; omega)]

theorem toNat_xor_mod_two (a b : UInt32) : (a ^^^ b).toNat % 2 = (a.toNat + b.toNat) % 2 := by
  have hodd : (a ^^^ b).toNat % 2 = 1 ↔ ¬ (a.toNat % 2 = 1 ↔ b.toNat % 2 = 1) := by
    rw [UInt32.toNat_xor]
    exact Nat.xor_mod_two_eq_one
  omega

/-- 除算の一歩は、排他的論理和と可換である。 -/
theorem crcBit_xor (poly a b : UInt32) : crcBit poly (a ^^^ b) = crcBit poly a ^^^ crcBit poly b := by
  have hpar := toNat_xor_mod_two a b
  have hcancel : ∀ x y : UInt32, x ^^^ poly ^^^ (y ^^^ poly) = x ^^^ y := by
    intro x y
    rw [UInt32.xor_comm y poly, ← UInt32.xor_assoc, UInt32.xor_assoc x, UInt32.xor_self, UInt32.xor_zero]
  rcases Nat.mod_two_eq_zero_or_one a.toNat with ha | ha
  · rcases Nat.mod_two_eq_zero_or_one b.toNat with hb | hb
    · rw [crcBit_even ha, crcBit_even hb, crcBit_even (by omega), UInt32.shiftRight_xor]
    · rw [crcBit_even ha, crcBit_odd hb, crcBit_odd (by omega), UInt32.shiftRight_xor, UInt32.xor_assoc]
  · rcases Nat.mod_two_eq_zero_or_one b.toNat with hb | hb
    · rw [crcBit_odd ha, crcBit_even hb, crcBit_odd (by omega), UInt32.shiftRight_xor, UInt32.xor_assoc,
        UInt32.xor_assoc, UInt32.xor_comm poly]
    · rw [crcBit_odd ha, crcBit_odd hb, crcBit_even (by omega), UInt32.shiftRight_xor, hcancel]

theorem iterate_crcBit_xor (poly : UInt32) (k : Nat) : ∀ a b : UInt32,
    (crcBit poly)^[k] (a ^^^ b) = (crcBit poly)^[k] a ^^^ (crcBit poly)^[k] b := by
  induction k with
  | zero => intro a b; rfl
  | succ k ih =>
      intro a b
      simp only [Function.iterate_succ_apply, crcBit_xor, ih]

theorem toNat_shiftRight_one (a : UInt32) : (a >>> 1).toNat = a.toNat / 2 := by
  simp [UInt32.toNat_shiftRight, Nat.shiftRight_eq_div_pow]

/-- 最上位の項を持つ多項式では、除算の一歩で 0 になるのは 0 だけである。 -/
theorem crcBit_eq_zero (hpoly : 2 ^ 31 ≤ poly.toNat) (h : crcBit poly a = 0) : a = 0 := by
  have hlt := a.toNat_lt
  have hhalf := toNat_shiftRight_one a
  apply UInt32.toNat_inj.mp
  rcases Nat.mod_two_eq_zero_or_one a.toNat with ha | ha
  · rw [crcBit_even ha] at h
    rw [h] at hhalf
    have hz : (0 : UInt32).toNat = 0 := rfl
    omega
  · rw [crcBit_odd ha, UInt32.xor_eq_zero_iff] at h
    rw [h] at hhalf
    omega

theorem crcBit_injective (hpoly : 2 ^ 31 ≤ poly.toNat) : Function.Injective (crcBit poly) := by
  intro a b h
  have hzero : crcBit poly (a ^^^ b) = 0 := by rw [crcBit_xor, h, UInt32.xor_self]
  exact UInt32.xor_eq_zero_iff.mp (crcBit_eq_zero hpoly hzero)

theorem crcByte_injective (hpoly : 2 ^ 31 ≤ poly.toNat) (byte : UInt8) :
    Function.Injective fun c => crcByte poly c byte := by
  intro a b h
  have hxor := (crcBit_injective hpoly).iterate 8 h
  exact (UInt32.xor_left_inj byte.toUInt32).mp hxor

/-- 下の `k` 桁が 0 の値は、`k` 歩で下へずれるだけである。 -/
theorem iterate_crcBit_mul (poly : UInt32) (k : Nat) : ∀ a : UInt32, ∀ m : Nat, a.toNat = m * 2 ^ k →
    ((crcBit poly)^[k] a).toNat = m := by
  induction k with
  | zero =>
      intro a m h
      simpa using h
  | succ k ih =>
      intro a m h
      rw [Nat.pow_succ, ← Nat.mul_assoc] at h
      rw [Function.iterate_succ_apply, crcBit_even (by omega)]
      exact ih _ m (by rw [toNat_shiftRight_one]; omega)

/-! ## 続いた 4 バイトまでの違い -/

theorem add_mul_eq_xor {m r i : Nat} (h : r < 2 ^ i) : r + m * 2 ^ i = r ^^^ (m * 2 ^ i) := by
  apply Nat.eq_of_testBit_eq
  intro j
  have hsum := Nat.testBit_two_pow_mul_add m h j
  rw [Nat.mul_comm m, Nat.add_comm, hsum, Nat.testBit_xor, Nat.testBit_two_pow_mul]
  by_cases hj : j < i
  · have hno : ¬ i ≤ j := by omega
    simp [hj, hno]
  · have hle : i ≤ j := by omega
    have hr : r.testBit j = false := Nat.testBit_lt_two_pow (lt_of_lt_of_le h (Nat.pow_le_pow_right (by decide) hle))
    simp [hj, hr, hle]

/-- 4 バイトまでの並びは、下の桁から並べた語を一度に加えて除算するのと同じである。 -/
theorem foldl_crcByte (poly : UInt32) (w : List UInt8) : ∀ c : UInt32, w.length ≤ 4 →
    w.foldl (crcByte poly) c = (crcBit poly)^[8 * w.length] (c ^^^ UInt32.ofNat (Codec.leDec w)) := by
  induction w with
  | nil =>
      intro c _
      simp [Codec.leDec]
  | cons byte w ih =>
      intro c hw
      simp only [List.length_cons] at hw
      have hlt := Codec.leDec_lt w
      have hpow : 256 ^ w.length ≤ 256 ^ 3 := Nat.pow_le_pow_right (by decide) (by omega)
      -- 続きの語は 8 桁上にあり、8 歩でちょうど下りてくる。
      have hword : UInt32.ofNat (Codec.leDec (byte :: w)) =
          byte.toUInt32 ^^^ UInt32.ofNat (Codec.leDec w * 2 ^ 8) := by
        have hbyte := byte.toNat_lt
        apply UInt32.toNat_inj.mp
        rw [Codec.leDec, toNat_ofNat_lt (by omega), UInt32.toNat_xor, UInt8.toNat_toUInt32, toNat_ofNat_lt (by omega),
          ← add_mul_eq_xor hbyte]
        omega
      have hdown : (crcBit poly)^[8] (UInt32.ofNat (Codec.leDec w * 2 ^ 8)) = UInt32.ofNat (Codec.leDec w) := by
        apply UInt32.toNat_inj.mp
        rw [iterate_crcBit_mul poly 8 _ (Codec.leDec w), toNat_ofNat_lt (by omega)]
        rw [toNat_ofNat_lt (by omega)]
      rw [List.foldl_cons, ih _ (by omega), List.length_cons, Nat.mul_succ, Function.iterate_add_apply, hword,
        ← UInt32.xor_assoc, iterate_crcBit_xor poly 8, hdown]
      rfl

theorem foldl_crcByte_ne (hpoly : 2 ^ 31 ≤ poly.toNat) {w w' : List UInt8} (hlen : w'.length = w.length)
    (hw : w.length ≤ 4) (hne : w' ≠ w) (c : UInt32) : w'.foldl (crcByte poly) c ≠ w.foldl (crcByte poly) c := by
  rw [foldl_crcByte poly w' c (by omega), foldl_crcByte poly w c hw, hlen]
  intro h
  have hword := (UInt32.xor_right_inj c).mp ((crcBit_injective hpoly).iterate _ h)
  have hpow : 256 ^ w.length ≤ 256 ^ 4 := Nat.pow_le_pow_right (by decide) hw
  have hlt := Codec.leDec_lt w
  have hlt' := Codec.leDec_lt w'
  rw [hlen] at hlt'
  have hdec : Codec.leDec w' = Codec.leDec w := by
    have h' := congrArg UInt32.toNat hword
    rwa [toNat_ofNat_lt (by omega), toNat_ofNat_lt (by omega)] at h'
  apply hne
  rw [← Codec.leEnc_leDec w', ← Codec.leEnc_leDec w, hlen, hdec]

theorem foldl_crcByte_injective (hpoly : 2 ^ 31 ≤ poly.toNat) (l : List UInt8) :
    Function.Injective fun c => l.foldl (crcByte poly) c := by
  induction l with
  | nil => exact fun _ _ h => h
  | cons byte l ih => exact fun _ _ h => crcByte_injective hpoly byte (ih h)

/-- 続いた 4 バイトまでを書き換えると、余りは必ず変わる。 -/
theorem crc_burst (hpoly : 2 ^ 31 ≤ poly.toNat) {pre w w' post : List UInt8} (hlen : w'.length = w.length)
    (hw : w.length ≤ 4) (hne : w' ≠ w) (c : UInt32) :
    (pre ++ (w' ++ post)).foldl (crcByte poly) c ≠ (pre ++ (w ++ post)).foldl (crcByte poly) c := by
  simp only [List.foldl_append]
  exact fun h => foldl_crcByte_ne hpoly hlen hw hne _ (foldl_crcByte_injective hpoly post h)

end

end OwStorage.Lib
