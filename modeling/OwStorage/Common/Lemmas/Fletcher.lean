import OwStorage.Common.Checksum
import OwStorage.Lib.Words
import Mathlib.Algebra.BigOperators.Group.Finset.Basic

/-!
# Fletcher-64 の和

下の 32 ビットは、語の和の 2^32 - 1 による余りである。語を一つだけ変えたとき、これが変わらないのは、
0 と 0xFFFFFFFF を入れ替えたときだけである。
-/

namespace OwStorage

open Lib

/-- 余りを取る数。 -/
def fletcherModulus : Nat := 2 ^ 32 - 1

theorem fletcherWords_eq : ∀ (k : Nat) (l : List UInt8) (s : UInt64 × UInt64), l.length = k * 4 →
    fletcherWords l s = ([], (List.range k).foldl (fun s j => fletcherStep s
      (leWord (l[j * 4]?.getD 0) (l[j * 4 + 1]?.getD 0) (l[j * 4 + 2]?.getD 0) (l[j * 4 + 3]?.getD 0))) s) := by
  intro k
  induction k with
  | zero =>
      intro l s hl
      rw [Nat.zero_mul, List.length_eq_zero_iff] at hl
      subst hl
      rfl
  | succ k ih =>
      intro l s hl
      match l, hl with
      | b0 :: b1 :: b2 :: b3 :: rest, hl =>
          simp only [List.length_cons] at hl
          rw [fletcherWords, ih rest _ (by omega), List.range_succ_eq_map, List.foldl_cons, List.foldl_map]
          have hshift : ∀ j i : Nat, (b0 :: b1 :: b2 :: b3 :: rest)[(j + 1) * 4 + i]? = rest[j * 4 + i]? := by
            intro j i
            rw [show (j + 1) * 4 + i = j * 4 + i + 4 by omega]
            rfl
          have hzero : ∀ j : Nat, (b0 :: b1 :: b2 :: b3 :: rest)[(j + 1) * 4]? = rest[j * 4]? := fun j => hshift j 0
          simp only [Nat.succ_eq_add_one, hshift, hzero]
          rfl
      | [], hl => simp at hl
      | [_], hl => simp only [List.length_cons, List.length_nil] at hl; omega
      | [_, _], hl => simp only [List.length_cons, List.length_nil] at hl; omega
      | [_, _, _], hl => simp only [List.length_cons, List.length_nil] at hl; omega

theorem fletcherWords_append : ∀ (k : Nat) (l m : List UInt8) (s : UInt64 × UInt64), l.length = k * 4 →
    fletcherWords (l ++ m) s = fletcherWords m (fletcherWords l s).2 := by
  intro k
  induction k with
  | zero =>
      intro l m s hl
      rw [Nat.zero_mul, List.length_eq_zero_iff] at hl
      subst hl
      rfl
  | succ k ih =>
      intro l m s hl
      match l, hl with
      | b0 :: b1 :: b2 :: b3 :: rest, hl =>
          simp only [List.length_cons] at hl
          simp only [List.cons_append, fletcherWords]
          exact ih rest m _ (by omega)
      | [], hl => simp at hl
      | [_], hl => simp only [List.length_cons, List.length_nil] at hl; omega
      | [_, _], hl => simp only [List.length_cons, List.length_nil] at hl; omega
      | [_, _, _], hl => simp only [List.length_cons, List.length_nil] at hl; omega

theorem fletcherWords_flatMap (f : Nat → Bytes 4096) (n : Nat) :
    fletcherWords ((List.range n).flatMap fun q => (f q).toList) (0, 0) =
      ([], (List.range n).foldl (fun s q => (fletcherWords (f q).toList s).2) (0, 0)) := by
  induction n with
  | zero => rfl
  | succ n ih =>
      have hlen : ((List.range n).flatMap fun q => (f q).toList).length = n * 1024 * 4 := by
        rw [List.length_flatMap, List.map_congr_left (g := fun _ => 4096) fun q _ => Vector.length_toList]
        simp
        omega
      rw [List.range_succ, List.flatMap_append, fletcherWords_append _ _ _ _ hlen, ih, List.foldl_append]
      simp only [List.flatMap_cons, List.flatMap_nil, List.append_nil, List.foldl_cons, List.foldl_nil]
      rw [fletcherWords_eq 1024 _ _ Vector.length_toList]

theorem toNat_fletcherStep {s : UInt64 × UInt64} (hs : s.1.toNat < fletcherModulus) (w : UInt32) :
    (fletcherStep s w).1.toNat = (s.1.toNat + w.toNat) % fletcherModulus := by
  unfold fletcherModulus at hs
  have hw := w.toNat_lt
  have hsum : (s.1 + w.toUInt64).toNat = s.1.toNat + w.toNat := by
    rw [UInt64.toNat_add, UInt32.toNat_toUInt64, Nat.mod_eq_of_lt (by omega)]
  change ((s.1 + w.toUInt64) % 0xFFFFFFFF).toNat = _
  rw [UInt64.toNat_mod, hsum]
  rfl

theorem toNat_foldl_fletcherStep (f : Nat → UInt32) (k : Nat) {s : UInt64 × UInt64} (hs : s.1.toNat < fletcherModulus) :
    ((List.range k).foldl (fun s j => fletcherStep s (f j)) s).1.toNat =
      (s.1.toNat + ∑ j ∈ Finset.range k, (f j).toNat) % fletcherModulus := by
  induction k with
  | zero =>
      rw [Finset.sum_range_zero, Nat.add_zero, Nat.mod_eq_of_lt hs]
      rfl
  | succ k ih =>
      have hlt : ((List.range k).foldl (fun s j => fletcherStep s (f j)) s).1.toNat < fletcherModulus := by
        rw [ih]
        exact Nat.mod_lt _ (by decide)
      rw [List.range_succ, List.foldl_append, List.foldl_cons, List.foldl_nil, toNat_fletcherStep hlt, ih,
        Finset.sum_range_succ, Nat.mod_add_mod, Nat.add_assoc]

theorem fletcherResult_inj {s t : UInt64 × UInt64} (hs : s.1.toNat < fletcherModulus) (ht : t.1.toNat < fletcherModulus)
    (h : fletcherResult s = fletcherResult t) : s.1 = t.1 := by
  have hlow : ∀ u : UInt64 × UInt64, u.1.toNat < fletcherModulus → (fletcherResult u).toNat % 2 ^ 32 = u.1.toNat := by
    intro u hu
    unfold fletcherModulus at hu
    unfold fletcherResult
    rw [UInt64.toNat_or, UInt64.toNat_shiftLeft, Nat.or_mod_two_pow]
    have hzero : (u.2.toNat <<< ((32 : UInt64).toNat % 64) % 2 ^ 64) % 2 ^ 32 = 0 := by
      rw [show (32 : UInt64).toNat % 64 = 32 from rfl, Nat.shiftLeft_eq]
      omega
    rw [hzero, Nat.zero_or, Nat.mod_eq_of_lt (by omega)]
  apply UInt64.toNat_inj.mp
  rw [← hlow s hs, ← hlow t ht, h]

theorem sum_range_replace {f g : Nat → Nat} {n q : Nat} (hq : q < n) (h : ∀ i < n, i ≠ q → g i = f i) :
    ∑ i ∈ Finset.range n, g i + f q = ∑ i ∈ Finset.range n, f i + g q := by
  have hmem := Finset.mem_range.mpr hq
  have hrest : ∑ i ∈ (Finset.range n).erase q, g i = ∑ i ∈ (Finset.range n).erase q, f i :=
    Finset.sum_congr rfl fun i hi =>
      h i (Finset.mem_range.mp (Finset.mem_of_mem_erase hi)) (Finset.ne_of_mem_erase hi)
  have hg := Finset.add_sum_erase _ g hmem
  have hf := Finset.add_sum_erase _ f hmem
  omega

/-- 余りの等しい二つの異なる語は、0 と 0xFFFFFFFF である。 -/
theorem word_congr {w w' : UInt32} (hne : w ≠ w') (h : w.toNat ≡ w'.toNat [MOD fletcherModulus]) :
    (w = 0 ∧ w' = 0xFFFFFFFF) ∨ (w = 0xFFFFFFFF ∧ w' = 0) := by
  have hw := w.toNat_lt
  have hw' := w'.toNat_lt
  have hne : w.toNat ≠ w'.toNat := fun he => hne (UInt32.toNat_inj.mp he)
  unfold Nat.ModEq fletcherModulus at h
  rcases (show w.toNat = 0 ∧ w'.toNat = 2 ^ 32 - 1 ∨ w.toNat = 2 ^ 32 - 1 ∧
    w'.toNat = 0 by omega) with ⟨h0, h1⟩ | ⟨h0, h1⟩
  · exact .inl ⟨UInt32.toNat_inj.mp h0, UInt32.toNat_inj.mp h1⟩
  · exact .inr ⟨UInt32.toNat_inj.mp h0, UInt32.toNat_inj.mp h1⟩

end OwStorage
