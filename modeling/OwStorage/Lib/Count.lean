import Mathlib.Tactic
import Mathlib.Data.Nat.Count

/-!
# 数え上げと、前からの探索
-/

namespace OwStorage.Lib

section

variable {p q : Nat → Prop} [DecidablePred p] [DecidablePred q] {n r : Nat}

/-- 一か所だけ成り立つようになると、個数は 1 増える。 -/
theorem count_of_gain (hr : r < n) (hp : ¬ p r) (hq : q r) (h : ∀ x, x < n → x ≠ r → (q x ↔ p x)) :
    Nat.count q n = Nat.count p n + 1 := by
  rw [Nat.count_eq_card_filter_range, Nat.count_eq_card_filter_range]
  have hins : (Finset.range n).filter q = insert r ((Finset.range n).filter p) := by
    ext x
    simp only [Finset.mem_filter, Finset.mem_range, Finset.mem_insert]
    by_cases hx : x = r
    · subst hx
      simp [hr, hq]
    · simp only [hx, false_or, and_congr_right_iff]
      exact fun hxn => h x hxn hx
  rw [hins, Finset.card_insert_of_notMem (by simp [hp])]

/-- 成り立つ所が増えるだけなら、個数も増える。 -/
theorem count_lt_of_imp (h : ∀ x, x < n → p x → q x) (hr : r < n) (hp : ¬ p r) (hq : q r) :
    Nat.count p n < Nat.count q n := by
  rw [Nat.count_eq_card_filter_range, Nat.count_eq_card_filter_range]
  refine Finset.card_lt_card (Finset.ssubset_iff_of_subset ?_ |>.mpr ⟨r, ?_, ?_⟩)
  · intro x hx
    rw [Finset.mem_filter, Finset.mem_range] at hx ⊢
    exact ⟨hx.1, h x hx.1 hx.2⟩
  · rw [Finset.mem_filter, Finset.mem_range]
    exact ⟨hr, hq⟩
  · rw [Finset.mem_filter]
    exact fun hx => hp hx.2

/-- 0 のビットを残らず引き継ぎ、どこかで違う列は、0 のビットが多い。 -/
theorem count_false_lt {f g : Nat → Bool} {n r : Nat} (h : ∀ x, x < n → f x = false → g x = false) (hr : r < n)
    (hne : f r ≠ g r) : Nat.count (fun x => f x = false) n < Nat.count (fun x => g x = false) n := by
  have hf : f r = true := by
    by_contra hf
    have hf := Bool.eq_false_of_not_eq_true hf
    exact hne (hf.trans (h r hr hf).symm)
  refine count_lt_of_imp h hr ?_ ?_
  · rw [hf]
    exact Bool.noConfusion
  · exact Bool.eq_false_iff.mpr fun hg => hne (hf.trans hg.symm)

theorem count_congr (h : ∀ x, x < n → (p x ↔ q x)) : Nat.count p n = Nat.count q n := by
  rw [Nat.count_eq_card_filter_range, Nat.count_eq_card_filter_range]
  exact congrArg Finset.card (Finset.filter_congr fun x hx => h x (Finset.mem_range.mp hx))

theorem count_eq_zero_iff : Nat.count p n = 0 ↔ ∀ x, x < n → ¬ p x := by
  rw [Nat.count_eq_card_filter_range, Finset.card_eq_zero, Finset.filter_eq_empty_iff]
  simp

end

/-! ## 前からの探索 -/

section

variable {β : Type} {f : Nat → Option β} {n : Nat}

/-- 見つかったものより前には、答えがない。 -/
theorem findSome?_range {b : β} (h : (List.range n).findSome? f = some b) :
    ∃ i, i < n ∧ f i = some b ∧ ∀ j, j < i → f j = none := by
  induction n with
  | zero => simp at h
  | succ n ih =>
      rw [List.range_succ, List.findSome?_append] at h
      cases hn : (List.range n).findSome? f with
      | some b' =>
          rw [hn, Option.some_or] at h
          obtain ⟨i, hi, hfi, hlt⟩ := ih (hn.trans h)
          exact ⟨i, by omega, hfi, hlt⟩
      | none =>
          rw [hn, Option.none_or, List.findSome?_singleton] at h
          refine ⟨n, by omega, h, fun j hj => ?_⟩
          exact List.findSome?_eq_none_iff.mp hn j (List.mem_range.mpr hj)

theorem findSome?_range_none (h : (List.range n).findSome? f = none) : ∀ i, i < n → f i = none :=
  fun i hi => List.findSome?_eq_none_iff.mp h i (List.mem_range.mpr hi)

end

/-- 最初に条件を満たす番号を除くと、条件を満たす番号の並びは先頭を失う。 -/
theorem filter_range_first {f g : Nat → Bool} {n r : Nat} (hr : r < n) (hf : f r = true)
    (hfirst : ∀ x, x < r → f x = false) (hg : ∀ x, x < n → g x = (f x && decide (x ≠ r))) :
    (List.range n).filter f = r :: (List.range n).filter g := by
  obtain ⟨m, rfl⟩ : ∃ m, n = r + 1 + m := ⟨n - r - 1, by omega⟩
  have hsplit : List.range (r + 1 + m) = List.range r ++ (r :: (List.range m).map (r + 1 + ·)) := by
    rw [List.range_add, List.range_succ, List.append_assoc]
    rfl
  have hbelow : (List.range r).filter f = [] := by
    rw [List.filter_eq_nil_iff]
    intro x hx
    rw [hfirst x (List.mem_range.mp hx)]
    exact Bool.false_ne_true
  have hbelow' : (List.range r).filter g = [] := by
    rw [List.filter_eq_nil_iff]
    intro x hx
    rw [hg x ((List.mem_range.mp hx).trans hr), hfirst x (List.mem_range.mp hx)]
    exact Bool.false_ne_true
  have habove : ((List.range m).map (r + 1 + ·)).filter g =
      ((List.range m).map (r + 1 + ·)).filter f := by
    refine List.filter_congr fun x hx => ?_
    obtain ⟨j, hj, rfl⟩ := List.mem_map.mp hx
    have := List.mem_range.mp hj
    rw [hg _ (by omega), decide_eq_true (by omega), Bool.and_true]
  have hgr : g r = false := by
    rw [hg r hr]
    simp
  rw [hsplit, List.filter_append, List.filter_append, List.filter_cons_of_pos hf,
    List.filter_cons_of_neg (by rw [hgr]; exact Bool.false_ne_true), hbelow, hbelow', habove]
  rfl

/-! ## 区切って数える -/

section

variable {p : Nat → Prop} [DecidablePred p]

/-- 長さ `k` の区切りごとに数えて足してよい。 -/
theorem count_mul (k m : Nat) :
    Nat.count p (m * k) = ((List.range m).map fun i => Nat.count (fun j => p (i * k + j)) k).sum := by
  induction m with
  | zero => simp
  | succ m ih => simp [Nat.succ_mul, Nat.count_add, ih, List.range_succ]

/-- 上限を条件に加えて、より広い範囲で数えてよい。 -/
theorem count_bounded {d n : Nat} (h : d ≤ n) : Nat.count (fun r => r < d ∧ p r) n = Nat.count p d := by
  obtain ⟨k, rfl⟩ := Nat.exists_eq_add_of_le h
  have hlow : Nat.count (fun r => r < d ∧ p r) d = Nat.count p d := by
    exact count_congr fun x hx => and_iff_right hx
  have hhigh : Nat.count (fun j => d + j < d ∧ p (d + j)) k = 0 := by
    rw [count_eq_zero_iff]
    intro x _ hx
    omega
  rw [Nat.count_add, hlow, hhigh, Nat.add_zero]

theorem takeWhile_range (n m : Nat) :
    (List.range n).takeWhile (fun j => decide (j < m)) = List.range (min n m) := by
  have hsplit : List.range n =
      List.range (min n m) ++ (List.range (n - min n m)).map (min n m + ·) := by
    rw [← List.range_add]
    congr 1
    omega
  rw [hsplit, List.takeWhile_append_of_pos]
  · by_cases hnm : n ≤ m
    · have hz : n - min n m = 0 := by omega
      simp [hz]
    · obtain ⟨k, hk⟩ : ∃ k, n - min n m = k + 1 := ⟨n - min n m - 1, by omega⟩
      rw [hk, List.range_succ_eq_map, List.map_cons, List.takeWhile_cons]
      have hstop : ¬ decide (min n m + 0 < m) = true := by
        simp only [decide_eq_true_eq]
        omega
      rw [if_neg hstop, List.append_nil]
  · intro a ha
    have := List.mem_range.mp ha
    simp only [decide_eq_true_eq]
    omega

theorem takeWhile_congr {α : Type} {f g : α → Bool} : ∀ {l : List α}, (∀ a ∈ l, f a = g a) →
    l.takeWhile f = l.takeWhile g
  | [], _ => rfl
  | a :: l, h => by
      rw [List.takeWhile_cons, List.takeWhile_cons, h a List.mem_cons_self,
        takeWhile_congr fun b hb => h b (List.mem_cons_of_mem a hb)]

/-- 上限で打ち切る数え方は、上限を条件に加えて数えることに等しい。 -/
theorem countP_takeWhile (q : Nat → Bool) {f : Nat → Bool} {n m : Nat}
    (hf : ∀ j, j < n → f j = decide (j < m)) :
    ((List.range n).takeWhile f).countP q = Nat.count (fun j => j < m ∧ q j = true) n := by
  rw [takeWhile_congr fun j hj => hf j (List.mem_range.mp hj), takeWhile_range]
  by_cases hmn : m ≤ n
  · rw [count_bounded hmn, Nat.min_eq_right hmn]
    unfold Nat.count
    simp
  · rw [Nat.min_eq_left (by omega)]
    unfold Nat.count
    apply List.countP_congr
    intro x hx
    have hxn := List.mem_range.mp hx
    have hxm : x < m := by omega
    simp [hxm]

end

end OwStorage.Lib
