import Mathlib

/-!
# 持ち分への分割

使用中の資源の集まりが、持ち主ごとの持ち分に、重なりなく分かれる。持ち分を一つ取り替えても、新しい持ち分がほかの持ち主の
資源を含まなければ、この分割は保たれる。
-/

namespace OwStorage.Lib

/-- 資源の集まり `used` は、持ち主 `i` の持ち分 `own i` に、重なりなく分かれる。 -/
structure Allotted {ι ρ : Type} (own : ι → Set ρ) (used : Set ρ) : Prop where
  covers : ⋃ i, own i = used
  disjoint : Pairwise fun i j => Disjoint (own i) (own j)

namespace Allotted

variable {ι ρ : Type} {own : ι → Set ρ} {used : Set ρ} {i : ι} {B : Set ρ}

theorem mem_iff (h : Allotted own used) {r : ρ} : r ∈ used ↔ ∃ i, r ∈ own i := by
  rw [← h.covers, Set.mem_iUnion]

theorem subset (h : Allotted own used) (i : ι) : own i ⊆ used := fun _ hr => h.mem_iff.mpr ⟨i, hr⟩

/-- 同じ資源の持ち主は同じである。 -/
theorem unique (h : Allotted own used) {j : ι} {r : ρ} (hi : r ∈ own i) (hj : r ∈ own j) : i = j := by
  by_contra hne
  exact Set.disjoint_left.mp (h.disjoint hne) hi hj

/-- 持ち分を一つ取り替える。 -/
theorem reassign [DecidableEq ι] (h : Allotted own used) (hfresh : ∀ r ∈ B, r ∈ used → r ∈ own i) :
    Allotted (Function.update own i B) (used \ own i ∪ B) := by
  have hother : ∀ {j r}, j ≠ i → r ∈ own j → r ∉ B := by
    intro j r hj hr hB
    exact hj (h.unique hr (hfresh r hB (h.subset j hr)))
  refine ⟨Set.ext fun r => ?_, fun j k hjk => Set.disjoint_left.mpr fun r hr hr' => ?_⟩
  · rw [Set.mem_iUnion, Set.mem_union, Set.mem_sdiff]
    constructor
    · rintro ⟨j, hj⟩
      by_cases hji : j = i
      · rw [hji, Function.update_self] at hj
        exact .inr hj
      · rw [Function.update_of_ne hji] at hj
        exact .inl ⟨h.subset j hj, fun hi => hji (h.unique hj hi)⟩
    · rintro (⟨hr, hi⟩ | hB)
      · obtain ⟨j, hj⟩ := h.mem_iff.mp hr
        refine ⟨j, ?_⟩
        rw [Function.update_of_ne ?_]
        · exact hj
        · rintro rfl
          exact hi hj
      · exact ⟨i, by rw [Function.update_self]; exact hB⟩
  · by_cases hji : j = i
    · subst hji
      rw [Function.update_self] at hr
      rw [Function.update_of_ne hjk.symm] at hr'
      exact hother hjk.symm hr' hr
    · rw [Function.update_of_ne hji] at hr
      by_cases hki : k = i
      · rw [hki, Function.update_self] at hr'
        exact hother hji hr hr'
      · rw [Function.update_of_ne hki] at hr'
        exact hjk (h.unique hr hr')

end Allotted

end OwStorage.Lib
