import Mathlib.Data.Finmap
import Mathlib.Data.List.Count
import Mathlib.Data.List.Perm.Basic

/-!
# 枠の並び

番号の付いた枠のそれぞれが、空いているか、一つの値を持つ。埋まっている枠の中身を番号の順に並べたものが、枠を埋めたり
空けたり増やしたりするとどう変わるかを示す。
-/

namespace OwStorage.Lib

section

variable {α : Type} {f g : Nat → Option α} {n : Nat} {a : α}

/-- 番号が `n` より小さい枠のうち、埋まっているものの中身。 -/
def filled (f : Nat → Option α) (n : Nat) : List α := (List.range n).filterMap f

theorem filled_succ (f : Nat → Option α) (n : Nat) : filled f (n + 1) = filled f n ++ (f n).toList := by
  unfold filled
  rw [List.range_succ, List.filterMap_append]
  cases h : f n with
  | none => simp [h]
  | some a => simp [h]

theorem mem_filled : a ∈ filled f n ↔ ∃ j, j < n ∧ f j = some a := by
  simp [filled]

theorem filled_congr (h : ∀ j, j < n → g j = f j) : filled g n = filled f n := by
  refine List.filterMap_congr fun j hj => ?_
  exact h j (List.mem_range.mp hj)

/-- どの枠も埋まっているなら、中身は枠の数だけある。 -/
theorem length_filled (h : ∀ j, j < n → f j ≠ none) : (filled f n).length = n := by
  induction n with
  | zero => rfl
  | succ n ih =>
      obtain ⟨a, ha⟩ := Option.ne_none_iff_exists'.mp (h n (Nat.lt_succ_self n))
      rw [filled_succ, List.length_append, ih fun j hj => h j (by omega), ha]
      rfl

theorem length_filled_lt {j : Nat} (hj : j < n) (hf : f j = none) : (filled f n).length < n := by
  have hlt : (List.range n).countP (fun i => (f i).isSome) < (List.range n).length :=
    List.countP_lt_length_iff.mpr ⟨j, List.mem_range.mpr hj, by rw [hf]; rfl⟩
  rw [List.length_range] at hlt
  exact lt_of_eq_of_lt List.length_filterMap_eq_countP hlt

/-- 空いている枠を一つ埋める。 -/
theorem filled_put {j : Nat} (hj : j < n) (hf : f j = none) (hg : g j = some a)
    (h : ∀ i, i < n → i ≠ j → g i = f i) : (filled g n).Perm (a :: filled f n) := by
  induction n with
  | zero => exact absurd hj (Nat.not_lt_zero _)
  | succ n ih =>
      rw [filled_succ, filled_succ]
      by_cases hjn : j = n
      · subst hjn
        have hrest : filled g j = filled f j := filled_congr fun i hi => h i (by omega) (by omega)
        rw [hrest, hf, hg]
        exact List.perm_append_comm.trans (by simp)
      · have hlast : g n = f n := h n (by omega) (by omega)
        rw [hlast]
        exact (ih (by omega) fun i hi => h i (by omega)).append_right _

/-- 最初の枠だけを埋めて、枠を増やす。 -/
theorem filled_grow {k : Nat} (hk : 0 < k) (hold : ∀ i, i < n → g i = f i) (hnew : g n = some a)
    (hrest : ∀ i, n < i → i < n + k → g i = none) : filled g (n + k) = filled f n ++ [a] := by
  obtain ⟨k, rfl⟩ : ∃ k', k = k' + 1 := ⟨k - 1, by omega⟩
  clear hk
  induction k with
  | zero =>
      rw [filled_succ, hnew, filled_congr hold]
      rfl
  | succ k ih =>
      have hnone : g (n + (k + 1)) = none := hrest _ (by omega) (by omega)
      rw [← Nat.add_assoc, filled_succ, hnone, ih fun i hi hlt => hrest i hi (by omega)]
      simp

end

/-! ## 名前から値への対応 -/

section

variable {κ β : Type} [DecidableEq κ] {m : Finmap fun _ : κ => β} {k : κ} {b : β} {s : Multiset (Sigma fun _ : κ => β)}

theorem erase_insert_self (h : m.lookup k = some b) : (m.erase k).insert k b = m := by
  refine Finmap.ext_lookup fun x => ?_
  by_cases hx : x = k
  · subst hx
    rw [Finmap.lookup_insert, h]
  · rw [Finmap.lookup_insert_of_ne _ hx, Finmap.lookup_erase_ne hx]

/-- 埋まっている項目から一つを除くと、対応からその名前を除いたものになる。 -/
theorem erase_entries (h : m.entries = ⟨k, b⟩ ::ₘ s) : (m.erase k).entries = s := by
  have hk : m.lookup k = some b := Finmap.lookup_eq_some_iff.mpr (by rw [h]; exact Multiset.mem_cons_self _ _)
  have hins := Finmap.entries_insert_of_notMem (b := b) (Finmap.notMem_erase_self (s := m) (a := k))
  rw [erase_insert_self hk, h] at hins
  exact ((Multiset.cons_inj_right _).mp hins).symm

end

end OwStorage.Lib
