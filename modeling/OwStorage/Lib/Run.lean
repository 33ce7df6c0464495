import Mathlib.Tactic

/-!
# 操作の列の実行

状態 `S` の上の操作を順に行い、その経過を記録する。各回で保たれる条件は、実行の全体で保たれる。
-/

namespace OwStorage.Lib

/-- 操作一回の記録。 -/
structure Event (S Op R : Type) where
  before : S
  op : Op
  result : R
  after : S

section

variable {S Op R : Type} (step : Op → S → R × S)

def event (op : Op) (s : S) : Event S Op R := ⟨s, op, (step op s).1, (step op s).2⟩

/-- 操作の列を順に行った記録。 -/
def trace : List Op → S → List (Event S Op R)
  | [], _ => []
  | op :: ops, s => event step op s :: trace ops (step op s).2

/-- 操作の列を行った後の状態。 -/
def final : List Op → S → S
  | [], s => s
  | op :: ops, s => final ops (step op s).2

variable {step} {I : S → Prop} {P : Event S Op R → Prop}

theorem op_mem_of_mem_trace : ∀ {ops : List Op} {s : S} {e : Event S Op R}, e ∈ trace step ops s → e.op ∈ ops := by
  intro ops
  induction ops with
  | nil => intro s e he; exact absurd he List.not_mem_nil
  | cons op ops ih =>
      intro s e he
      rcases List.mem_cons.mp he with rfl | he
      · exact List.mem_cons_self
      · exact List.mem_cons_of_mem _ (ih he)

/-- `P` を満たす回だけからなる実行は、その各回が保つ条件 `I` を保つ。 -/
theorem trace_invariant (hstep : ∀ op s, I s → P (event step op s) → I (step op s).2) :
    ∀ ops s, I s → (∀ e ∈ trace step ops s, P e) →
      I (final step ops s) ∧ ∀ e ∈ trace step ops s, I e.before ∧ e = event step e.op e.before := by
  intro ops
  induction ops with
  | nil => intro s hs _; exact ⟨hs, fun e he => absurd he List.not_mem_nil⟩
  | cons op ops ih =>
      intro s hs hP
      have hs' := hstep op s hs (hP _ List.mem_cons_self)
      obtain ⟨hfin, hall⟩ := ih (step op s).2 hs' fun e he => hP e (List.mem_cons_of_mem _ he)
      refine ⟨hfin, fun e he => ?_⟩
      rcases List.mem_cons.mp he with rfl | he
      · exact ⟨hs, rfl⟩
      · exact hall e he

/-- どの回も保つ条件は、どの実行でも保たれる。 -/
theorem final_invariant (hstep : ∀ op s, I s → I (step op s).2) (ops : List Op) {s : S} (hs : I s) :
    I (final step ops s) :=
  (trace_invariant (P := fun _ => True) (fun op s h _ => hstep op s h) ops s hs fun _ _ => trivial).1

/-- どの操作も状態 `s` を変えないなら、`s` からの実行は `s` に留まる。 -/
theorem final_fixed {s : S} (h : ∀ op, (step op s).2 = s) (ops : List Op) :
    final step ops s = s ∧ ∀ e ∈ trace step ops s, e.after = s := by
  have hstep : ∀ op t, t = s → (step op t).2 = s := by
    rintro op _ rfl
    exact h op
  obtain ⟨hfin, hall⟩ := trace_invariant (I := (· = s)) (P := fun _ => True) (fun op t ht _ => hstep op t ht) ops s rfl
    fun _ _ => trivial
  refine ⟨hfin, fun e he => ?_⟩
  obtain ⟨hbefore, heq⟩ := hall e he
  rw [heq]
  exact hstep e.op e.before hbefore

end

end OwStorage.Lib
