import OwStorage.Lib.Run

/-!
# 抽象の実行

具体の操作の一回を、抽象の状態の上の札の付いた一歩に対応させる。一回ごとの対応があれば、実行の全体が抽象の一歩の列に
対応する（`trace_runs`）。
-/

namespace OwStorage.Lib

/-- 札 `L` の付いた一歩 `R` を順に行う。 -/
inductive Runs {A L : Type} (R : A → L → A → Prop) : A → List L → A → Prop where
  | nil (a : A) : Runs R a [] a
  | cons {a b c : A} {l : L} {ls : List L} (h : R a l b) (hs : Runs R b ls c) : Runs R a (l :: ls) c

section

variable {A L β : Type} {R R' : A → L → A → Prop} {a b : A} {ls : List L}

/-- 一歩ごとに札だけから定まる値は、列の全体では、札を順に当てはめたものになる。 -/
theorem Runs.replays {C : Type} {P : A → C → Prop} {next : C → L → C}
    (hstep : ∀ a l b c, R a l b → P a c → P b (next c l)) (h : Runs R a ls b) {c : C} (hold : P a c) :
    P b (ls.foldl next c) := by
  induction h generalizing c with
  | nil a => exact hold
  | cons h _ ih => exact ih (hstep _ _ _ _ h hold)

/-- 一歩ごとに伸びる記録は、列の全体では、伸びた分をつないだだけ伸びる。 -/
theorem Runs.accumulates {value : A → Option (List β)} {out : L → List β}
    (hstep : ∀ a l b old, R a l b → value a = some old → value b = some (old ++ out l))
    (h : Runs R a ls b) {old : List β}
    (hold : value a = some old) : value b = some (old ++ ls.flatMap out) := by
  induction h generalizing old with
  | nil a => simpa using hold
  | cons h hs ih =>
      have hnext := ih (hstep _ _ _ _ h hold)
      simpa [List.append_assoc] using hnext

end

section

variable {S Op Res A L : Type} {step : Op → S → Res × S} {I : S → Prop} {P : Event S Op Res → Prop}
  {R : A → L → A → Prop} {abs : S → A} {label : Event S Op Res → L}

/-- 一回ごとに不変条件を保ち、抽象の一歩になるなら、実行の全体は抽象の一歩の列になる。 -/
theorem trace_runs (hstep : ∀ op s, I s → P (event step op s) →
      I (step op s).2 ∧ R (abs s) (label (event step op s)) (abs (step op s).2)) :
    ∀ ops s, I s → (∀ e ∈ trace step ops s, P e) →
      I (final step ops s) ∧ Runs R (abs s) ((trace step ops s).map label) (abs (final step ops s)) := by
  intro ops
  induction ops with
  | nil => intro s hs _; exact ⟨hs, .nil _⟩
  | cons op ops ih =>
      intro s hs hP
      obtain ⟨hs', habs⟩ := hstep op s hs (hP _ List.mem_cons_self)
      obtain ⟨hfin, hruns⟩ := ih (step op s).2 hs' fun e he => hP e (List.mem_cons_of_mem _ he)
      exact ⟨hfin, .cons habs hruns⟩

end

end OwStorage.Lib
