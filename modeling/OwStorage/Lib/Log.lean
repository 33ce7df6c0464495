import OwStorage.Lib.Prog

/-!
# 触れた先の記録

計算の途中で触れたものを、状態の脇に新しい順に書き留める。書き留めることは計算の結果を変えない（`Erases`）。
-/

namespace OwStorage.Lib

/-- 状態と、触れたものの記録。 -/
structure Logged (σ τ : Type) where
  state : σ
  log : List τ

variable {σ τ ρ ε ε' α β γ : Type}

def Logged.stateLens : Lens (Logged σ τ) σ where
  get s := s.state
  set x s := { s with state := x }
  get_set _ _ := rfl
  set_get _ := rfl
  set_set _ _ _ := rfl

/-- 部分の状態と、同じ記録。 -/
def Logged.under (l : Lens σ ρ) : Lens (Logged σ τ) (Logged ρ τ) where
  get s := ⟨l.get s.state, s.log⟩
  set x s := ⟨l.set x.state s.state, x.log⟩
  get_set x s := by rw [l.get_set]
  set_get s := by rw [l.set_get]
  set_set x y s := by rw [l.set_set]

namespace Prog

/-- 何も書き留めない計算。 -/
def silent (p : Prog σ ε α) : Prog (Logged σ τ) ε α := within Logged.stateLens id p

/-- `a` に触れたことを書き留める。 -/
def note (a : τ) : Prog (Logged σ τ) ε Unit := modify fun s => { s with log := a :: s.log }

section

variable {s : Logged σ τ}

@[simp] theorem wp_note {a : τ} {Q : Unit → Logged σ τ → Prop} {E : ε → Logged σ τ → Prop} :
    wp (note a) Q E s ↔ Q () ⟨s.state, a :: s.log⟩ := Iff.rfl

@[simp] theorem wp_silent {p : Prog σ ε α} {Q : α → Logged σ τ → Prop} {E : ε → Logged σ τ → Prop} :
    wp (silent p) Q E s ↔ wp p (fun a x => Q a ⟨x, s.log⟩) (fun e x => E e ⟨x, s.log⟩) s.state := wp_within

/-- 何も書き留めない計算は、記録についての条件を変えない。 -/
theorem wp_silent_log {p : Prog σ ε α} {I : List τ → Prop} (h : I s.log) :
    wp (silent p) (fun _ s' => I s'.log) (fun _ s' => I s'.log) s := by
  rw [wp_silent]
  exact wp_trivial.mono (fun _ _ _ => h) (fun _ _ _ => h)

end

/-! ## 記録の伸び -/

/-- 記録は前に伸びるだけである。 -/
def Extends (s s' : Logged σ τ) : Prop := s.log <:+ s'.log

instance : IsPreorder (Logged σ τ) Extends where
  refl _ := List.suffix_rfl
  trans _ _ _ h h' := h.trans h'

theorem Extends.mem {s s' : Logged σ τ} {a : τ} (h : Extends s s') (ha : a ∈ s.log) : a ∈ s'.log :=
  List.IsSuffix.subset h ha

theorem extends_silent (p : Prog σ ε α) : Preserves Extends (silent p : Prog (Logged σ τ) ε α) := by
  intro s
  rw [wp_silent]
  exact wp_trivial.mono (fun _ _ _ => List.suffix_rfl) (fun _ _ _ => List.suffix_rfl)

theorem extends_note (a : τ) : Preserves Extends (note a : Prog (Logged σ τ) ε Unit) := fun _ =>
  wp_note.mpr (List.suffix_cons _ _)

/-! ## 記録の消去 -/

/-- `q` から記録を除くと `p` になる。 -/
def Erases (q : Prog (Logged σ τ) ε α) (p : Prog σ ε α) : Prop :=
  ∀ s, (q s).1 = (p s.state).1 ∧ (q s).2.state = (p s.state).2

namespace Erases

/-- 記録を除いた計算について示したことは、もとの計算の状態にも成り立つ。 -/
theorem wp {p : Prog σ ε α} {q : Prog (Logged σ τ) ε α} (h : Erases q p) {s : Logged σ τ} {Q : α → σ → Prop}
    {E : ε → σ → Prop} (hp : Prog.wp p Q E s.state) :
    Prog.wp q (fun a s' => Q a s'.state) (fun e s' => E e s'.state) s := by
  obtain ⟨hval, hstate⟩ := h s
  unfold Prog.wp at hp ⊢
  rcases hq : q s with ⟨r, s'⟩
  rcases hr : p s.state with ⟨r', x⟩
  rw [hq, hr] at hval hstate
  rw [hr] at hp
  change r = r' at hval
  change s'.state = x at hstate
  subst hval hstate
  cases r with
  | ok a => exact hp
  | error e => exact hp

variable {p : Prog σ ε α} {q : Prog (Logged σ τ) ε α} {f : α → Prog σ ε β} {g : α → Prog (Logged σ τ) ε β}

theorem pure (a : α) : Erases (pure a : Prog (Logged σ τ) ε α) (pure a) := fun _ => ⟨rfl, rfl⟩

theorem throw (e : ε) : Erases (Prog.throw e : Prog (Logged σ τ) ε α) (Prog.throw e) := fun _ => ⟨rfl, rfl⟩

theorem silent (p : Prog σ ε α) : Erases (silent p : Prog (Logged σ τ) ε α) p := by
  intro s
  unfold Prog.silent within
  simp only [Logged.stateLens]
  rcases p s.state with ⟨r, x⟩
  cases r with
  | ok a => exact ⟨rfl, rfl⟩
  | error e => exact ⟨rfl, rfl⟩

theorem bind (h : Erases q p) (hf : ∀ a, Erases (g a) (f a)) : Erases (q >>= g) (p >>= f) := by
  intro s
  obtain ⟨hval, hstate⟩ := h s
  change (Prog.bind q g s).1 = (Prog.bind p f s.state).1 ∧ (Prog.bind q g s).2.state = (Prog.bind p f s.state).2
  unfold Prog.bind
  rcases hq : q s with ⟨r, s'⟩
  rcases hp : p s.state with ⟨r', x⟩
  rw [hq, hp] at hval hstate
  change r = r' at hval
  change s'.state = x at hstate
  subst hval hstate
  cases r with
  | ok a => exact hf a s'
  | error e => exact ⟨rfl, rfl⟩

/-- 書き留めるだけの一歩は、除くと消える。 -/
theorem note_bind {a : τ} {k : Unit → Prog (Logged σ τ) ε α} (h : Erases (k ()) p) : Erases (note a >>= k) p :=
  fun s => h ⟨s.state, a :: s.log⟩

theorem ite {c : Prop} [Decidable c] {q' : Prog (Logged σ τ) ε α} {p' : Prog σ ε α} (h : Erases q p)
    (h' : Erases q' p') :
    Erases (if c then q else q') (if c then p else p') := by
  by_cases hc : c
  · rwa [if_pos hc, if_pos hc]
  · rwa [if_neg hc, if_neg hc]

theorem failIf (c : Prop) [Decidable c] (e : ε) :
    Erases (Prog.failIf c e : Prog (Logged σ τ) ε Unit) (Prog.failIf c e) := .ite (.throw e) (.pure ())

theorem whenever {c : Prop} [Decidable c] {q : Prog (Logged σ τ) ε Unit} {p : Prog σ ε Unit} (h : Erases q p) :
    Erases (Prog.whenever c q) (Prog.whenever c p) := .ite h (.pure ())

theorem ofExcept (r : Except ε α) : Erases (Prog.ofExcept r : Prog (Logged σ τ) ε α) (Prog.ofExcept r) := by
  cases r with
  | ok a => exact .pure a
  | error e => exact .throw e

theorem attempt (h : Erases q p) :
    Erases (Prog.attempt q : Prog (Logged σ τ) ε' (Except ε α)) (Prog.attempt p) := by
  intro s
  obtain ⟨hval, hstate⟩ := h s
  exact ⟨congrArg Except.ok hval, hstate⟩

theorem loopFrom {body : Nat → β → Prog σ ε (β ⊕ γ)} {body' : Nat → β → Prog (Logged σ τ) ε (β ⊕ γ)}
    (h : ∀ i b, Erases (body' i b) (body i b)) : ∀ n i b,
    Erases (Prog.loopFrom body' i n b) (Prog.loopFrom body i n b) := by
  intro n
  induction n with
  | zero => exact fun i b => .pure _
  | succ n ih =>
      intro i b
      refine .bind (h i b) fun r => ?_
      cases r with
      | inl b' => exact ih (i + 1) b'
      | inr c => exact .pure _

theorem loop {n : Nat} {b : β} {body : Nat → β → Prog σ ε (β ⊕ γ)} {body' : Nat → β → Prog (Logged σ τ) ε (β ⊕ γ)}
    (h : ∀ i b, Erases (body' i b) (body i b)) : Erases (Prog.loop n b body') (Prog.loop n b body) := loopFrom h n 0 b

/-- 部分の状態の計算を、全体の状態の計算とする。 -/
theorem under {l : Lens σ ρ} {h : ε → ε'} {q : Prog (Logged ρ τ) ε α} {p : Prog ρ ε α} (hqp : Erases q p) :
    Erases (within (Logged.under l) h q) (within l h p) := by
  intro s
  obtain ⟨hval, hstate⟩ := hqp ⟨l.get s.state, s.log⟩
  unfold within
  simp only [Logged.under]
  rcases hq : q ⟨l.get s.state, s.log⟩ with ⟨r, x⟩
  rcases hp : p (l.get s.state) with ⟨r', y⟩
  rw [hq, hp] at hval hstate
  change r = r' at hval
  change x.state = y at hstate
  subst hval hstate
  cases r with
  | ok a => exact ⟨rfl, rfl⟩
  | error e => exact ⟨rfl, rfl⟩

end Erases

end Prog

end OwStorage.Lib
