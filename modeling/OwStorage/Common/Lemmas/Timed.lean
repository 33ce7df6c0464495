import OwStorage.Common.Lemmas.Htl

/-!
# 装置の失敗の差し替え

計算の終わりまでに番号の来ない呼び出しの成否は、その計算に影響しない。途中の呼び出しから失敗する装置を作るときに使う。
-/

namespace OwStorage

open Lib Prog

/-- 失敗を `g` に替えた装置。 -/
def HtlDevice.withFault (d : HtlDevice) (g : Nat → Option HtlErr) : HtlDevice := { d with fault := g }

section

variable {σ τ ε ε' α β γ : Type} {l : Lens σ HtlDevice} {s : σ} {g : Nat → Option HtlErr}

/-- 装置の失敗を `g` に替える。 -/
def refault (l : Lens σ HtlDevice) (g : Nat → Option HtlErr) (s : σ) : σ := l.set ((l.get s).withFault g) s

/-- 終わりの番号より前の失敗が同じなら、結果も同じである。 -/
structure Timed (l : Lens σ HtlDevice) (p : Prog σ ε α) : Prop where
  later : ∀ s, (l.get s).clock ≤ (l.get (p s).2).clock
  fault : ∀ s, (l.get (p s).2).fault = (l.get s).fault
  blind : ∀ s g, (∀ k < (l.get (p s).2).clock, g k = (l.get s).fault k) →
    p (refault l g s) = ((p s).1, refault l g (p s).2)

namespace Timed

variable {p : Prog σ ε α} {f : α → Prog σ ε β}

theorem pure (a : α) : Timed l (pure a : Prog σ ε α) := ⟨fun _ => le_rfl, fun _ => rfl, fun _ _ _ => rfl⟩

theorem throw (e : ε) : Timed l (Prog.throw e : Prog σ ε α) := ⟨fun _ => le_rfl, fun _ => rfl, fun _ _ _ => rfl⟩

theorem ite {c : Prop} [Decidable c] {q : Prog σ ε α} (hp : Timed l p) (hq : Timed l q) :
    Timed l (if c then p else q) := by
  by_cases h : c
  · rwa [if_pos h]
  · rwa [if_neg h]

theorem failIf (c : Prop) [Decidable c] (e : ε) : Timed l (Prog.failIf c e) := .ite (.throw e) (.pure ())

theorem ofExcept (r : Except ε α) : Timed l (Prog.ofExcept r) := by
  cases r with
  | ok a => exact .pure a
  | error e => exact .throw e

theorem get_bind {f : σ → Prog σ ε β} (hsame : ∀ s g, f (refault l g s) = f s) (h : ∀ s, Timed l (f s)) :
    Timed l (Prog.get >>= f) := by
  refine ⟨fun s => (h s).later s, fun s => (h s).fault s, fun s g hg => ?_⟩
  change f (refault l g s) (refault l g s) = _
  rw [hsame s g]
  exact (h s).blind s g hg

theorem modify {f : σ → σ} (hget : ∀ s, l.get (f s) = l.get s) (hcomm : ∀ s g, f (refault l g s) = refault l g (f s)) :
    Timed l (Prog.modify f : Prog σ ε Unit) := by
  refine ⟨fun s => ?_, fun s => ?_, fun s g _ => ?_⟩
  · change _ ≤ (l.get (f s)).clock
    rw [hget]
  · change (l.get (f s)).fault = _
    rw [hget]
  · change (Except.ok (), f (refault l g s)) = (Except.ok (), refault l g (f s))
    rw [hcomm]

theorem bind (hp : Timed l p) (hf : ∀ a, Timed l (f a)) : Timed l (p >>= f) := by
  have hrun : ∀ s, (∃ a, p s = (.ok a, (p s).2) ∧ (p >>= f) s = f a (p s).2) ∨
      ∃ e, p s = (.error e, (p s).2) ∧ (p >>= f) s = (.error e, (p s).2) := by
    intro s
    cases hr : (p s).1 with
    | ok a => exact .inl ⟨a, run_eq hr, run_bind (run_eq hr) rfl⟩
    | error e => exact .inr ⟨e, run_eq hr, run_bind_error (run_eq hr)⟩
  constructor
  · intro s
    rcases hrun s with ⟨a, _, hs⟩ | ⟨e, _, hs⟩ <;> rw [hs]
    · exact (hp.later s).trans ((hf a).later _)
    · exact hp.later s
  · intro s
    rcases hrun s with ⟨a, _, hs⟩ | ⟨e, _, hs⟩ <;> rw [hs]
    · exact ((hf a).fault _).trans (hp.fault s)
    · exact hp.fault s
  · intro s g hg
    rcases hrun s with ⟨a, hps, hs⟩ | ⟨e, hps, hs⟩ <;> rw [hs] at hg ⊢
    · have hfirst := hp.blind s g fun k hk => hg k (hk.trans_le ((hf a).later _))
      rw [hps] at hfirst
      refine run_bind hfirst ((hf a).blind _ g fun k hk => ?_)
      rw [hp.fault s]
      exact hg k hk
    · have hfirst := hp.blind s g hg
      rw [hps] at hfirst
      exact run_bind_error hfirst

theorem attempt (hp : Timed l p) : Timed l (Prog.attempt p : Prog σ ε' (Except ε α)) := by
  have hrun : ∀ s, (Prog.attempt p : Prog σ ε' (Except ε α)) s = (.ok (p s).1, (p s).2) := fun _ => run_attempt rfl
  constructor
  · intro s
    rw [hrun s]
    exact hp.later s
  · intro s
    rw [hrun s]
    exact hp.fault s
  · intro s g hg
    rw [hrun s] at hg ⊢
    exact run_attempt (hp.blind s g hg)

theorem loopFrom {body : Nat → β → Prog σ ε (β ⊕ γ)} (h : ∀ i b, Timed l (body i b)) :
    ∀ n i b, Timed l (Prog.loopFrom body i n b) := by
  intro n
  induction n with
  | zero => exact fun _ b => .pure (Sum.inl b)
  | succ n ih =>
      intro i b
      unfold Prog.loopFrom
      refine .bind (h i b) fun r => ?_
      cases r with
      | inl b' => exact ih (i + 1) b'
      | inr c => exact .pure (Sum.inr c)

theorem loop {n : Nat} {b : β} {body : Nat → β → Prog σ ε (β ⊕ γ)} (h : ∀ i b, Timed l (body i b)) :
    Timed l (Prog.loop n b body) := .loopFrom h n 0 b

theorem within {m : Lens τ σ} {h : ε → ε'} (hp : Timed l p) : Timed (m.into l) (Prog.within m h p) := by
  have hrun : ∀ t, ∃ r, (Prog.within m h p) t = (r, m.set (p (m.get t)).2 t) ∧
      ∀ t', (p (m.get t')).1 = (p (m.get t)).1 → (Prog.within m h p) t' = (r, m.set (p (m.get t')).2 t') := by
    intro t
    unfold Prog.within
    cases hr : (p (m.get t)).1 with
    | ok a =>
        refine ⟨.ok a, by rw [run_eq hr], fun t' ht => ?_⟩
        rw [run_eq ht]
    | error e =>
        refine ⟨.error (h e), by rw [run_eq hr], fun t' ht => ?_⟩
        rw [run_eq ht]
  constructor
  · intro t
    obtain ⟨r, ht, _⟩ := hrun t
    rw [ht]
    change _ ≤ (l.get (m.get (m.set _ t))).clock
    rw [m.get_set]
    exact hp.later (m.get t)
  · intro t
    obtain ⟨r, ht, _⟩ := hrun t
    rw [ht]
    change (l.get (m.get (m.set _ t))).fault = _
    rw [m.get_set]
    exact hp.fault (m.get t)
  · intro t g hg
    obtain ⟨r, ht, hsame⟩ := hrun t
    have hre : ∀ t, m.get (refault (m.into l) g t) = refault l g (m.get t) := fun t => m.get_set _ t
    have hset : ∀ s, m.set s (refault (m.into l) g t) = m.set s t := fun s => m.set_set _ _ _
    rw [ht] at hg ⊢
    have hin : ∀ k < (l.get (p (m.get t)).2).clock, g k = (l.get (m.get t)).fault k := by
      intro k hk
      refine hg k ?_
      change k < (l.get (m.get (m.set _ t))).clock
      rwa [m.get_set]
    have hblind := hp.blind (m.get t) g hin
    rw [← hre] at hblind
    have hout : (p (m.get (refault (m.into l) g t))).1 = (p (m.get t)).1 := by rw [hblind]
    rw [hsame _ hout, hblind, hset]
    change (r, m.set (refault l g (p (m.get t)).2) t) = (r, m.set (l.set ((l.get (m.get (m.set _ t))).withFault g)
      (m.get (m.set _ t))) (m.set _ t))
    rw [m.get_set, m.set_set]
    rfl

theorem whenever {c : Prop} [Decidable c] {p : Prog σ ε Unit} (hp : Timed l p) : Timed l (Prog.whenever c p) :=
  .ite hp (.pure ())

end Timed

/-! ## 装置の呼び出し -/

end

end OwStorage
