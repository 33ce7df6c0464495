import OwStorage.Lib.Prog

/-!
# 二つの実行の並行

二つの計算を、関係 `S` にある状態から同時に動かす。どちらも値を返すか、どちらも同じ誤りを返し、終わりの状態も
`S` にあるとき、二つは並んで進むという。値どうしの関係 `R` は、計算ごとに選ぶ。
-/

namespace OwStorage.Lib.Prog

variable {σ τ ε ε' α α' β β' γ : Type} {S : σ → τ → Prop}

/-- 値どうし、または誤りどうしが揃う。 -/
inductive Matched (R : α → β → Prop) : Except ε α → Except ε β → Prop where
  | ok {a b} (h : R a b) : Matched R (.ok a) (.ok b)
  | error (e) : Matched R (.error e) (.error e)

theorem Matched.eq {r r' : Except ε α} (h : Matched Eq r r') : r = r' := by
  cases h with
  | ok h => rw [h]
  | error e => rfl

/-- `S` にある状態から、並んで進む。 -/
def Twin (S : σ → τ → Prop) (R : α → β → Prop) (p : Prog σ ε α) (q : Prog τ ε β) : Prop :=
  ∀ s t, S s t → Matched R (p s).1 (q t).1 ∧ S (p s).2 (q t).2

namespace Twin

variable {R : α → β → Prop} {R' : α' → β' → Prop} {p : Prog σ ε α} {q : Prog τ ε β}

theorem pure {a : α} {b : β} (h : R a b) : Twin S R (pure a : Prog σ ε α) (pure b : Prog τ ε β) :=
  fun _ _ hs => ⟨.ok h, hs⟩

theorem throw (e : ε) : Twin S R (Prog.throw e : Prog σ ε α) (Prog.throw e : Prog τ ε β) :=
  fun _ _ hs => ⟨.error e, hs⟩

theorem get : Twin S S (Prog.get : Prog σ ε σ) (Prog.get : Prog τ ε τ) := fun _ _ hs => ⟨.ok hs, hs⟩

theorem bind {f : α → Prog σ ε α'} {g : β → Prog τ ε β'} (h : Twin S R p q)
    (hf : ∀ a b, R a b → Twin S R' (f a) (g b)) : Twin S R' (p >>= f) (q >>= g) := by
  intro s t hs
  obtain ⟨hr, hs'⟩ := h s t hs
  rcases hp : p s with ⟨r, s'⟩
  rcases hq : q t with ⟨r', t'⟩
  rw [hp, hq] at hr hs'
  cases hr with
  | ok hab =>
      rw [run_bind hp rfl, run_bind hq rfl]
      exact hf _ _ hab s' t' hs'
  | error e =>
      rw [run_bind_error hp, run_bind_error hq]
      exact ⟨.error e, hs'⟩

theorem mono {R₁ : α → β → Prop} (h : Twin S R p q) (hR : ∀ a b, R a b → R₁ a b) : Twin S R₁ p q := by
  intro s t hs
  obtain ⟨hr, hs'⟩ := h s t hs
  refine ⟨?_, hs'⟩
  revert hr
  generalize (p s).1 = r
  generalize (q t).1 = r'
  intro hr
  cases hr with
  | ok hab => exact .ok (hR _ _ hab)
  | error e => exact .error e

/-- 同じ条件で断られ、通れば並んで進む。 -/
theorem failIf {c c' : Prop} [Decidable c] [Decidable c'] {e : ε} {f : Unit → Prog σ ε α'} {g : Unit → Prog τ ε β'}
    (h : c ↔ c') (hf : ¬ c → Twin S R' (f ()) (g ())) :
    Twin S R' (Prog.failIf c e >>= f) (Prog.failIf c' e >>= g) := by
  unfold Prog.failIf
  by_cases hc : c
  · rw [if_pos hc, if_pos (h.mp hc)]
    exact throw e
  · rw [if_neg hc, if_neg fun hc' => hc (h.mpr hc')]
    exact hf hc

theorem ofExcept (r : Except ε α) : Twin S Eq (Prog.ofExcept r : Prog σ ε α) (Prog.ofExcept r : Prog τ ε α) := by
  cases r with
  | ok a => exact pure rfl
  | error e => exact throw e

theorem attempt (h : Twin S R p q) :
    Twin S (Matched R) (Prog.attempt p : Prog σ ε' (Except ε α)) (Prog.attempt q : Prog τ ε' (Except ε β)) :=
  fun s t hs => ⟨.ok (h s t hs).1, (h s t hs).2⟩

theorem loopFrom {body : Nat → α → Prog σ ε (α ⊕ γ)} {body' : Nat → α → Prog τ ε (α ⊕ γ)} {m : Nat}
    (h : ∀ i a, i < m → Twin S Eq (body i a) (body' i a)) : ∀ n i a, i + n = m →
      Twin S Eq (Prog.loopFrom body i n a) (Prog.loopFrom body' i n a) := by
  intro n
  induction n with
  | zero => intro i a _; exact pure rfl
  | succ n ih =>
      intro i a hm
      refine bind (h i a (by omega)) fun r r' hr => ?_
      subst hr
      cases r with
      | inl a' => exact ih (i + 1) a' (by omega)
      | inr c => exact pure rfl

theorem loop {n : Nat} {a : α} {body : Nat → α → Prog σ ε (α ⊕ γ)} {body' : Nat → α → Prog τ ε (α ⊕ γ)}
    (h : ∀ i a, i < n → Twin S Eq (body i a) (body' i a)) :
    Twin S Eq (Prog.loop n a body) (Prog.loop n a body') := loopFrom h n 0 a (by omega)

theorem within {σ' τ' : Type} {S' : σ' → τ' → Prop} {l : Lens σ' σ} {l' : Lens τ' τ} {h : ε → ε'} (hp : Twin S R p q)
    (hget : ∀ s t, S' s t → S (l.get s) (l'.get t))
    (hset : ∀ s t s₁ t₁, S' s t → S s₁ t₁ → S' (l.set s₁ s) (l'.set t₁ t)) :
    Twin S' R (Prog.within l h p) (Prog.within l' h q) := by
  intro s t hs
  obtain ⟨hr, hs₁⟩ := hp _ _ (hget s t hs)
  unfold Prog.within
  rcases hps : p (l.get s) with ⟨r, s₁⟩
  rcases hqt : q (l'.get t) with ⟨r', t₁⟩
  rw [hps, hqt] at hr hs₁
  cases hr with
  | ok hab => exact ⟨.ok hab, hset s t s₁ t₁ hs hs₁⟩
  | error e => exact ⟨.error (h e), hset s t s₁ t₁ hs hs₁⟩

/-- 同じ値を返す二つの実行。 -/
theorem result {p : Prog σ ε α} {q : Prog τ ε α} (h : Twin S Eq p q) {s : σ} {t : τ} (hs : S s t) :
    (p s).1 = (q t).1 := (h s t hs).1.eq

end Twin

end OwStorage.Lib.Prog
