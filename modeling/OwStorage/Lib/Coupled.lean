import OwStorage.Lib.Twin

/-!
# 二つの実行の三つ組

並んで進む二つの計算が、関係 `S` から始めて、どちらも値を返せば `T` に、どちらも同じ誤りを返せば `E` に入ることを述べる。
`Twin` は三つの関係が同じ場合である。
-/

namespace OwStorage.Lib.Prog

variable {σ τ ε ε' α α' β β' γ : Type} {S S' T T' U E E' : σ → τ → Prop}

/-- 二つの実行の終わり方。 -/
inductive Outcome (T E : σ → τ → Prop) (R : α → β → Prop) : Except ε α × σ → Except ε β × τ → Prop
  | ok {a b s t} (h : R a b) (hs : T s t) : Outcome T E R (.ok a, s) (.ok b, t)
  | error (e) {s t} (hs : E s t) : Outcome T E R (.error e, s) (.error e, t)

/-- `S` から並んで進み、値を返せば `T` に、誤りを返せば `E` に入る。 -/
def Coupled (S T E : σ → τ → Prop) (R : α → β → Prop) (p : Prog σ ε α) (q : Prog τ ε β) : Prop :=
  ∀ s t, S s t → Outcome T E R (p s) (q t)

section

variable {R : α → β → Prop} {p : Prog σ ε α} {q : Prog τ ε β}

theorem Outcome.matched {r : Except ε α × σ} {r' : Except ε β × τ} (h : Outcome T E R r r') : Matched R r.1 r'.1 := by
  cases h with
  | ok h _ => exact .ok h
  | error e _ => exact .error e

/-- どちらの終わり方でも成り立つ関係。 -/
theorem Outcome.state {r : Except ε α × σ} {r' : Except ε β × τ} (h : Outcome S S R r r') : S r.2 r'.2 := by
  cases h with
  | ok _ hs => exact hs
  | error _ hs => exact hs

theorem Twin.coupled (h : Twin S R p q) : Coupled S S S R p q := by
  intro s t hs
  obtain ⟨hr, hs'⟩ := h s t hs
  rcases hp : p s with ⟨r, s'⟩
  rcases hq : q t with ⟨r', t'⟩
  rw [hp, hq] at hr hs'
  cases hr with
  | ok hab => exact .ok hab hs'
  | error e => exact .error e hs'

theorem Twin.ite {c : Prop} [Decidable c] {p₁ : Prog σ ε α} {q₁ : Prog τ ε β} (h : c → Twin S R p q)
    (h₁ : ¬ c → Twin S R p₁ q₁) : Twin S R (if c then p else p₁) (if c then q else q₁) := by
  by_cases hc : c
  · rw [if_pos hc, if_pos hc]
    exact h hc
  · rw [if_neg hc, if_neg hc]
    exact h₁ hc

end

/-- 同じ条件のときだけ行う計算。 -/
theorem Twin.whenever {c : Prop} [Decidable c] {p : Prog σ ε Unit} {q : Prog τ ε Unit} (h : c → Twin S Eq p q) :
    Twin S Eq (Prog.whenever c p) (Prog.whenever c q) := Twin.ite h fun _ => Twin.pure rfl

namespace Coupled

variable {R R₁ : α → β → Prop} {R' : α' → β' → Prop} {p : Prog σ ε α} {q : Prog τ ε β}

theorem twin (h : Coupled S S S R p q) : Twin S R p q := fun s t hs => ⟨(h s t hs).matched, (h s t hs).state⟩

theorem mono (h : Coupled S T E R p q) (hS : ∀ s t, S' s t → S s t) (hT : ∀ s t, T s t → T' s t)
    (hE : ∀ s t, E s t → E' s t) (hR : ∀ a b, R a b → R₁ a b) : Coupled S' T' E' R₁ p q := by
  intro s t hs
  have h := h s t (hS s t hs)
  generalize p s = r at h ⊢
  generalize q t = r' at h ⊢
  cases h with
  | ok hab hs' => exact .ok (hR _ _ hab) (hT _ _ hs')
  | error e hs' => exact .error e (hE _ _ hs')

theorem pure {a : α} {b : β} (h : R a b) : Coupled S S E R (pure a : Prog σ ε α) (pure b : Prog τ ε β) :=
  fun _ _ hs => .ok h hs

theorem throw (e : ε) : Coupled E T E R (Prog.throw e : Prog σ ε α) (Prog.throw e : Prog τ ε β) :=
  fun _ _ hs => .error e hs

theorem bind {f : α → Prog σ ε α'} {g : β → Prog τ ε β'} (h : Coupled S T E R p q)
    (hf : ∀ a b, R a b → Coupled T U E R' (f a) (g b)) : Coupled S U E R' (p >>= f) (q >>= g) := by
  intro s t hs
  have h := h s t hs
  rcases hp : p s with ⟨r, s'⟩
  rcases hq : q t with ⟨r', t'⟩
  rw [hp, hq] at h
  cases h with
  | ok hab hs' =>
      rw [run_bind hp rfl, run_bind hq rfl]
      exact hf _ _ hab s' t' hs'
  | error e hs' =>
      rw [run_bind_error hp, run_bind_error hq]
      exact .error e hs'

/-- 始めの状態どうしの関係を使って、計算を進める。 -/
theorem get_bind {f : σ → Prog σ ε α'} {g : τ → Prog τ ε β'} (hf : ∀ s t, S s t → Coupled S T E R' (f s) (g t)) :
    Coupled S T E R' (Prog.get >>= f) (Prog.get >>= g) := fun s t hs => hf s t hs s t hs

/-- 始めの状態そのものを覚えて、計算を進める。 -/
theorem get_bind_at {f : σ → Prog σ ε α'} {g : τ → Prog τ ε β'}
    (hf : ∀ s t, S s t → Coupled (fun s' t' => s' = s ∧ t' = t) T E R' (f s) (g t)) :
    Coupled S T E R' (Prog.get >>= f) (Prog.get >>= g) := fun s t hs => hf s t hs s t ⟨rfl, rfl⟩

theorem failIf {c c' : Prop} [Decidable c] [Decidable c'] {e : ε} {f : Unit → Prog σ ε α'} {g : Unit → Prog τ ε β'}
    (h : c ↔ c') (hE : ∀ s t, S s t → E s t) (hf : ¬ c → Coupled S T E R' (f ()) (g ())) :
    Coupled S T E R' (Prog.failIf c e >>= f) (Prog.failIf c' e >>= g) := by
  unfold Prog.failIf
  by_cases hc : c
  · rw [if_pos hc, if_pos (h.mp hc)]
    exact fun s t hs => .error e (hE s t hs)
  · rw [if_neg hc, if_neg fun hc' => hc (h.mpr hc')]
    exact hf hc

/-- 結果の場合ごとに続ける。誤りのときは、誤りのときの関係から続ける。 -/
theorem attempt_bind {f : Except ε α → Prog σ ε' α'} {g : Except ε β → Prog τ ε' β'} (h : Coupled S T E R p q)
    (hok : ∀ a b, R a b → Coupled T U E' R' (f (.ok a)) (g (.ok b)))
    (herr : ∀ e, Coupled E U E' R' (f (.error e)) (g (.error e))) :
    Coupled S U E' R' (Prog.attempt p >>= f) (Prog.attempt q >>= g) := by
  intro s t hs
  have h := h s t hs
  rcases hp : p s with ⟨r, s'⟩
  rcases hq : q t with ⟨r', t'⟩
  rw [hp, hq] at h
  rw [run_bind (run_attempt hp) rfl, run_bind (run_attempt hq) rfl]
  cases h with
  | ok hab hs' => exact hok _ _ hab s' t' hs'
  | error e hs' => exact herr e s' t' hs'

/-- 途中で抜けない繰り返し。`i` 回目の前に `I i` が成り立つ。 -/
theorem loopFrom {I : Nat → σ → τ → Prop} {body : Nat → Unit → Prog σ ε (Unit ⊕ Empty)}
    {body' : Nat → Unit → Prog τ ε (Unit ⊕ Empty)} {m : Nat}
    (h : ∀ i, i < m → Coupled (I i) (I (i + 1)) E Eq (body i ()) (body' i ())) : ∀ n i, i + n = m →
      Coupled (I i) (I m) E Eq (Prog.loopFrom body i n ()) (Prog.loopFrom body' i n ()) := by
  intro n
  induction n with
  | zero =>
      rintro i rfl
      exact pure rfl
  | succ n ih =>
      intro i hm
      refine bind (h i (by omega)) fun r r' hr => ?_
      subst hr
      cases r with
      | inl _ => exact ih (i + 1) (by omega)
      | inr c => exact c.elim

theorem forUpto {I : Nat → σ → τ → Prop} {n : Nat} {body : Nat → Prog σ ε Unit} {body' : Nat → Prog τ ε Unit}
    (h : ∀ i, i < n → Coupled (I i) (I (i + 1)) E Eq (body i) (body' i)) :
    Coupled (I 0) (I n) E Eq (Prog.forUpto n body) (Prog.forUpto n body') := by
  refine bind (loopFrom (fun i hi => ?_) n 0 (by omega)) fun _ _ _ => pure rfl
  exact bind (h i hi) fun _ _ _ => pure rfl

theorem within {σ' τ' : Type} {V W F : σ' → τ' → Prop} {l : Lens σ' σ} {l' : Lens τ' τ} {h : ε → ε'}
    (hp : Coupled S T E R p q) (hget : ∀ s t, V s t → S (l.get s) (l'.get t))
    (hok : ∀ s t s₁ t₁, V s t → T s₁ t₁ → W (l.set s₁ s) (l'.set t₁ t))
    (herr : ∀ s t s₁ t₁, V s t → E s₁ t₁ → F (l.set s₁ s) (l'.set t₁ t)) :
    Coupled V W F R (Prog.within l h p) (Prog.within l' h q) := by
  intro s t hs
  have hp := hp _ _ (hget s t hs)
  unfold Prog.within
  generalize p (l.get s) = r at hp ⊢
  generalize q (l'.get t) = r' at hp ⊢
  cases hp with
  | ok hab hs₁ => exact .ok hab (hok _ _ _ _ hs hs₁)
  | error e hs₁ => exact .error (h e) (herr _ _ _ _ hs hs₁)

/-- 一方の実行について分かっていることを、関係に加える。 -/
theorem and_left {I J : σ → Prop} (h : Coupled S T E R p q)
    (hI : ∀ s, I s → wp p (fun _ s' => J s') (fun _ _ => True) s) :
    Coupled (fun s t => S s t ∧ I s) (fun s t => T s t ∧ J s) E R p q := by
  intro s t hs
  have h := h s t hs.1
  have hw := hI s hs.2
  unfold wp at hw
  generalize p s = r at h hw ⊢
  generalize q t = r' at h ⊢
  cases h with
  | ok hab hs' => exact .ok hab ⟨hs', hw⟩
  | error e hs' => exact .error e hs'

end Coupled

end OwStorage.Lib.Prog
