import Mathlib.Tactic

/-!
# 状態を読み書きし、誤りで終わりうる計算

C の関数は、誤りを返すときも、それまでに書いたものを残す。`Prog σ ε α` はその形の計算である。
事後条件は、値を返したときの条件 `Q` と、誤りを返したときの条件 `E` の二つに分けて書き、
それを満たす事前条件を `wp` とする。繰り返しは `loop` の一つにまとめ、不変条件の規則を一度だけ示す。
-/

namespace OwStorage.Lib

/-- 状態 `σ` を読み書きし、値 `α` か誤り `ε` を返す計算。 -/
def Prog (σ ε α : Type) : Type := σ → Except ε α × σ

namespace Prog

variable {σ τ ε ε' α β γ : Type}

protected def pure (a : α) : Prog σ ε α := fun s => (.ok a, s)

protected def bind (p : Prog σ ε α) (f : α → Prog σ ε β) : Prog σ ε β := fun s =>
  match p s with
  | (.ok a, s') => f a s'
  | (.error e, s') => (.error e, s')

instance : Monad (Prog σ ε) where
  pure := Prog.pure
  bind := Prog.bind

/-- 誤りを返して終わる。 -/
def throw (e : ε) : Prog σ ε α := fun s => (.error e, s)

/-- C の `if (c) return e;`。 -/
def failIf (c : Prop) [Decidable c] (e : ε) : Prog σ ε Unit := if c then throw e else pure ()

/-- C の `if (c) { p }`。 -/
def whenever (c : Prop) [Decidable c] (p : Prog σ ε Unit) : Prog σ ε Unit := if c then p else pure ()

def get : Prog σ ε σ := fun s => (.ok s, s)

def modify (f : σ → σ) : Prog σ ε Unit := fun s => (.ok (), f s)

/-- 結果が誤りでも続ける。返った状態コードを呼び出し側で調べるときに使う。 -/
def attempt (p : Prog σ ε α) : Prog σ ε' (Except ε α) := fun s =>
  match p s with
  | (r, s') => (.ok r, s')

/-- 値か誤りをそのまま返す。 -/
def ofExcept : Except ε α → Prog σ ε α
  | .ok a => pure a
  | .error e => throw e

/-- `for (i = 0; i < n; ++i)` の繰り返し。`inl` で次の回へ進み、`inr` で途中から抜ける。 -/
def loopFrom (body : Nat → β → Prog σ ε (β ⊕ γ)) : Nat → Nat → β → Prog σ ε (β ⊕ γ)
  | _, 0, b => pure (.inl b)
  | i, n + 1, b => do
      match ← body i b with
      | .inl b' => loopFrom body (i + 1) n b'
      | .inr c => pure (.inr c)

def loop (n : Nat) (b : β) (body : Nat → β → Prog σ ε (β ⊕ γ)) : Prog σ ε (β ⊕ γ) :=
  loopFrom body 0 n b

/-- 途中で抜けない繰り返し。 -/
def forUpto (n : Nat) (body : Nat → Prog σ ε Unit) : Prog σ ε Unit := do
  let _ ← loop (γ := Empty) n () fun i _ => do
    body i
    pure (.inl ())
  pure ()

end Prog

/-- 大きい状態 `τ` の中の部分 `σ`。 -/
structure Lens (τ σ : Type) where
  get : τ → σ
  set : σ → τ → τ
  get_set : ∀ s t, get (set s t) = s
  set_get : ∀ t, set (get t) t = t
  set_set : ∀ s s' t, set s (set s' t) = set s t

/-- 状態の全体を部分とみなす。 -/
def Lens.whole (σ : Type) : Lens σ σ where
  get s := s
  set s _ := s
  get_set _ _ := rfl
  set_get _ := rfl
  set_set _ _ _ := rfl

/-- 部分の部分。 -/
def Lens.into {τ σ ρ : Type} (m : Lens τ σ) (l : Lens σ ρ) : Lens τ ρ where
  get t := l.get (m.get t)
  set r t := m.set (l.set r (m.get t)) t
  get_set r t := by rw [m.get_set, l.get_set]
  set_get t := by rw [l.set_get, m.set_get]
  set_set r r' t := by rw [m.get_set, m.set_set, l.set_set]

namespace Prog

variable {σ τ ε ε' α β γ : Type}

/-- 部分の状態だけを使う計算を、誤りを `h` で写しながら、全体の状態の計算とする。 -/
def within (l : Lens τ σ) (h : ε → ε') (p : Prog σ ε α) : Prog τ ε' α := fun t =>
  match p (l.get t) with
  | (.ok a, s') => (.ok a, l.set s' t)
  | (.error e, s') => (.error (h e), l.set s' t)

/-! ## 最も弱い事前条件 -/

/-- `p` を `s` から動かすと、値を返せば `Q` が、誤りを返せば `E` が成り立つ。 -/
def wp (p : Prog σ ε α) (Q : α → σ → Prop) (E : ε → σ → Prop) (s : σ) : Prop :=
  match p s with
  | (.ok a, s') => Q a s'
  | (.error e, s') => E e s'

variable {Q Q' : α → σ → Prop} {R : β → σ → Prop} {E E' : ε → σ → Prop} {s : σ}

@[simp] theorem wp_pure {a : α} : wp (pure a : Prog σ ε α) Q E s ↔ Q a s := Iff.rfl

@[simp] theorem wp_throw {e : ε} : wp (throw e : Prog σ ε α) Q E s ↔ E e s := Iff.rfl

@[simp] theorem wp_get {Q : σ → σ → Prop} : wp (get : Prog σ ε σ) Q E s ↔ Q s s := Iff.rfl

@[simp] theorem wp_modify {f : σ → σ} {Q : Unit → σ → Prop} :
    wp (modify f : Prog σ ε Unit) Q E s ↔ Q () (f s) := Iff.rfl

@[simp] theorem wp_bind {p : Prog σ ε α} {f : α → Prog σ ε β} :
    wp (p >>= f) R E s ↔ wp p (fun a s' => wp (f a) R E s') E s := by
  change wp (Prog.bind p f) R E s ↔ _
  unfold wp Prog.bind
  rcases p s with ⟨r, s'⟩
  cases r <;> rfl

@[simp] theorem wp_failIf {c : Prop} [Decidable c] {e : ε} {Q : Unit → σ → Prop} :
    wp (failIf c e : Prog σ ε Unit) Q E s ↔ (c → E e s) ∧ (¬c → Q () s) := by
  unfold failIf
  by_cases h : c <;> simp [h]

@[simp] theorem wp_whenever {c : Prop} [Decidable c] {p : Prog σ ε Unit} {Q : Unit → σ → Prop} :
    wp (whenever c p) Q E s ↔ (c → wp p Q E s) ∧ (¬c → Q () s) := by
  unfold whenever
  by_cases h : c <;> simp [h]

theorem wp_ite {c : Prop} [Decidable c] {p q : Prog σ ε α} :
    wp (if c then p else q) Q E s ↔ (c → wp p Q E s) ∧ (¬c → wp q Q E s) := by
  by_cases h : c <;> simp [h]

@[simp] theorem wp_ofExcept {r : Except ε α} :
    wp (ofExcept r : Prog σ ε α) Q E s ↔
      (∀ a, r = .ok a → Q a s) ∧ (∀ e, r = .error e → E e s) := by
  cases r <;> simp [ofExcept]

@[simp] theorem wp_attempt {p : Prog σ ε α} {Q : Except ε α → σ → Prop} {E : ε' → σ → Prop} :
    wp (attempt p : Prog σ ε' (Except ε α)) Q E s ↔
      wp p (fun a s' => Q (.ok a) s') (fun e s' => Q (.error e) s') s := by
  unfold wp attempt
  rcases p s with ⟨r, s'⟩
  cases r <;> rfl

@[simp] theorem wp_within {l : Lens τ σ} {h : ε → ε'} {p : Prog σ ε α} {Q : α → τ → Prop}
    {E : ε' → τ → Prop} {t : τ} :
    wp (within l h p) Q E t ↔
      wp p (fun a s' => Q a (l.set s' t)) (fun e s' => E (h e) (l.set s' t)) (l.get t) := by
  unfold wp within
  rcases p (l.get t) with ⟨r, s'⟩
  cases r <;> rfl

/-- 何も求めない事後条件は、いつでも成り立つ。 -/
theorem wp_trivial {p : Prog σ ε α} : wp p (fun _ _ => True) (fun _ _ => True) s := by
  unfold wp
  split <;> trivial

theorem wp.mono {p : Prog σ ε α} (h : wp p Q E s) (hQ : ∀ a s', Q a s' → Q' a s')
    (hE : ∀ e s', E e s' → E' e s') : wp p Q' E' s := by
  unfold wp at h ⊢
  rcases hp : p s with ⟨r, s'⟩
  rw [hp] at h
  cases r with
  | ok a => exact hQ a s' h
  | error e => exact hE e s' h

theorem wp.and {p : Prog σ ε α} (h : wp p Q E s) (h' : wp p Q' E' s) :
    wp p (fun a s' => Q a s' ∧ Q' a s') (fun e s' => E e s' ∧ E' e s') s := by
  unfold wp at h h' ⊢
  rcases hp : p s with ⟨r, s'⟩
  rw [hp] at h h'
  cases r with
  | ok a => exact ⟨h, h'⟩
  | error e => exact ⟨h, h'⟩

/-- 返った値だけが分かっている実行。 -/
theorem run_eq {p : Prog σ ε α} {r : Except ε α} (h : (p s).1 = r) : p s = (r, (p s).2) := Prod.ext h rfl

theorem run_bind {p : Prog σ ε α} {f : α → Prog σ ε β} {a : α} {s' : σ} {r : Except ε β × σ}
    (h : p s = (.ok a, s')) (hf : f a s' = r) : (p >>= f) s = r := by
  change Prog.bind p f s = r
  unfold Prog.bind
  rw [h]
  exact hf

theorem run_bind_error {p : Prog σ ε α} {f : α → Prog σ ε β} {e : ε} {s' : σ} (h : p s = (.error e, s')) :
    (p >>= f) s = (.error e, s') := by
  change Prog.bind p f s = _
  unfold Prog.bind
  rw [h]

theorem run_attempt {p : Prog σ ε α} {r : Except ε α} {s' : σ} (h : p s = (r, s')) :
    (attempt p : Prog σ ε' (Except ε α)) s = (.ok r, s') := by
  unfold attempt
  rw [h]

theorem run_failIf {c : Prop} [Decidable c] {e : ε} (h : ¬ c) : (failIf c e : Prog σ ε Unit) s = (.ok (), s) := by
  unfold failIf
  rw [if_neg h]
  rfl

theorem run_within {l : Lens τ σ} {h : ε → ε'} {p : Prog σ ε α} {t : τ} {a : α} {s' : σ}
    (hp : p (l.get t) = (.ok a, s')) : within l h p t = (.ok a, l.set s' t) := by
  unfold within
  rw [hp]

/-- 実行の結果そのものを、事後条件として使う。 -/
theorem wp_run {p : Prog σ ε α} : wp p (fun a s' => p s = (.ok a, s')) (fun e s' => p s = (.error e, s')) s := by
  unfold wp
  rcases p s with ⟨r, s'⟩
  cases r <;> rfl

/-- 実際に値を返した実行へ、事後条件を当てはめる。 -/
theorem wp.ok {p : Prog σ ε α} (h : wp p Q E s) {a : α} {s' : σ} (hp : p s = (.ok a, s')) :
    Q a s' := by
  unfold wp at h
  rwa [hp] at h

/-- 実際に誤りを返した実行へ、事後条件を当てはめる。 -/
theorem wp.error {p : Prog σ ε α} (h : wp p Q E s) {e : ε} {s' : σ} (hp : p s = (.error e, s')) :
    E e s' := by
  unfold wp at h
  rwa [hp] at h

/-- 値を返すと分かっている実行には、その値の条件だけを示せばよい。 -/
theorem wp_of_run {p : Prog σ ε α} {a : α} {s' : σ} (hp : p s = (.ok a, s')) (h : Q a s') : wp p Q E s := by
  unfold wp
  rwa [hp]

/-- 値を返しても誤りを返しても成り立つ条件を、終わりの状態へ当てはめる。 -/
theorem wp.state {p : Prog σ ε α} {I : σ → Prop} (h : wp p (fun _ => I) (fun _ => I) s) :
    I (p s).2 := by
  unfold wp at h
  rcases hp : p s with ⟨r, s'⟩
  rw [hp] at h
  cases r <;> exact h

/-- 結果と終わりの状態をまとめて述べた条件。 -/
theorem wp.outcome {p : Prog σ ε α} {P : Except ε α → σ → Prop}
    (h : wp p (fun a s' => P (.ok a) s') (fun e s' => P (.error e) s') s) : P (p s).1 (p s).2 := by
  unfold wp at h
  rcases hp : p s with ⟨r, s'⟩
  rw [hp] at h
  cases r <;> exact h

/-- 誤りの事後条件が成り立たないなら、計算は値を返す。 -/
theorem wp.exists_ok {p : Prog σ ε α} (h : wp p Q (fun _ _ => False) s) :
    ∃ a s', p s = (.ok a, s') ∧ Q a s' := by
  unfold wp at h
  rcases hp : p s with ⟨r, s'⟩
  rw [hp] at h
  cases r with
  | ok a => exact ⟨a, s', rfl, h⟩
  | error e => exact h.elim

theorem wp.exists_ok_of {p : Prog σ ε α} (h : wp p Q E s) (hE : ∀ e s', ¬ E e s') : ∃ a s',
    p s = (.ok a, s') ∧ Q a s' :=
  (h.mono (fun _ _ h => h) hE).exists_ok

/-- 値の事後条件が成り立たないなら、計算は誤りを返す。 -/
theorem wp.exists_error {p : Prog σ ε α} (h : wp p (fun _ _ => False) E s) :
    ∃ e s', p s = (.error e, s') ∧ E e s' := by
  unfold wp at h
  rcases hp : p s with ⟨r, s'⟩
  rw [hp] at h
  cases r with
  | ok a => exact h.elim
  | error e => exact ⟨e, s', rfl, h⟩

theorem wp.exists_error_of {p : Prog σ ε α} (h : wp p Q E s) (hQ : ∀ a s', ¬ Q a s') :
    ∃ e s', p s = (.error e, s') ∧ E e s' :=
  (h.mono hQ (fun _ _ h => h)).exists_error

theorem wp_loopFrom {body : Nat → β → Prog σ ε (β ⊕ γ)} {I : Nat → β → σ → Prop}
    {Q : β ⊕ γ → σ → Prop} {m : Nat}
    (hbody : ∀ i b s, i < m → I i b s →
      wp (body i b) (fun r s' => match r with
        | .inl b' => I (i + 1) b' s'
        | .inr c => Q (.inr c) s') E s)
    (hend : ∀ b s, I m b s → Q (.inl b) s) :
    ∀ n i b s, i + n = m → I i b s → wp (loopFrom body i n b) Q E s := by
  intro n
  induction n with
  | zero =>
      intro i b s hm hI
      have him : i = m := by omega
      subst him
      exact hend b s hI
  | succ n ih =>
      intro i b s hm hI
      unfold loopFrom
      rw [wp_bind]
      refine (hbody i b s (by omega) hI).mono ?_ (fun _ _ h => h)
      intro r s' h
      cases r with
      | inl b' => exact ih (i + 1) b' s' (by omega) h
      | inr c => exact h

/-- 繰り返しの不変条件の規則。`I i b` は、`i` 回目の前に成り立つ条件である。 -/
theorem wp_loop {n : Nat} {b : β} {body : Nat → β → Prog σ ε (β ⊕ γ)} {Q : β ⊕ γ → σ → Prop}
    (I : Nat → β → σ → Prop) (h0 : I 0 b s)
    (hbody : ∀ i b s, i < n → I i b s →
      wp (body i b) (fun r s' => match r with
        | .inl b' => I (i + 1) b' s'
        | .inr c => Q (.inr c) s') E s)
    (hend : ∀ b s, I n b s → Q (.inl b) s) : wp (loop n b body) Q E s :=
  wp_loopFrom hbody hend n 0 b s (by omega) h0

theorem wp_forUpto {n : Nat} {body : Nat → Prog σ ε Unit} {Q : Unit → σ → Prop}
    (I : Nat → σ → Prop) (h0 : I 0 s)
    (hbody : ∀ i s, i < n → I i s → wp (body i) (fun _ s' => I (i + 1) s') E s)
    (hend : ∀ s, I n s → Q () s) : wp (forUpto n body) Q E s := by
  unfold forUpto
  rw [wp_bind]
  refine wp_loop (fun i _ s => I i s) h0 ?_ (fun _ s h => hend s h)
  intro i _ s hi hI
  rw [wp_bind]
  exact (hbody i s hi hI).mono (fun _ _ h => h) (fun _ _ h => h)

/-! ## 前後の関係を保つ計算 -/

/-- どこから動かしても、値を返しても誤りを返しても、前後の状態が関係 `R` にある。 -/
def Preserves (R : σ → σ → Prop) (p : Prog σ ε α) : Prop :=
  ∀ s, wp p (fun _ s' => R s s') (fun _ s' => R s s') s

namespace Preserves

variable {R : σ → σ → Prop} [IsPreorder σ R] {p : Prog σ ε α} {f : α → Prog σ ε β}

theorem pure (a : α) : Preserves R (pure a : Prog σ ε α) := fun s => refl_of R s

theorem throw (e : ε) : Preserves R (Prog.throw e : Prog σ ε α) := fun s => refl_of R s

theorem get : Preserves R (Prog.get : Prog σ ε σ) := fun s => refl_of R s

theorem bind (hp : Preserves R p) (hf : ∀ a, Preserves R (f a)) : Preserves R (p >>= f) := by
  intro s
  rw [wp_bind]
  refine (hp s).mono (fun a s' h => ?_) (fun _ _ h => h)
  exact (hf a s').mono (fun _ _ h' => trans_of R h h') (fun _ _ h' => trans_of R h h')

omit [IsPreorder σ R] in
/-- 関係を保つ計算の後に続ける。 -/
theorem wp_bind {Q : β → σ → Prop} {E : ε → σ → Prop} {s : σ} (hp : Preserves R p)
    (hQ : ∀ a s', R s s' → wp (f a) Q E s') (hE : ∀ e s', R s s' → E e s') : wp (p >>= f) Q E s := by
  rw [Prog.wp_bind]
  exact (hp s).mono hQ hE

theorem failIf (c : Prop) [Decidable c] (e : ε) : Preserves R (Prog.failIf c e : Prog σ ε Unit) := by
  unfold Prog.failIf
  by_cases h : c
  · simpa [h] using throw e
  · simpa [h] using pure ()

theorem ofExcept (r : Except ε α) : Preserves R (Prog.ofExcept r : Prog σ ε α) := by
  cases r with
  | ok a => exact pure a
  | error e => exact throw e

omit [IsPreorder σ R] in
theorem attempt (hp : Preserves R p) : Preserves R (Prog.attempt p : Prog σ ε' (Except ε α)) := by
  intro s
  rw [wp_attempt]
  exact hp s

omit [IsPreorder σ R] in
theorem ite {c : Prop} [Decidable c] {q : Prog σ ε α} (hp : Preserves R p) (hq : Preserves R q) :
    Preserves R (if c then p else q) := by
  by_cases h : c
  · simpa [h] using hp
  · simpa [h] using hq

theorem whenever {c : Prop} [Decidable c] {p : Prog σ ε Unit} (hp : Preserves R p) :
    Preserves R (Prog.whenever c p) := ite hp (pure ())

theorem loopFrom {body : Nat → β → Prog σ ε (β ⊕ γ)} (h : ∀ i b, Preserves R (body i b)) :
    ∀ n i b, Preserves R (Prog.loopFrom body i n b) := by
  intro n
  induction n with
  | zero => intro i b; exact pure _
  | succ n ih =>
      intro i b
      refine bind (h i b) fun r => ?_
      cases r with
      | inl b' => exact ih (i + 1) b'
      | inr c => exact pure _

theorem loop {n : Nat} {b : β} {body : Nat → β → Prog σ ε (β ⊕ γ)} (h : ∀ i b, Preserves R (body i b)) :
    Preserves R (Prog.loop n b body) := loopFrom h n 0 b

theorem forUpto {n : Nat} {body : Nat → Prog σ ε Unit} (h : ∀ i, Preserves R (body i)) :
    Preserves R (Prog.forUpto n body) := by
  unfold Prog.forUpto
  exact (loop fun i _ => (h i).bind fun _ => pure _).bind fun _ => pure _

instance {f : τ → σ} : IsPreorder τ (Order.Preimage f R) where
  refl t := refl_of R (f t)
  trans _ _ _ h h' := trans_of R h h'

omit [IsPreorder σ R] in
theorem within {l : Lens τ σ} {h : ε → ε'} (hp : Preserves R p) :
    Preserves (Order.Preimage l.get R) (Prog.within l h p) := by
  intro t
  rw [wp_within]
  refine (hp (l.get t)).mono ?_ ?_ <;>
  · intro _ s' hs
    change R (l.get t) (l.get (l.set s' t))
    rwa [l.get_set]

end Preserves

/-! ## 状態を変えない実行 -/

/-- `s` から動かすと、値を返しても誤りを返しても、状態は `s` のままである。 -/
def Idle (p : Prog σ ε α) (s : σ) : Prop := wp p (fun _ s' => s' = s) (fun _ s' => s' = s) s

namespace Idle

variable {p : Prog σ ε α} {f : α → Prog σ ε β} {s : σ}

theorem pure (a : α) : Idle (pure a : Prog σ ε α) s := rfl

theorem throw (e : ε) : Idle (Prog.throw e : Prog σ ε α) s := rfl

theorem bind (hp : Idle p s) (hf : ∀ a, Idle (f a) s) : Idle (p >>= f) s := by
  unfold Idle
  rw [Prog.wp_bind]
  refine wp.mono hp ?_ (fun _ _ h => h)
  rintro a _ rfl
  exact hf a

theorem get_bind {g : σ → Prog σ ε β} (h : Idle (g s) s) : Idle (Prog.get >>= g) s := h

theorem failIf_bind {c : Prop} [Decidable c] {e : ε} {g : Unit → Prog σ ε β} (h : Idle (g ()) s) :
    Idle (Prog.failIf c e >>= g) s := by
  unfold Idle
  rw [Prog.wp_bind, wp_failIf]
  exact ⟨fun _ => rfl, fun _ => h⟩

/-- 誤りを返すと決まった所で、計算は終わる。 -/
theorem refused {r : Except ε α} (hr : ∀ a, r ≠ .ok a) : Idle (Prog.ofExcept r >>= f) s := by
  unfold Idle
  rw [Prog.wp_bind, wp_ofExcept]
  exact ⟨fun a ha => absurd ha (hr a), fun _ _ => rfl⟩

theorem ofExcept_bind {r : Except ε α} (h : ∀ a, Idle (f a) s) : Idle (Prog.ofExcept r >>= f) s := by
  unfold Idle
  rw [Prog.wp_bind, wp_ofExcept]
  exact ⟨fun a _ => h a, fun _ _ => rfl⟩

/-- 成り立つ条件の所で、計算は終わる。 -/
theorem stopped {c : Prop} [Decidable c] {e : ε} {g : Unit → Prog σ ε β} (hc : c) : Idle (Prog.failIf c e >>= g) s := by
  unfold Idle
  rw [Prog.wp_bind, wp_failIf]
  exact ⟨fun _ => rfl, fun hno => absurd hc hno⟩

theorem attempt (hp : Idle p s) : Idle (Prog.attempt p : Prog σ ε' (Except ε α)) s := by
  unfold Idle
  rw [wp_attempt]
  exact hp

theorem ite {c : Prop} [Decidable c] {q : Prog σ ε α} (hp : Idle p s) (hq : Idle q s) :
    Idle (if c then p else q) s := by
  unfold Idle
  rw [wp_ite]
  exact ⟨fun _ => hp, fun _ => hq⟩

theorem state (hp : Idle p s) : (p s).2 = s := wp.state (I := fun s' => s' = s) hp

end Idle

/-! ## 返さない誤り -/

/-- どこから動かしても、誤り `bad` を返さない。 -/
def Never (bad : ε) (p : Prog σ ε α) : Prop := ∀ s, wp p (fun _ _ => True) (fun e _ => e ≠ bad) s

namespace Never

variable {bad : ε} {p : Prog σ ε α} {f : α → Prog σ ε β}

theorem pure (a : α) : Never bad (pure a : Prog σ ε α) := fun _ => trivial

theorem get : Never bad (Prog.get : Prog σ ε σ) := fun _ => trivial

theorem modify (g : σ → σ) : Never bad (Prog.modify g : Prog σ ε Unit) := fun _ => trivial

theorem throw {e : ε} (h : e ≠ bad) : Never bad (Prog.throw e : Prog σ ε α) := fun _ => h

theorem bind (hp : Never bad p) (hf : ∀ a, Never bad (f a)) : Never bad (p >>= f) := by
  intro s
  rw [Prog.wp_bind]
  exact (hp s).mono (fun a s' _ => hf a s') (fun _ _ h => h)

/-- 失敗を調べてから続ける。 -/
theorem attempt_bind {g : Except ε α → Prog σ ε β} (hp : Never bad p) (hok : ∀ a, Never bad (g (.ok a)))
    (herr : ∀ e, e ≠ bad → Never bad (g (.error e))) : Never bad (Prog.attempt p >>= g) := by
  intro s
  rw [Prog.wp_bind, wp_attempt]
  exact (hp s).mono (fun a s' _ => hok a s') (fun e s' h => herr e h s')

theorem attempt (p : Prog σ ε' α) : Never bad (Prog.attempt p : Prog σ ε (Except ε' α)) := by
  intro s
  rw [wp_attempt]
  exact wp_trivial

theorem failIf {c : Prop} [Decidable c] {e : ε} (h : e ≠ bad) : Never bad (Prog.failIf c e : Prog σ ε Unit) := by
  intro s
  rw [wp_failIf]
  exact ⟨fun _ => h, fun _ => trivial⟩

theorem ite {c : Prop} [Decidable c] {q : Prog σ ε α} (hp : Never bad p) (hq : Never bad q) :
    Never bad (if c then p else q) := by
  intro s
  rw [wp_ite]
  exact ⟨fun _ => hp s, fun _ => hq s⟩

theorem loop {n : Nat} {b : β} {body : Nat → β → Prog σ ε (β ⊕ γ)} (h : ∀ i b, Never bad (body i b)) :
    Never bad (Prog.loop n b body) := by
  intro s
  refine wp_loop (fun _ _ _ => True) trivial (fun i b s' _ _ => ?_) (fun _ _ _ => trivial)
  refine (h i b s').mono (fun r _ _ => ?_) (fun _ _ he => he)
  cases r <;> trivial

theorem forUpto {n : Nat} {body : Nat → Prog σ ε Unit} (h : ∀ i, Never bad (body i)) :
    Never bad (Prog.forUpto n body) :=
  .bind (.loop fun i _ => .bind (h i) fun _ => .pure _) fun _ => .pure _

end Never

end Prog

end OwStorage.Lib
