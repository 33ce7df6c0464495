import OwStorage.Owfs.Lemmas.Catalog

/-!
# 時計によらない計算

失敗のない装置では、読むだけの計算の結果は、いつ動かしても同じである。表やカタログの中身がどう壊れていてもよい。
-/

namespace OwStorage.Owfs

open Lib Prog

/-- いつ動かしても、時計のほかは何も変えずに、同じ結果を返す。 -/
def Steady {α : Type} (v : Vol) (p : OwfsM α) : Prop := ∀ c, ∃ c', p (v.atClock c) = ((p v).1, v.atClock c')

namespace Steady

variable {α β : Type} {v : Vol} {p : OwfsM α} {f : α → OwfsM β}

theorem pure (a : α) : Steady v (pure a : OwfsM α) := fun c => ⟨c, rfl⟩

theorem throw (e : OwfsErr) : Steady v (Prog.throw e : OwfsM α) := fun c => ⟨c, rfl⟩

theorem failIf (c : Prop) [Decidable c] (e : OwfsErr) : Steady v (Prog.failIf c e) := by
  unfold Prog.failIf
  by_cases h : c
  · rw [if_pos h]
    exact .throw e
  · rw [if_neg h]
    exact .pure ()

theorem get_bind {f : Vol → OwfsM β} (hsame : ∀ c, f (v.atClock c) = f v) (h : Steady v (f v)) :
    Steady v (Prog.get >>= f) := by
  intro c
  obtain ⟨c', hrun⟩ := h c
  have hget : (Prog.get >>= f) (v.atClock c) = f (v.atClock c) (v.atClock c) := rfl
  exact ⟨c', by rw [hget, hsame c]; exact hrun⟩

theorem bind (hp : Steady v p) (hf : ∀ a, Steady v (f a)) : Steady v (p >>= f) := by
  intro c
  obtain ⟨c₁, h₁⟩ := hp c
  obtain ⟨c₀, h₀⟩ := hp v.dev.clock
  have h₀ : p v = ((p v).1, v.atClock c₀) := h₀
  cases hr : (p v).1 with
  | ok a =>
      rw [hr] at h₀ h₁
      obtain ⟨c₂, h₂⟩ := hf a c₁
      obtain ⟨c₃, h₃⟩ := hf a c₀
      rw [run_bind h₀ h₃, run_bind h₁ h₂]
      exact ⟨c₂, rfl⟩
  | error e =>
      rw [hr] at h₀ h₁
      rw [run_bind_error h₀, run_bind_error h₁]
      exact ⟨c₁, rfl⟩

theorem attempt (hp : Steady v p) : Steady v (Prog.attempt p : OwfsM (Except OwfsErr α)) := by
  intro c
  obtain ⟨c', h⟩ := hp c
  have hself : p v = ((p v).1, (p v).2) := rfl
  rw [run_attempt h, run_attempt hself]
  exact ⟨c', rfl⟩

theorem readBlk (hff : v.dev.FaultFree) (b : UInt32) : Steady v (readBlk b) := by
  have hspec : ∀ c, wp (Owfs.readBlk b) (fun a v' => a = v.dev.disk b ∧ v.dev.Reads b ∧ ∃ c', v' = v.atClock c')
      (fun e v' => e = .io ∧ ¬ v.dev.Reads b ∧ ∃ c', v' = v.atClock c') (v.atClock c) := fun c =>
    wp_readBlk (fun c' hr => ⟨rfl, hr, c', rfl⟩) (fun c' hno => ⟨rfl, fun hr => hno ⟨hff, hr⟩, c', rfl⟩)
  intro c
  have hv := hspec v.dev.clock
  have hc := hspec c
  cases hrv : (Owfs.readBlk b v).1 with
  | ok a =>
      obtain ⟨rfl, hr, _⟩ := hv.ok (run_eq hrv)
      cases hrc : (Owfs.readBlk b (v.atClock c)).1 with
      | ok a =>
          obtain ⟨rfl, _, c', hs⟩ := hc.ok (run_eq hrc)
          exact ⟨c', Prod.ext hrc hs⟩
      | error e => exact absurd hr (hc.error (run_eq hrc)).2.1
  | error e =>
      obtain ⟨rfl, hno, _⟩ := hv.error (run_eq hrv)
      cases hrc : (Owfs.readBlk b (v.atClock c)).1 with
      | ok a => exact absurd (hc.ok (run_eq hrc)).2.1 hno
      | error e =>
          obtain ⟨rfl, _, c', hs⟩ := hc.error (run_eq hrc)
          exact ⟨c', Prod.ext hrc hs⟩

theorem inodeRead (hff : v.dev.FaultFree) (n : UInt32) : Steady v (inodeRead n) := by
  unfold Owfs.inodeRead inodeLoad
  refine .bind (.get_bind (fun _ => rfl) (.bind (.failIf _ _) fun _ => .bind (.readBlk hff _) fun _ => .pure _))
    fun _ => ?_
  exact .bind (.failIf _ _) fun _ => .pure _

theorem catalogRead (hff : v.dev.FaultFree) (n : UInt32) : Steady v (catalogRead n) :=
  .bind (.inodeRead hff n) fun _ => .bind (.failIf _ _) fun _ => .pure _

theorem inodeHiddenFrom (hff : v.dev.FaultFree) (who : OwIdentity) (n : UInt32) : Steady v (inodeHiddenFrom who n) := by
  unfold Owfs.inodeHiddenFrom
  refine .bind (.attempt (.inodeRead hff n)) fun r => ?_
  cases r with
  | error e => exact .pure _
  | ok ino => exact .pure _

theorem blockmapGet (hff : v.dev.FaultFree) (ino : Inode) (idx : UInt32) : Steady v (blockmapGet ino idx) := by
  unfold Owfs.blockmapGet
  refine .bind (.failIf _ _) fun _ => ?_
  split
  · exact .bind (.failIf _ _) fun _ => .pure _
  · exact .bind (.failIf _ _) fun _ => .bind (.readBlk hff _) fun _ => .bind (.failIf _ _) fun _ => .pure _

theorem wp {Q : α → Vol → Prop} {E : OwfsErr → Vol → Prop} {c : Nat} (h : Steady v p)
    (hok : ∀ a, (p v).1 = .ok a → ∀ c', Q a (v.atClock c'))
    (herr : ∀ e, (p v).1 = .error e → ∀ c', E e (v.atClock c')) :
    Prog.wp p Q E (v.atClock c) := by
  obtain ⟨c', hrun⟩ := h c
  unfold Prog.wp
  rw [hrun]
  cases hr : (p v).1 with
  | ok a => exact hok a hr c'
  | error e => exact herr e hr c'

end Steady

end OwStorage.Owfs
