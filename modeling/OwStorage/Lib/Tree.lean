import Mathlib.Tactic
import Mathlib.Logic.Function.Iterate

/-!
# 親をたどる木

節のそれぞれが親を一つ持つ。葉を加えても葉を除いても、残りの節から根に着くことは変わらない。
-/

namespace OwStorage.Lib

/-- 親をたどって `r` に着く。`par i` が `none` なら、節 `i` はない。 -/
inductive Reaches {ι : Type} (par : ι → Option ι) (r : ι) : ι → Prop
  | root : Reaches par r r
  | step {i p : ι} (h : par i = some p) (hp : Reaches par r p) : Reaches par r i

section

variable {ι : Type} {par : ι → Option ι} {r i x : ι}

/-- 着くまでの回数がある。 -/
theorem Reaches.iterate {f : ι → ι} (hf : ∀ i p, par i = some p → f i = p) (h : Reaches par r i) : ∃ n,
    f^[n] i = r := by
  induction h with
  | root => exact ⟨0, rfl⟩
  | step h _ ih =>
      obtain ⟨n, hn⟩ := ih
      exact ⟨n + 1, by rw [Function.iterate_succ_apply, hf _ _ h, hn]⟩

variable [DecidableEq ι]

/-- なかった節を加えても、もとの節からの道は残る。 -/
theorem Reaches.insert (h : Reaches par r i) (hx : par x = none) (y : Option ι) :
    Reaches (Function.update par x y) r i := by
  induction h with
  | root => exact .root
  | @step i p h _ ih =>
      refine .step ?_ ih
      rw [Function.update_of_ne ?_, h]
      rintro rfl
      rw [hx] at h
      cases h

/-- 葉を除いても、ほかの節からの道は残る。 -/
theorem Reaches.erase (h : Reaches par r i) (hleaf : ∀ j, par j ≠ some x) (hi : i ≠ x) :
    Reaches (Function.update par x none) r i := by
  induction h with
  | root => exact .root
  | @step i p h _ ih =>
      refine .step (p := p) ?_ (ih fun hp => hleaf i (by rw [h, hp]))
      rw [Function.update_of_ne hi, h]

end

end OwStorage.Lib
