import Mathlib.Tactic

/-!
# 参照と資源

生きている参照 `live` が、それぞれ別の資源を指し、指された資源はどれも使用中である。資源の二重の割り当ては、
この二つの条件に反することとして表れる。
-/

namespace OwStorage.Lib

/-- 参照はどれも別の使用中の資源を指す。 -/
structure Owns {ρ β : Type} (live : Set ρ) (tgt : ρ → β) (used : Set β) : Prop where
  injOn : Set.InjOn tgt live
  mapsTo : Set.MapsTo tgt live used

namespace Owns

variable {ρ β : Type} {live live' : Set ρ} {tgt tgt' : ρ → β} {used used' : Set β} {r : ρ} {b : β}

/-- 参照が減り、残った参照の指す先が変わらず、使用中のままである。 -/
theorem transfer (h : Owns live tgt used)
    (h' : ∀ x ∈ live', x ∈ live ∧ tgt' x = tgt x ∧ tgt x ∈ used') : Owns live' tgt' used' := by
  refine ⟨fun x hx y hy hxy => ?_, fun x hx => ?_⟩
  · obtain ⟨hxl, hxt, _⟩ := h' x hx
    obtain ⟨hyl, hyt, _⟩ := h' y hy
    rw [hxt, hyt] at hxy
    exact h.injOn hxl hyl hxy
  · obtain ⟨_, hxt, hxu⟩ := h' x hx
    rw [hxt]
    exact hxu

/-- どの参照も指していない資源 `b` を指す参照 `r` を加える。 -/
theorem extend (h : Owns live tgt used) (hb : ∀ x ∈ live, tgt x ≠ b) (hb' : b ∈ used')
    (h' : ∀ x ∈ live', (x = r ∧ tgt' x = b) ∨ (x ∈ live ∧ tgt' x = tgt x ∧ tgt x ∈ used')) :
    Owns live' tgt' used' := by
  refine ⟨fun x hx y hy hxy => ?_, fun x hx => ?_⟩
  · rcases h' x hx with ⟨rfl, hxb⟩ | ⟨hxl, hxt, _⟩ <;> rcases h' y hy with ⟨rfl, hyb⟩ | ⟨hyl, hyt, _⟩
    · rfl
    · rw [hxb, hyt] at hxy
      exact absurd hxy.symm (hb y hyl)
    · rw [hxt, hyb] at hxy
      exact absurd hxy (hb x hxl)
    · rw [hxt, hyt] at hxy
      exact h.injOn hxl hyl hxy
  · rcases h' x hx with ⟨_, hxb⟩ | ⟨_, hxt, hxu⟩
    · rw [hxb]
      exact hb'
    · rw [hxt]
      exact hxu

/-- 別の参照は別の資源を指す。 -/
theorem ne (h : Owns live tgt used) {x y : ρ} (hx : x ∈ live) (hy : y ∈ live) (hne : x ≠ y) :
    tgt x ≠ tgt y := fun he => hne (h.injOn hx hy he)

end Owns

end OwStorage.Lib
