import OwStorage.Owfs.Run
import OwStorage.Owfs.Lemmas.Superblock

/-!
# 読むだけの計算と、旗の操作
-/

namespace OwStorage.Owfs

open Lib Prog

/-! ## 読むだけの計算 -/

/-- 装置の時計のほかは同じである。 -/
def Still (v v' : Vol) : Prop := ∃ c, v' = v.atClock c

instance : IsPreorder Vol Still where
  refl v := ⟨v.dev.clock, rfl⟩
  trans := by
    rintro v _ _ ⟨c, rfl⟩ ⟨c', rfl⟩
    exact ⟨c', rfl⟩

theorem still_atClock {v : Vol} {c : Nat} : Still v (v.atClock c) := ⟨c, rfl⟩

theorem still_readBlk (b : UInt32) : Preserves Still (readBlk b) := fun _ =>
  wp_readBlk (fun c _ => ⟨c, rfl⟩) (fun c _ => ⟨c, rfl⟩)

theorem still_bitmapComputeFletcher64 : Preserves Still bitmapComputeFletcher64 := by
  unfold bitmapComputeFletcher64
  refine .bind .get fun v => .bind (.loop fun b s => ?_) fun r => ?_
  · refine .bind (still_readBlk _).attempt fun r => ?_
    cases r <;> exact .pure _
  · cases r <;> exact .pure _

theorem still_bitmapCountFree : Preserves Still bitmapCountFree := by
  unfold bitmapCountFree
  refine .bind .get fun v => .bind (.loop fun b s => ?_) fun r => ?_
  · refine .bind (still_readBlk _).attempt fun r => ?_
    cases r <;> exact .pure _
  · cases r <;> exact .pure _

theorem still_inodeLoad (n : UInt32) : Preserves Still (inodeLoad n) := by
  unfold inodeLoad
  exact .bind .get fun _ => .bind (.failIf _ _) fun _ => .bind (still_readBlk _) fun _ => .pure _

theorem still_inodeRead (n : UInt32) : Preserves Still (inodeRead n) := by
  unfold inodeRead
  exact .bind (still_inodeLoad n) fun _ => .bind (.failIf _ _) fun _ => .pure _

/-! ## 検査の途中 -/

/-- 検査の計算のうち、装置の時計と誤りの数だけを変えるもの。 -/
def StillCheck : CheckState → CheckState → Prop := Order.Preimage CheckState.volLens.get Still

instance : IsPreorder CheckState StillCheck := inferInstanceAs (IsPreorder _ (Order.Preimage _ _))

theorem still_checkVol {α : Type} {p : OwfsM α} (h : Preserves Still p) : Preserves StillCheck (checkVol p) :=
  h.within

theorem still_countCorrupt : Preserves StillCheck countCorrupt := fun s => refl_of Still s.vol

theorem still_checkInodes : Preserves StillCheck checkInodes := by
  unfold checkInodes
  refine .bind .get fun s => .forUpto fun i => .bind (still_checkVol (still_inodeRead _)).attempt fun r => ?_
  cases r with
  | ok _ => exact .pure _
  | error e => cases e <;> exact still_countCorrupt

theorem still_scanVolume : Preserves StillCheck scanVolume := by
  unfold scanVolume
  refine .bind still_checkInodes fun _ => .bind (still_checkVol still_bitmapComputeFletcher64) fun _ =>
    .bind .get fun _ => .bind (.whenever still_countCorrupt) fun _ =>
    .bind (still_checkVol still_bitmapCountFree) fun _ => .whenever still_countCorrupt

@[simp] theorem wp_checkVol {α : Type} {p : OwfsM α} {s : CheckState} {Q : α → CheckState → Prop}
    {E : OwfsErr → CheckState → Prop} :
    wp (checkVol p) Q E s ↔
      wp p (fun a v => Q a { s with vol := v }) (fun e v => E e { s with vol := v }) s.vol := wp_within

@[simp] theorem wp_countCorrupt {s : CheckState} {Q : Unit → CheckState → Prop}
    {E : OwfsErr → CheckState → Prop} :
    wp countCorrupt Q E s ↔ Q () { s with corruptCount := s.corruptCount + 1 } := Iff.rfl

theorem wp_runCheck {v : Vol} {Q : Unit → Vol → Prop} {E : OwfsErr → Vol → Prop} :
    wp runCheck Q E v ↔ wp consistencyCheck (fun a s => Q a s.vol) (fun e s => E e s.vol) ⟨v, 0⟩ := by
  unfold wp runCheck
  rcases consistencyCheck ⟨v, 0⟩ with ⟨r, s⟩
  cases r <;> rfl

end OwStorage.Owfs
