import OwStorage.Owfs.Lemmas.Catalog

/-!
# 操作が書き換えない inode

生きている inode は、それを書き換えるよう求められた操作のほかでは変わらない。割り当ては生きているスロットを渡さず、作成の
後始末は、いま割り当てた inode だけを解放するからである。
-/

namespace OwStorage.Owfs

open Lib Prog

/-- データの操作が書き換えを求める inode。 -/
def DataOp.writes : DataOp → Option UInt32
  | inodeFree _ n => some n
  | catalogCreate _ parent _ _ => some parent
  | catalogMkdir _ parent _ _ => some parent
  | catalogInsert _ catalog _ _ _ _ => some catalog
  | catalogRemove _ catalog _ _ => some catalog
  | fileWrite _ n _ _ _ _ => some n
  | fileTruncate _ n _ => some n
  | _ => none

section

variable {c : UInt32} {v : Vol} {who : OwIdentity} {name : Option (List UInt8)} {nameLen : Nat} {entryType : UInt8}

/-- 割り当ても作成も、生きているスロット `c` を書き換えない。 -/
theorem moved_inodeAlloc (hr : Ready v) (hlive : slotVacant (inodeAt v.dev.disk v.sb c) = false) (parent : UInt32) :
    Moved {c}ᶜ v (inodeAlloc who entryType name nameLen parent v).2 := by
  refine wp.state (I := fun v' => Moved {c}ᶜ v v') ((inodeAlloc_spec hr who entryType name nameLen parent).mono ?_ ?_)
  · intro n v₁ halloc
    exact halloc.moved.mono (Set.singleton_subset_iff.mpr (halloc.ne_of_live hlive))
  · intro _ v₁ hs
    exact hs.upholds hr

/-- 作成の後始末は、いま割り当てた inode `n` だけを書き換える。 -/
theorem upholds_undo {n : UInt32} {T : Set UInt32} (hT : ({n} : Set UInt32) ⊆ T) (e : OwfsErr) :
    Preserves (Upholds T) (do
      let _ ← Prog.attempt (ε := OwfsErr) (inodeFree who n)
      Prog.throw e : OwfsM UInt32) :=
  .bind (upholds_mono (upholds_inodeFree _ _) hT).attempt fun _ => .throw _

theorem moved_catalogMake (hr : Ready v) (hlive : slotVacant (inodeAt v.dev.disk v.sb c) = false) {parent : UInt32}
    (hp : parent ≠ c) : Moved {c}ᶜ v (catalogMake who entryType parent name nameLen v).2 := by
  refine wp.state (I := fun v' => Moved {c}ᶜ v v') ?_
  unfold catalogMake
  rw [wp_bind]
  refine (inodeAlloc_spec hr who entryType name nameLen parent).mono ?_ (fun _ _ hs => hs.upholds hr)
  intro n v₁ halloc
  have hsub : ({n} : Set UInt32) ⊆ {c}ᶜ := Set.singleton_subset_iff.mpr (halloc.ne_of_live hlive)
  have hfirst := halloc.moved.mono hsub
  rw [wp_bind, wp_attempt]
  have hinsert : Preserves (Upholds {c}ᶜ) (catalogInsert who parent name nameLen n entryType) :=
    upholds_mono (upholds_catalogInsert _ _ _ _ _ _) (Set.singleton_subset_iff.mpr hp)
  refine (hinsert v₁).mono (fun _ _ hu => hfirst.trans (hu hfirst.ready) hr.sound) ?_
  intro e v₂ hu
  have hsecond := hfirst.trans (hu hfirst.ready) hr.sound
  exact (upholds_undo hsub e v₂).mono (fun _ _ hu => hsecond.trans (hu hsecond.ready) hr.sound)
    (fun _ _ hu => hsecond.trans (hu hsecond.ready) hr.sound)

/-- 生きているカタログは、それを書き換えない操作で変わらない。 -/
theorem moved_of_dataOp (hr : Ready v) (hlive : slotVacant (inodeAt v.dev.disk v.sb c) = false) (op : DataOp)
    (hop : op.writes ≠ some c) : Moved {c}ᶜ v (op.run v).2 := by
  have hsub : ∀ {n : UInt32}, some n ≠ some c → ({n} : Set UInt32) ⊆ {c}ᶜ :=
    fun hne => Set.singleton_subset_iff.mpr fun he => hne (congrArg some he)
  cases op with
  | inodeAlloc who entryType name nameLen parent =>
      unfold DataOp.run
      rw [discard_state]
      exact moved_inodeAlloc hr hlive parent
  | inodeFree who n => exact hr.after (upholds_mono (upholds_inodeFree who n) (hsub hop))
  | inodeRead n => exact hr.after (upholds_discard (upholds_of_still (still_inodeRead n)))
  | catalogCreate who parent name nameLen =>
      unfold DataOp.run
      rw [discard_state]
      exact moved_catalogMake hr hlive fun he => hop (congrArg some he)
  | catalogMkdir who parent name nameLen =>
      unfold DataOp.run
      rw [discard_state]
      exact moved_catalogMake hr hlive fun he => hop (congrArg some he)
  | catalogInsert who catalog name nameLen target entryType =>
      exact hr.after (upholds_mono (upholds_catalogInsert who catalog name nameLen target entryType) (hsub hop))
  | catalogRemove who catalog name nameLen =>
      exact hr.after (upholds_mono (upholds_catalogRemove who catalog name nameLen) (hsub hop))
  | catalogLookup who catalog name nameLen =>
      exact hr.after (upholds_discard (upholds_of_still (still_catalogLookup who catalog name nameLen)))
  | catalogList who catalog maxEntries =>
      exact hr.after (upholds_discard (upholds_of_still (still_catalogList who catalog maxEntries)))
  | fileRead who n offset len =>
      exact hr.after (upholds_of_still ((still_inodeRead n).bind fun ino =>
        (still_fileRead who ino offset len).bind fun _ => .pure _))
  | fileWrite who n buf offset len fits => exact hr.after (upholds_mono (upholds_fileWrite who n fits) (hsub hop))
  | fileTruncate who n newSize => exact hr.after (upholds_mono (upholds_fileTruncate who n newSize) (hsub hop))

end

/-! ## 書かない操作 -/

/-- 装置に書かない操作。 -/
def DataOp.readOnly : DataOp → Bool
  | inodeRead .. | catalogLookup .. | catalogList .. | fileRead .. => true
  | _ => false

theorem still_readOnly {op : DataOp} (h : op.readOnly = true) : Preserves Still op.run := by
  cases op with
  | inodeRead n => exact (still_inodeRead n).bind fun _ => .pure _
  | catalogLookup who catalog name nameLen => exact (still_catalogLookup _ _ _ _).bind fun _ => .pure _
  | catalogList who catalog maxEntries => exact (still_catalogList _ _ _).bind fun _ => .pure _
  | fileRead who n offset len =>
      exact (still_inodeRead n).bind fun ino => (still_fileRead who ino offset len).bind fun _ => .pure _
  | _ => cases h

end OwStorage.Owfs
