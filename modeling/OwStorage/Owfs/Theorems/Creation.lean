import OwStorage.Owfs.Lemmas.Check

/-!
# 作成と親のカタログ

作成は、先に inode を割り当て、それから親を調べる。だから、割り当てが変えた後の親を見ることがあり、消されたカタログや、
いま割り当てた inode 自身が親として通る。成功した作成が約束を守るのは、呼び出しの前に親のスロットが生きているとき、
またそのときに限る。
-/

namespace OwStorage.Owfs

open Lib Prog

/-- カタログの下に作る操作。 -/
inductive MakeOp where
  | create
  | mkdir
  deriving DecidableEq

def MakeOp.run : MakeOp → OwIdentity → UInt32 → Option (List UInt8) → Nat → OwfsM UInt32
  | create => catalogCreate
  | mkdir => catalogMkdir

def MakeOp.entryType : MakeOp → UInt8
  | create => entryFile
  | mkdir => entryCatalog

theorem MakeOp.run_eq (op : MakeOp) : op.run = fun who => catalogMake who op.entryType := by
  cases op <;> rfl

/-- 主体 `who` が書いてよい生きたカタログ `parent` の下に、名前 `x` で別の inode `n` が作られた。 -/
structure CreatedUnder (who : OwIdentity) (v v' : Vol) (parent n : UInt32) (x : List UInt8) : Prop where
  inTable : parent.toNat < v.sb.totalInodes.toNat
  live : slotVacant (inodeAt v.dev.disk v.sb parent) = false
  catalog : (inodeAt v.dev.disk v.sb parent).entryType &&& entryCatalog ≠ 0
  access : owSecAccess who (inodeAt v.dev.disk v.sb parent).permissions (inodeAt v.dev.disk v.sb parent).ownerUid
    (inodeAt v.dev.disk v.sb parent).ownerGid accessWrite = true
  distinct : n ≠ parent
  listed : ∃ a ∈ contents v' parent, a.storedName = x ∧ a.inodeNumber = n

theorem access_of_check {who : OwIdentity} {ino : Inode} {want : UInt8} (h : inodeAccessCheck who ino want = .ok ()) :
    owSecAccess who ino.permissions ino.ownerUid ino.ownerGid want = true := by
  unfold inodeAccessCheck at h
  split_ifs at h with hno
  simpa using hno

section

variable {v v' v₁ : Vol} {n parent : UInt32} {who : OwIdentity} {entryType : UInt8} {name : Option (List UInt8)}
  {nameLen : Nat}

/-- 成功した作成は、割り当てと登録の二つからなる。 -/
theorem catalogMake_ok (hr : Ready v) (hrun : catalogMake who entryType parent name nameLen v = (.ok n, v')) :
    ∃ v₁, Allocated who entryType name nameLen parent v v₁ n ∧
      Inserted who v₁ v' parent name nameLen n entryType := by
  have hwp : wp (catalogMake who entryType parent name nameLen)
      (fun n v' => ∃ v₁, Allocated who entryType name nameLen parent v v₁ n ∧
        Inserted who v₁ v' parent name nameLen n entryType) (fun _ _ => True) v := by
    unfold catalogMake
    rw [wp_bind]
    refine (inodeAlloc_spec hr who entryType name nameLen parent).mono ?_ (fun _ _ _ => trivial)
    intro m v₁ halloc
    rw [wp_bind, wp_attempt]
    refine (catalogInsert_spec halloc.moved.ready who parent name nameLen m entryType).mono ?_ ?_
    · intro _ v₂ hins
      exact ⟨v₁, halloc, hins⟩
    · intro e v₂ _
      rw [wp_bind]
      exact wp_trivial.mono (fun _ _ _ => trivial) (fun _ _ _ => trivial)
  exact hwp.ok hrun

theorem createdUnder_of_live (hr : Ready v) (hname : HoldsName name nameLen)
    (hrun : catalogMake who entryType parent name nameLen v = (.ok n, v'))
    (hlive : slotVacant (inodeAt v.dev.disk v.sb parent) = false) :
    CreatedUnder who v v' parent n (nameBytes name nameLen) := by
  obtain ⟨v₁, halloc, hins⟩ := catalogMake_ok hr hrun
  have hne := halloc.ne_of_live hlive
  have hp : parent.toNat < v.sb.totalInodes.toNat := by
    rw [← halloc.moved.carry.shape.totalInodes]
    exact hins.opens.inTable
  have hrow := halloc.moved.spares.record parent hp (fun h => hne h.symm)
  have hproper := hins.admissible.proper
  refine ⟨hp, hlive, ?_, ?_, hne, freshEntry n entryType name nameLen, ?_, ?_, rfl⟩
  · rw [← hrow]
    exact hins.opens.catalog
  · rw [← hrow]
    exact access_of_check hins.opens.access
  · exact hins.listed.contents.mem_iff.mpr List.mem_cons_self
  · exact storedName_freshEntry hname hproper.given hproper.short

end

/-- 成功した作成が約束を守るのは、呼び出しの前に親のスロットが生きているときに限る。 -/
theorem created_under_catalog_iff {d₀ d : HtlDevice} {totalBlocks : UInt32} {label : Option (List UInt8)} {v₀ v' : Vol}
    (hff : d₀.FaultFree) (hformat : formatVolume totalBlocks label d₀ = (.ok (), d)) (hopen : Opened d v₀)
    (ops : List DataOp) (op : MakeOp) (who : OwIdentity) (parent n : UInt32) {name : Option (List UInt8)}
    {nameLen : Nat} (hname : HoldsName name nameLen)
    (hrun : op.run who parent name nameLen (final DataOp.run ops v₀) = (.ok n, v')) :
    CreatedUnder who (final DataOp.run ops v₀) v' parent n (nameBytes name nameLen) ↔
      slotVacant (inodeAt (final DataOp.run ops v₀).dev.disk (final DataOp.run ops v₀).sb parent) = false := by
  have hr : Ready (final DataOp.run ops v₀) := final_invariant (I := Ready)
    (fun op _ hr => (hr.after (upholds_dataOp op)).ready) ops (ready_of_opened hff hformat hopen)
  rw [op.run_eq] at hrun
  exact ⟨fun h => h.live, createdUnder_of_live hr hname hrun⟩

/-! ## 小さなボリュームの例 -/

/-- 特権の主体による作成の実行。 -/
theorem catalogMake_run {v v₁ v₂ v₃ : Vol} {who : OwIdentity} {entryType : UInt8} {parent n : UInt32}
    {name : Option (List UInt8)} {nameLen : Nat} (h : InSession v) (hroot : who.uid = 0)
    (halloc : inodeAlloc who entryType name nameLen parent v = (.ok n, v₁))
    (hadm : Admissible v₁ name nameLen entryType) (hn : parent.toNat < v₁.sb.totalInodes.toNat)
    (hcat : (inodeAt v₁.dev.disk v₁.sb parent).entryType &&& entryCatalog ≠ 0)
    (hsearch : searchEntry who (inodeAt v₁.dev.disk v₁.sb parent) (nameBytes name nameLen) (inodeLoad parent v₁).2 =
      (.error .notFound, v₂))
    (hplace : placeEntry parent (freshEntry n entryType name nameLen) (inodeAt v₁.dev.disk v₁.sb parent)
      (inodeLoad parent v₂).2 = (.ok (), v₃)) :
    catalogMake who entryType parent name nameLen v = (.ok n, v₃) := by
  obtain ⟨hr₁, hc, _⟩ := h.toReady.after (upholds_inodeAlloc who entryType name nameLen parent)
  rw [halloc] at hr₁ hc
  have ht : (inodeAt v₁.dev.disk v₁.sb parent).entryType ≠ 0 := by
    intro hz
    rw [hz] at hcat
    exact hcat rfl
  have ho : ∀ want, Opens who want v₁ parent := fun want =>
    ⟨hn, hc.sums h.sums parent hn ht, hcat, by simp [inodeAccessCheck, owSecAccess_superuser hroot]⟩
  have hlook := (catalogLookup_run hr₁ (ho accessRead) hadm.proper).trans hsearch
  have hins := catalogInsert_run hr₁ (ho accessWrite) hadm hlook n
  rw [hplace] at hins
  have hattempt : (Prog.attempt (catalogInsert who parent name nameLen n entryType) : OwfsM (Except OwfsErr Unit)) v₁ =
      (.ok (.ok ()), v₃) := by
    unfold Prog.attempt
    rw [hins]
  exact run_bind halloc (run_bind hattempt rfl)

/-- フォーマットした直後に、根のカタログの下に `a` を作る。 -/
theorem created_under_root :
    slotVacant (inodeAt mountedVolume.dev.disk mountedVolume.sb 0) = false ∧
      ∃ v', MakeOp.create.run ⟨0, 0⟩ 0 (some [0x61]) 1 mountedVolume = (.ok 1, v') ∧
        CreatedUnder ⟨0, 0⟩ mountedVolume v' 0 1 [0x61] := by
  have hrun := catalogMake_run inSession_mountedVolume rfl
    (run_eq (p := inodeAlloc ⟨0, 0⟩ entryFile (some [0x61]) 1 0) (r := .ok 1) (by decide +kernel))
    (admissible_letter (.inl rfl) (by decide +kernel)) (by decide +kernel) (by decide +kernel)
    (run_eq (r := .error OwfsErr.notFound) (by decide +kernel)) (run_eq (r := .ok ()) (by decide +kernel))
  have hroot : slotVacant (inodeAt mountedVolume.dev.disk mountedVolume.sb 0) = false := by decide +kernel
  refine ⟨hroot, _, hrun, ?_⟩
  exact (created_under_catalog_iff faultFree_blankDevice format_blankDevice
    (.mount (mount_formattedVolume Superblock.zero)) [] .create ⟨0, 0⟩ 0 1 holdsName_letter hrun).mpr hroot

/-- 空いているスロット 1 を親として作ったカタログは、自分自身を親とする。 -/
theorem mkdir_under_itself :
    ∃ v', catalogMkdir ⟨0, 0⟩ 1 (some [0x61]) 1 mountedVolume = (.ok 1, v') ∧
      ¬ CreatedUnder ⟨0, 0⟩ mountedVolume v' 1 1 [0x61] := by
  have hrun := catalogMake_run inSession_mountedVolume rfl
    (run_eq (p := inodeAlloc ⟨0, 0⟩ entryCatalog (some [0x61]) 1 1) (r := .ok 1) (by decide +kernel))
    (admissible_letter (.inr rfl) (by decide +kernel)) (by decide +kernel) (by decide +kernel)
    (run_eq (r := .error OwfsErr.notFound) (by decide +kernel)) (run_eq (r := .ok ()) (by decide +kernel))
  exact ⟨_, hrun, fun h => h.distinct rfl⟩

end OwStorage.Owfs
