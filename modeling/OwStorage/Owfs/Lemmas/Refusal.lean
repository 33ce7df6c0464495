import OwStorage.Owfs.Lemmas.Frame
import OwStorage.Owfs.Lemmas.Gate

/-!
# 断られる操作

引数や権限の検査、名前の探索、枠の探索のどこで断られても、操作は何も変えない。断られずに進む登録と抹消と、ブロックを求めるか
放す操作を、状態の条件として言う。
-/

namespace OwStorage.Owfs

open Lib Prog

/-- 空いた枠があるか、カタログを一ブロック伸ばせる。 -/
def Spacious (v : Vol) (n : UInt32) : Prop :=
  HasSlot v n ∨ (inodeAt v.dev.disk v.sb n).blockCount.toNat < 1034 ∧ v.sb.freeBlocks ≠ 0

/-- カタログ `n` への登録が、断られずに項目を書く条件。 -/
structure Registers (who : OwIdentity) (v : Vol) (n : UInt32) (name : Option (List UInt8)) (nameLen : Nat)
    (entryType : UInt8) : Prop where
  admissible : Admissible v name nameLen entryType
  opens : Opens who accessWrite v n
  unseen : Opens who accessRead v n → Legible (contents v n) →
    ∀ a ∈ contents v n, Unseen who v (nameBytes name nameLen) a
  space : Spacious v n

/-- カタログ `n` からの抹消が、断られずに項目を消す条件。 -/
structure Deregisters (who : OwIdentity) (v : Vol) (n : UInt32) (name : Option (List UInt8)) (nameLen : Nat) :
    Prop where
  proper : Proper name nameLen
  writable : volumeWritable v.sb = .ok ()
  opens : Opens who accessWrite v n
  found : Legible (contents v n) →
    ∃ a ∈ contents v n, a.Answers (nameBytes name nameLen) ∧ hiddenAt who v a.inodeNumber = false

section

variable {c n : UInt32} {v v' v₁ : Vol} {who : OwIdentity} {name : Option (List UInt8)} {nameLen : Nat}
  {entryType : UInt8} {ino : Inode} {a : CatalogEntry} {α : Type}

/-! ## ファイルと解放 -/

theorem still_withFresh (hr : Ready v) {q : FileM α}
    (h : ∀ c, Idle q ⟨v.atClock c, inodeAt v.dev.disk v.sb n⟩) : Still v (withFresh n q v).2 := by
  refine wp.state (I := fun v' => Still v v') ?_
  unfold withFresh
  rw [wp_bind]
  refine (inodeRead_spec hr.sound.layout n).mono ?_ (fun _ _ he => he.1)
  rintro _ _ ⟨_, rfl, _, c, rfl⟩
  have hidle : Idle (discard (withInode (inodeAt v.dev.disk v.sb n) q)) (v.atClock c) :=
    .bind (idle_withInode (h c)) fun _ => .pure _
  refine hidle.mono ?_ ?_
  · rintro _ _ rfl
    exact ⟨c, rfl⟩
  · rintro _ _ rfl
    exact ⟨c, rfl⟩

theorem Fenced.still_inodeFree (hr : Ready v) (h : Fenced who (inodeAt v.dev.disk v.sb n)) :
    Still v (inodeFree who n v).2 := by
  refine wp.state (I := fun v' => Still v v') ?_
  unfold inodeFree
  rw [wp_bind, wp_get, wp_bind, wp_ofExcept]
  refine ⟨fun _ _ => ?_, fun _ _ => refl_of Still v⟩
  rw [wp_bind]
  refine (inodeRead_spec hr.sound.layout n).mono ?_ (fun _ _ he => he.1)
  rintro _ _ ⟨_, rfl, _, c, rfl⟩
  refine wp.mono (Idle.failIf_bind (.ite (.pure ()) (h.idle _ (v.atClock c)))) ?_ ?_
  · rintro _ _ rfl
    exact ⟨c, rfl⟩
  · rintro _ _ rfl
    exact ⟨c, rfl⟩

/-! ## 登録と抹消 -/

theorem still_catalogInsert (hr : Ready v) (target : UInt32)
    (hno : ¬ (Admissible v name nameLen entryType ∧ Opens who accessWrite v n)) :
    Still v (catalogInsert who n name nameLen target entryType v).2 :=
  (catalogInsert_places hr (I := fun v' => Still v v') (fun c => ⟨c, rfl⟩) target
    fun hadm ho => absurd ⟨hadm, ho⟩ hno).state

theorem still_catalogRemove (hr : Ready v)
    (hno : ¬ (Proper name nameLen ∧ volumeWritable v.sb = .ok () ∧ Opens who accessWrite v n)) :
    Still v (catalogRemove who n name nameLen v).2 := by
  have hrefl := refl_of Still v
  refine wp.state (I := fun v' => Still v v') ?_
  unfold catalogRemove
  rw [wp_bind, wp_failIf]
  refine ⟨fun _ => hrefl, fun hgiven => ?_⟩
  rw [wp_bind, wp_failIf]
  refine ⟨fun _ => hrefl, fun hshort => ?_⟩
  rw [wp_bind, wp_get, wp_bind, wp_ofExcept]
  refine ⟨fun _ hw => ?_, fun _ _ => hrefl⟩
  exact wp_open hr hrefl (fun ho => absurd ⟨.of_guards hgiven hshort, hw, ho⟩ hno) (fun _ _ c _ => ⟨c, rfl⟩)

/-- 伸ばす余地のないカタログの伸長は、何も書かずに断られる。 -/
theorem idle_growCatalog (hno : ¬ (ino.blockCount.toNat < 1034 ∧ v.sb.freeBlocks ≠ 0)) :
    Idle (growCatalog n a ino) ⟨v, ino⟩ := by
  have hensure : wp (blockmapEnsure ino.blockCount) (fun _ _ => False) (fun _ s' => s' = ⟨v, ino⟩) ⟨v, ino⟩ := by
    by_cases hfull : v.sb.freeBlocks = 0
    · exact blockmapEnsure_full (s := ⟨v, ino⟩) hfull
    · have hlong : ¬ ino.blockCount < 1034 := fun h => hno ⟨UInt32.lt_iff_toNat_lt.mp h, hfull⟩
      unfold blockmapEnsure
      rw [wp_bind, wp_get, wp_bind, wp_failIf]
      exact ⟨fun _ => rfl, fun h => absurd (UInt32.not_le.mp h) hlong⟩
  unfold growCatalog Idle
  rw [wp_bind, wp_attempt]
  exact hensure.mono (fun _ _ hf => hf.elim) (fun _ _ he => he)

theorem still_placeEntry (hr : Ready v) (hs : Still v v₁) (hn : n.toNat < v.sb.totalInodes.toNat)
    (ht : (inodeAt v.dev.disk v.sb n).entryType ≠ 0) (hno : ¬ Spacious v n) :
    wp (placeEntry n a (inodeAt v.dev.disk v.sb n)) (fun _ v' => Still v v') (fun _ v' => Still v v') v₁ := by
  have hnone : ∀ j, j < (inodeAt v.dev.disk v.sb n).blockCount.toNat * 16 →
      slotAt v.dev.disk (inodeAt v.dev.disk v.sb n) j ≠ none :=
    fun j hj hj' => hno (.inl (length_filled_lt hj hj'))
  unfold placeEntry
  rw [wp_bind]
  refine wp_loop (fun _ _ v' => Still v v') hs ?_ ?_
  · rintro k _ v₂ hk hs₂
    refine wp_catalogBlock hr hs₂ hn ht hk fun c₁ => ?_
    split
    · rename_i e hfind
      have hlive := List.find?_some hfind
      have he := List.mem_range.mp (List.mem_of_find?_eq_some hfind)
      refine absurd ?_ (hnone (k * 16 + e) (by omega))
      rw [slotAt_at _ _ _ he, slotIn_eq_none]
      simpa using hlive
    · exact ⟨c₁, rfl⟩
  · rintro _ _ ⟨c₁, rfl⟩
    have hgrow : Idle (growCatalog n a (inodeAt v.dev.disk v.sb n)) ⟨v.atClock c₁, inodeAt v.dev.disk v.sb n⟩ :=
      idle_growCatalog fun h => hno (.inr h)
    simp only [wp_bind, wp_withInode, wp_pure]
    refine hgrow.mono ?_ ?_
    · rintro _ _ rfl
      exact ⟨c₁, rfl⟩
    · rintro _ _ rfl
      exact ⟨c₁, rfl⟩

/-- 断られる登録は、何も変えない。 -/
theorem still_of_not_registers (hr : Ready v) (target : UInt32) (hno : ¬ Registers who v n name nameLen entryType) :
    Still v (catalogInsert who n name nameLen target entryType v).2 := by
  by_cases hspace : Spacious v n
  · -- 余地があるのに断られるのは、引数か権限か、名前が見えるときである。
    by_cases hopen : Admissible v name nameLen entryType ∧ Opens who accessWrite v n
    · obtain ⟨hadm, ho⟩ := hopen
      refine wp.state (I := fun v' => Still v v')
        ((catalogInsert_spec hr who n name nameLen target entryType).mono ?_ ?_)
      · exact fun _ v' hins => absurd ⟨hadm, ho, hins.unseen, hspace⟩ hno
      · intro e v' href
        by_contra hne
        refine hno ⟨hadm, ho, fun hread hleg a ha => ?_, hspace⟩
        by_contra hun
        exact hne (href.duplicate (href.seen hadm hread hleg ⟨a, ha, hun⟩)).1
    · exact still_catalogInsert hr target hopen
  · exact (catalogInsert_places hr (I := fun v' => Still v v') (fun c => ⟨c, rfl⟩) target fun _ ho c =>
      still_placeEntry hr ⟨c, rfl⟩ ho.inTable ho.type_ne_zero hspace).state

theorem still_of_not_deregisters (hr : Ready v) (hno : ¬ Deregisters who v n name nameLen) :
    Still v (catalogRemove who n name nameLen v).2 := by
  by_cases hopen : Proper name nameLen ∧ volumeWritable v.sb = .ok () ∧ Opens who accessWrite v n
  · obtain ⟨hp, hw, ho⟩ := hopen
    refine wp.state (I := fun v' => Still v v')
      ((catalogRemove_spec hr who n name nameLen).mono ?_ (fun _ _ h => h.1))
    intro _ v' hrem
    obtain ⟨a, hperm, hvis, hans⟩ := hrem.erased
    exact absurd ⟨hp, hw, ho, fun hleg => ⟨a, hperm.symm.mem_iff.mp List.mem_cons_self, hans hleg, hvis⟩⟩ hno
  · exact still_catalogRemove hr hopen

/-! ## 作成 -/

theorem Allocated.opens_iff (h : Allocated who entryType name nameLen c v v₁ n) (hne : c ≠ n) {want : UInt8} :
    Opens who want v₁ c ↔ Opens who want v c := by
  have htotal := h.moved.carry.shape.totalInodes
  constructor
  · rintro ⟨hc, hsum, hcat, hacc⟩
    rw [htotal] at hc
    rw [h.moved.spares.record c hc hne] at hsum hcat hacc
    exact ⟨hc, hsum, hcat, hacc⟩
  · rintro ⟨hc, hsum, hcat, hacc⟩
    rw [← h.moved.spares.record c hc hne] at hsum hcat hacc
    exact ⟨by rwa [htotal], hsum, hcat, hacc⟩

theorem Registers.of_allocated {k : UInt32} (h : Registers who v₁ c name nameLen entryType) (hr : Ready v)
    (halloc : Allocated who entryType name nameLen c v v₁ n) (htab : TableOnly v v₁ k) (hne : c ≠ n) :
    Registers who v c name nameLen entryType := by
  have ho := (halloc.opens_iff hne).mp h.opens
  have hrec := halloc.moved.spares.record c ho.inTable hne
  have hcont : contents v₁ c = contents v c :=
    halloc.moved.spares.entries_eq hr.sound ho.inTable hne ho.type_ne_zero
  have hadm := h.admissible
  refine ⟨⟨hadm.proper, hadm.type, hadm.valid, ?_⟩, ho, fun hread hleg a ha hsum hans => ?_, ?_⟩
  · rw [← halloc.moved.carry.shape.volumeWritable]
    exact hadm.writable
  · by_contra hseen
    rw [← hcont] at hleg ha
    have hhid := h.unseen ((halloc.opens_iff hne).mpr hread) hleg a ha hsum hans
    rw [halloc.hidden_mono (Bool.eq_false_iff.mpr hseen)] at hhid
    cases hhid
  · have hspace := h.space
    unfold Spacious HasSlot at hspace ⊢
    rw [hcont, hrec, htab.sb] at hspace
    exact hspace

/-- 登録を断られる作成は、いま割り当てた inode だけを書き換える。 -/
theorem moved_refused_make (hr : Ready v) (hlive : slotVacant (inodeAt v.dev.disk v.sb c) = false)
    (hno : ¬ Registers who v c name nameLen entryType) :
    Moved {c}ᶜ v (catalogMake who entryType c name nameLen v).2 := by
  refine wp.state (I := fun v' => Moved {c}ᶜ v v') ?_
  unfold catalogMake
  rw [wp_bind]
  refine ((inodeAlloc_spec hr who entryType name nameLen c).and
    (inodeAlloc_tableOnly hr.sound.layout who entryType name nameLen c)).mono ?_ (fun _ _ hs => hs.1.upholds hr)
  rintro n v₁ ⟨halloc, htab⟩
  have hsub : ({n} : Set UInt32) ⊆ {c}ᶜ := Set.singleton_subset_iff.mpr (halloc.ne_of_live hlive)
  have hfirst := halloc.moved.mono hsub
  have hstill := still_of_not_registers hfirst.ready n fun h =>
    hno (h.of_allocated hr halloc htab (halloc.ne_of_live hlive).symm)
  rw [wp_bind, wp_attempt]
  have hrun := wp_run (p := catalogInsert who c name nameLen n entryType) (s := v₁)
  refine hrun.mono ?_ ?_
  · intro _ v₂ he
    rw [he] at hstill
    exact hfirst.trans (hstill.upholds hfirst.ready) hr.sound
  · intro e v₂ he
    rw [he] at hstill
    have hsecond : Moved {c}ᶜ v v₂ := hfirst.trans (hstill.upholds hfirst.ready) hr.sound
    exact (upholds_undo hsub e v₂).mono (fun _ _ hu => hsecond.trans (hu hsecond.ready) hr.sound)
      (fun _ _ hu => hsecond.trans (hu hsecond.ready) hr.sound)

/-! ## ビットマップ -/

theorem aside_catalogInsert (hr : Ready v) (target : UInt32)
    (hroom : Registers who v n name nameLen entryType → HasSlot v n) :
    wp (catalogInsert who n name nameLen target entryType) (fun _ v' => Aside v v') (fun _ v' => Aside v v') v := by
  by_cases hreg : Registers who v n name nameLen entryType
  · exact catalogInsert_places hr (I := fun v' => Aside v v') (fun c => Still.aside ⟨c, rfl⟩) target fun _ ho c =>
      (placeEntry_aside hr ⟨c, rfl⟩ ho.inTable ho.type_ne_zero (hroom hreg) _).mono (fun _ _ h => h)
        (fun _ _ hf => hf.elim)
  · have hstill := still_of_not_registers hr target hreg
    refine (wp_run (p := catalogInsert who n name nameLen target entryType) (s := v)).mono ?_ ?_
    · intro _ v' he
      rw [he] at hstill
      exact hstill.aside
    · intro _ v' he
      rw [he] at hstill
      exact hstill.aside

/-- 登録の通るカタログに空いた枠があれば、作成はビットマップに触れない。 -/
theorem aside_catalogMake (hr : Ready v)
    (hlive : c.toNat < v.sb.totalInodes.toNat → slotVacant (inodeAt v.dev.disk v.sb c) = false)
    (hroom : Registers who v c name nameLen entryType → HasSlot v c) :
    wp (catalogMake who entryType c name nameLen) (fun _ v' => Aside v v') (fun _ v' => Aside v v') v := by
  unfold catalogMake
  rw [wp_bind]
  refine ((inodeAlloc_spec hr who entryType name nameLen c).and
    (inodeAlloc_tableOnly hr.sound.layout who entryType name nameLen c)).mono ?_ (fun _ _ h => h.1.aside)
  rintro n v₁ ⟨halloc, htab⟩
  have haside := htab.aside hr.sound.layout
  have hr₁ := halloc.moved.ready
  have hne : c ≠ n := by
    rintro rfl
    exact halloc.ne_of_live (hlive halloc.inTable) rfl
  have hroom₁ : Registers who v₁ c name nameLen entryType → HasSlot v₁ c := by
    intro hreg
    have ho := (halloc.opens_iff hne).mp hreg.opens
    have hslot := hroom (hreg.of_allocated hr halloc htab hne)
    unfold HasSlot at hslot ⊢
    rw [halloc.moved.spares.record c ho.inTable hne, show contents v₁ c = contents v c from
      halloc.moved.spares.entries_eq hr.sound ho.inTable hne ho.type_ne_zero]
    exact hslot
  rw [wp_bind, wp_attempt]
  refine ((aside_catalogInsert hr₁ n hroom₁).and (upholds_catalogInsert who c name nameLen n entryType v₁)).mono
    (fun _ _ h => trans_of Aside haside h.1) ?_
  rintro e v₂ ⟨h₂, hup⟩
  -- 登録に失敗しても、割り当てた inode はまだブロックを持たない。
  have hmoved := hup hr₁
  have hrow := hmoved.spares.record n (by rw [halloc.moved.carry.shape.totalInodes]; exact halloc.inTable) hne.symm
  have hempty : (inodeAt v₂.dev.disk v₂.sb n).blockCount = 0 := by
    rw [hrow, halloc.record]
    rfl
  simp only [wp_bind, wp_attempt, wp_throw]
  exact (aside_inodeFree hmoved.ready who fun h => h.held hempty).mono
    (fun _ _ h => trans_of Aside (trans_of Aside haside h₂) h)
    (fun _ _ h => trans_of Aside (trans_of Aside haside h₂) h)

theorem aside_discard {p : OwfsM α} (h : wp p (fun _ v' => Aside v v') (fun _ v' => Aside v v') v) :
    Aside v (discard p v).2 := by
  rw [discard_state]
  exact h.state (I := fun v' => Aside v v')

end

/-- 作成が、断られずに、カタログを伸ばすためのブロックを求める。生きていないカタログの下では、いま割り当てた inode が
そのカタログになりうる。 -/
def MakeGrows (who : OwIdentity) (v : Vol) (n : UInt32) (name : Option (List UInt8)) (nameLen : Nat)
    (entryType : UInt8) : Prop :=
  n.toNat < v.sb.totalInodes.toNat ∧ (slotVacant (inodeAt v.dev.disk v.sb n) = true ∨
    Registers who v n name nameLen entryType ∧ ¬ HasSlot v n)

/-- いまの状態では、ブロックを求めるか放す操作。 -/
def DataOp.TouchesBitmap (v : Vol) : DataOp → Prop
  | inodeFree who n => Vacates who v n
  | catalogCreate who n name nameLen => MakeGrows who v n name nameLen entryFile
  | catalogMkdir who n name nameLen => MakeGrows who v n name nameLen entryCatalog
  | catalogInsert who n name nameLen _ entryType => Registers who v n name nameLen entryType ∧ ¬ HasSlot v n
  | fileWrite who n _ offset len _ => GrowsFile who v n offset len
  | fileTruncate who n newSize => CutsFile who v n newSize
  | _ => False

section

variable {v : Vol}

theorem aside_make_of_not_grows {who : OwIdentity} {n : UInt32} {name : Option (List UInt8)} {nameLen : Nat}
    {entryType : UInt8} (hr : Ready v) (h : ¬ MakeGrows who v n name nameLen entryType) :
    Aside v (discard (catalogMake who entryType n name nameLen) v).2 := by
  refine aside_discard (aside_catalogMake hr (fun hn => ?_) fun hreg => ?_)
  · exact Bool.eq_false_iff.mpr fun hvac => h ⟨hn, .inl hvac⟩
  · by_contra hslot
    exact h ⟨hreg.opens.inTable, .inr ⟨hreg, hslot⟩⟩

/-- ブロックを求めも放しもしない操作は、どんな状態コードを返しても、ビットマップに触れない。 -/
theorem aside_dataOp (hr : Ready v) (op : DataOp) (h : ¬ op.TouchesBitmap v) : Aside v (op.run v).2 := by
  have hread : op.readOnly = true → Aside v (op.run v).2 := fun hop =>
    ((still_readOnly hop v).state (I := fun v' => Still v v')).aside
  cases op with
  | inodeAlloc who entryType name nameLen parent => exact aside_discard (aside_inodeAlloc hr.sound.layout _ _ _ _ _)
  | inodeFree who n => exact (aside_inodeFree hr who h).state (I := fun v' => Aside v v')
  | inodeRead n => exact hread rfl
  | catalogCreate who parent name nameLen => exact aside_make_of_not_grows hr h
  | catalogMkdir who parent name nameLen => exact aside_make_of_not_grows hr h
  | catalogInsert who catalog name nameLen target entryType =>
      refine (aside_catalogInsert hr target fun hreg => ?_).state (I := fun v' => Aside v v')
      by_contra hslot
      exact h ⟨hreg, hslot⟩
  | catalogRemove who catalog name nameLen =>
      exact ((catalogRemove_spec hr who catalog name nameLen).mono (fun _ _ h => h.aside)
        (fun _ _ h => h.1.aside)).state (I := fun v' => Aside v v')
  | catalogLookup who catalog name nameLen => exact hread rfl
  | catalogList who catalog maxEntries => exact hread rfl
  | fileRead who n offset len => exact hread rfl
  | fileWrite who n buf offset len fits => exact (aside_fileWrite hr who n fits h).state (I := fun v' => Aside v v')
  | fileTruncate who n newSize => exact (aside_fileTruncate hr who n newSize h).state (I := fun v' => Aside v v')

end

end OwStorage.Owfs
