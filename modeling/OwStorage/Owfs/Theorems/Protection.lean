import OwStorage.Owfs.Lemmas.Refusal
import OwStorage.Owfs.Lemmas.Check
import OwStorage.Owfs.Lemmas.Attr

/-!
# 書き込みを許されない inode

書く操作はどれも、装置に書く前に、読み直した記録の権限を調べる。権限のない主体がどんな操作を重ねても、inode の記録と内容は
変わらない。読み取り専用の旗を調べるのは、ファイルの操作と解放だけである。
-/

namespace OwStorage.Owfs

open Lib Prog

/-! ## 変わらないこと -/

/-- inode `n` の記録と、対応するブロックと、ファイルとしての内容が変わらない。 -/
structure Unaltered (n : UInt32) (v v' : Vol) : Prop where
  record : recordBytes v'.dev.disk v'.sb n = recordBytes v.dev.disk v.sb n
  inode : inodeAt v'.dev.disk v'.sb n = inodeAt v.dev.disk v.sb n
  blocks : ∀ i < (inodeAt v.dev.disk v.sb n).blockCount.toNat, blockOf v' n i = blockOf v n i
  content : fileContent v'.dev.disk v'.sb (inodeAt v'.dev.disk v'.sb n) =
    fileContent v.dev.disk v.sb (inodeAt v.dev.disk v.sb n)
  entries : contents v' n = contents v n

section

variable {c n : UInt32} {v v' : Vol}

theorem Unaltered.refl : Unaltered n v v := ⟨rfl, rfl, fun _ _ => rfl, rfl, rfl⟩

/-- `c` のほかだけを書き換える移動では、`c` は変わらない。 -/
theorem Moved.unaltered (h : Moved {c}ᶜ v v') (hr : Ready v) (hc : c.toNat < v.sb.totalInodes.toNat)
    (ht : (inodeAt v.dev.disk v.sb c).entryType ≠ 0) : Unaltered c v v' := by
  have hT : c ∉ ({c}ᶜ : Set UInt32) := fun hno => hno rfl
  have hrec := h.spares.record c hc hT
  have hmapped := fun i hi => h.spares.mapped_eq hr.sound hc hT ht (i := i) hi
  refine ⟨?_, hrec, fun i hi => ?_, ?_, h.spares.entries_eq hr.sound hc hT ht⟩
  · rw [← enc_inodeAt, ← enc_inodeAt, hrec]
  · unfold blockOf
    rw [hrec, (hmapped i hi).1, (hmapped i hi).2]
  · rw [hrec]
    refine pages_congr fun i hi => ?_
    unfold plainBlock
    rw [(hmapped i hi).1, (hmapped i hi).2]
    exact cryptoXform_congr h.carry.shape rfl _ _

end

/-! ## 操作の列 -/

/-- 主体 `who` の行う操作。記録を読むだけの操作は、主体を問わない。 -/
def DataOp.By (who : OwIdentity) : DataOp → Prop
  | inodeAlloc actor _ _ _ _ => actor = who
  | inodeFree actor _ => actor = who
  | inodeRead _ => True
  | catalogCreate actor _ _ _ => actor = who
  | catalogMkdir actor _ _ _ => actor = who
  | catalogInsert actor _ _ _ _ _ => actor = who
  | catalogRemove actor _ _ _ => actor = who
  | catalogLookup actor _ _ _ => actor = who
  | catalogList actor _ _ => actor = who
  | fileRead actor _ _ _ => actor = who
  | fileWrite actor _ _ _ _ _ => actor = who
  | fileTruncate actor _ _ => actor = who

/-- `c` へのファイルの操作と解放を、旗か権限が許さない。 -/
def DataOp.Fenced (c : UInt32) (v : Vol) : DataOp → Prop
  | inodeFree who n => n = c → Owfs.Fenced who (inodeAt v.dev.disk v.sb c)
  | fileWrite who n _ _ _ _ => n = c → Owfs.Fenced who (inodeAt v.dev.disk v.sb c)
  | fileTruncate who n _ => n = c → Owfs.Fenced who (inodeAt v.dev.disk v.sb c)
  | _ => True

/-- カタログ `c` の項目を変える操作のうち、断られずに項目を書くか消すもの。 -/
def DataOp.Enters (c : UInt32) (v : Vol) : DataOp → Prop
  | catalogCreate who n name nameLen => n = c ∧ Registers who v c name nameLen entryFile
  | catalogMkdir who n name nameLen => n = c ∧ Registers who v c name nameLen entryCatalog
  | catalogInsert who n name nameLen _ entryType => n = c ∧ Registers who v c name nameLen entryType
  | catalogRemove who n name nameLen => n = c ∧ Deregisters who v c name nameLen
  | _ => False

section

variable {c : UInt32} {v : Vol} {who : OwIdentity}

/-- 断られる操作は、生きている `c` を書き換えない。 -/
theorem moved_of_fenced (hr : Ready v) (hlive : slotVacant (inodeAt v.dev.disk v.sb c) = false) (op : DataOp)
    (hfence : op.Fenced c v) (hno : ¬ op.Enters c v) : Moved {c}ᶜ v (op.run v).2 := by
  by_cases hop : op.writes = some c
  · cases op with
    | inodeFree who n =>
        obtain rfl : n = c := Option.some.inj hop
        exact (Fenced.still_inodeFree hr (hfence rfl)).upholds hr
    | catalogCreate who parent name nameLen =>
        obtain rfl : parent = c := Option.some.inj hop
        unfold DataOp.run
        rw [discard_state]
        exact moved_refused_make hr hlive fun h => hno ⟨rfl, h⟩
    | catalogMkdir who parent name nameLen =>
        obtain rfl : parent = c := Option.some.inj hop
        unfold DataOp.run
        rw [discard_state]
        exact moved_refused_make hr hlive fun h => hno ⟨rfl, h⟩
    | catalogInsert who catalog name nameLen target entryType =>
        obtain rfl : catalog = c := Option.some.inj hop
        exact (still_of_not_registers hr target fun h => hno ⟨rfl, h⟩).upholds hr
    | catalogRemove who catalog name nameLen =>
        obtain rfl : catalog = c := Option.some.inj hop
        exact (still_of_not_deregisters hr fun h => hno ⟨rfl, h⟩).upholds hr
    | fileWrite who n buf offset len fits =>
        obtain rfl : n = c := Option.some.inj hop
        exact (still_withFresh hr fun _ => Fenced.idle_fileWrite (hfence rfl) n buf offset len).upholds hr
    | fileTruncate who n newSize =>
        obtain rfl : n = c := Option.some.inj hop
        exact (still_withFresh hr fun _ => Fenced.idle_fileTruncate (hfence rfl) n newSize).upholds hr
    | inodeAlloc who entryType name nameLen parent => cases hop
    | inodeRead n => cases hop
    | catalogLookup who catalog name nameLen => cases hop
    | catalogList who catalog maxEntries => cases hop
    | fileRead who n offset len => cases hop
  · exact moved_of_dataOp hr hlive op hop

/-- 各回が断られる実行では、`c` は変わらない。 -/
theorem moved_run {P : Event Vol DataOp (Except OwfsErr Unit) → Prop} (hr : Ready v)
    (hc : c.toNat < v.sb.totalInodes.toNat) (hlive : slotVacant (inodeAt v.dev.disk v.sb c) = false)
    (hstep : ∀ op v', inodeAt v'.dev.disk v'.sb c = inodeAt v.dev.disk v.sb c → P (event DataOp.run op v') →
      op.Fenced c v' ∧ ¬ op.Enters c v') (ops : List DataOp) (hP : ∀ e ∈ trace DataOp.run ops v, P e) :
    Moved {c}ᶜ v (final DataOp.run ops v) := by
  refine (trace_invariant (I := fun v' => Moved {c}ᶜ v v') (P := P) ?_ ops v hr.moved hP).1
  intro op v' hm hp
  have hrec := hm.spares.record c hc fun hne => hne rfl
  obtain ⟨hfence, hno⟩ := hstep op v' hrec hp
  exact hm.trans (moved_of_fenced hm.ready (by rwa [hrec]) op hfence hno) hr.sound

/-- 書き込みの権限のない主体が、どんな操作を重ねても、inode の記録と内容は変わらない。 -/
theorem write_permission_enforced (hr : Ready v) (hc : c.toNat < v.sb.totalInodes.toNat)
    (hlive : slotVacant (inodeAt v.dev.disk v.sb c) = false)
    (hdeny : owSecAccess who (inodeAt v.dev.disk v.sb c).permissions (inodeAt v.dev.disk v.sb c).ownerUid
      (inodeAt v.dev.disk v.sb c).ownerGid accessWrite = false)
    (ops : List DataOp) (hby : ∀ op ∈ ops, op.By who) : Unaltered c v (final DataOp.run ops v) := by
  have ht : (inodeAt v.dev.disk v.sb c).entryType ≠ 0 := type_ne_zero_of_live hlive
  have hcheck : inodeAccessCheck who (inodeAt v.dev.disk v.sb c) accessWrite ≠ .ok () := by
    unfold inodeAccessCheck
    rw [hdeny]
    exact fun he => by cases he
  refine (moved_run (P := fun e => e.op.By who) hr hc hlive ?_ ops
    fun e he => hby e.op (op_mem_of_mem_trace he)).unaltered hr hc ht
  intro op v' hrec hop
  have hcheck' : inodeAccessCheck who (inodeAt v'.dev.disk v'.sb c) accessWrite ≠ .ok () := by rwa [hrec]
  have hfenced : Fenced who (inodeAt v'.dev.disk v'.sb c) := .inr hcheck'
  cases op with
  | inodeFree actor n =>
      obtain rfl : actor = who := hop
      exact ⟨fun _ => hfenced, id⟩
  | fileWrite actor n buf offset len fits =>
      obtain rfl : actor = who := hop
      exact ⟨fun _ => hfenced, id⟩
  | fileTruncate actor n newSize =>
      obtain rfl : actor = who := hop
      exact ⟨fun _ => hfenced, id⟩
  | catalogCreate actor parent name nameLen =>
      obtain rfl : actor = who := hop
      exact ⟨trivial, fun h => hcheck' h.2.opens.access⟩
  | catalogMkdir actor parent name nameLen =>
      obtain rfl : actor = who := hop
      exact ⟨trivial, fun h => hcheck' h.2.opens.access⟩
  | catalogInsert actor catalog name nameLen target entryType =>
      obtain rfl : actor = who := hop
      exact ⟨trivial, fun h => hcheck' h.2.opens.access⟩
  | catalogRemove actor catalog name nameLen =>
      obtain rfl : actor = who := hop
      exact ⟨trivial, fun h => hcheck' h.2.opens.access⟩
  | inodeAlloc actor entryType name nameLen parent => exact ⟨trivial, id⟩
  | inodeRead n => exact ⟨trivial, id⟩
  | catalogLookup actor catalog name nameLen => exact ⟨trivial, id⟩
  | catalogList actor catalog maxEntries => exact ⟨trivial, id⟩
  | fileRead actor n offset len => exact ⟨trivial, id⟩

/-- 読み取り専用の inode は、カタログへの登録と削除が通らないかぎり、誰がどんな操作を重ねても変わらない。 -/
theorem readonly_kept_outside_catalogs (hr : Ready v) (hc : c.toNat < v.sb.totalInodes.toNat)
    (hlive : slotVacant (inodeAt v.dev.disk v.sb c) = false)
    (hro : (inodeAt v.dev.disk v.sb c).securityFlags.toUInt32 &&& secReadonly ≠ 0) (ops : List DataOp)
    (hno : ∀ e ∈ trace DataOp.run ops v, ¬ e.op.Enters c e.before) : Unaltered c v (final DataOp.run ops v) := by
  have ht : (inodeAt v.dev.disk v.sb c).entryType ≠ 0 := type_ne_zero_of_live hlive
  refine (moved_run (P := fun e => ¬ e.op.Enters c e.before) hr hc hlive ?_ ops hno).unaltered hr hc ht
  intro op v' hrec hop
  refine ⟨?_, hop⟩
  have hfenced : ∀ who, Fenced who (inodeAt v'.dev.disk v'.sb c) := fun who => .inl (by rwa [hrec])
  cases op with
  | inodeFree who n => exact fun _ => hfenced who
  | fileWrite who n buf offset len fits => exact fun _ => hfenced who
  | fileTruncate who n newSize => exact fun _ => hfenced who
  | _ => exact trivial

end

/-! ## 小さなボリュームの例 -/

/-- 持ち主でない主体が、根のカタログの下に作ろうとし、根に登録しようとし、根を解放しようとする。 -/
theorem write_permission_enforced_on_root :
    Unaltered 0 mountedVolume (final DataOp.run [.catalogCreate ⟨1000, 1000⟩ 0 (some [0x61]) 1,
      .catalogInsert ⟨1000, 1000⟩ 0 (some [0x61]) 1 0 entryFile, .inodeFree ⟨1000, 1000⟩ 0] mountedVolume) := by
  have hdeny : owSecAccess ⟨1000, 1000⟩ (inodeAt mountedVolume.dev.disk mountedVolume.sb 0).permissions
      (inodeAt mountedVolume.dev.disk mountedVolume.sb 0).ownerUid
      (inodeAt mountedVolume.dev.disk mountedVolume.sb 0).ownerGid accessWrite = false := by decide +kernel
  refine write_permission_enforced inSession_mountedVolume.toReady (by decide +kernel) (by decide +kernel) hdeny _ ?_
  intro op hop
  simp only [List.mem_cons, List.not_mem_nil, or_false] at hop
  rcases hop with rfl | rfl | rfl
  · exact rfl
  · exact rfl
  · exact rfl

/-- 特権の主体による登録の実行。 -/
theorem catalogInsert_superuser {v v₁ v₂ : Vol} (who : OwIdentity) (n target : UInt32) {entryType : UInt8}
    {name : Option (List UInt8)} {nameLen : Nat} (hr : Ready v) (hs : Summed v) (hroot : who.uid = 0)
    (hadm : Admissible v name nameLen entryType) (hn : n.toNat < v.sb.totalInodes.toNat)
    (hcat : (inodeAt v.dev.disk v.sb n).entryType &&& entryCatalog ≠ 0)
    (hsearch : searchEntry who (inodeAt v.dev.disk v.sb n) (nameBytes name nameLen) (inodeLoad n v).2 =
      (.error .notFound, v₁))
    (hplace : placeEntry n (freshEntry target entryType name nameLen) (inodeAt v.dev.disk v.sb n)
      (inodeLoad n v₁).2 = (.ok (), v₂)) :
    catalogInsert who n name nameLen target entryType v = (.ok (), v₂) := by
  have ht : (inodeAt v.dev.disk v.sb n).entryType ≠ 0 := by
    intro hz
    rw [hz] at hcat
    exact hcat rfl
  have ho : ∀ want, Opens who want v n := fun want =>
    ⟨hn, hs n hn ht, hcat, by simp [inodeAccessCheck, owSecAccess_superuser hroot]⟩
  have hlook := (catalogLookup_run hr (ho accessRead) hadm.proper).trans hsearch
  rw [catalogInsert_run hr (ho accessWrite) hadm hlook target, hplace]

/-- 通った登録は、カタログの中身を変える。 -/
theorem insert_alters {v v' : Vol} {who : OwIdentity} {n target : UInt32} {name : Option (List UInt8)} {nameLen : Nat}
    {entryType : UInt8} (hr : Ready v) (hrun : catalogInsert who n name nameLen target entryType v = (.ok (), v')) :
    ¬ Unaltered n v (final DataOp.run [.catalogInsert who n name nameLen target entryType] v) := by
  intro h
  have hsame : contents (catalogInsert who n name nameLen target entryType v).2 n = contents v n := h.entries
  have hlen := ((catalogInsert_spec hr who n name nameLen target entryType).ok hrun).listed.contents.length_eq
  rw [hrun] at hsame
  rw [hsame, List.length_cons] at hlen
  omega

/-- 読み取り専用の旗を立てた根のカタログの属性。 -/
def readonlyAttrs : Attrs := ⟨modeDefaultDir, 0, 0, secReadonly.toUInt8⟩

theorem ready_readonlyRoot : Ready (retagged 0 readonlyAttrs mountedVolume) ∧
    Summed (retagged 0 readonlyAttrs mountedVolume) := by
  have h := inSession_mountedVolume
  obtain ⟨hr, hc, _⟩ := h.toReady.after (upholds_setAttrs 0 readonlyAttrs)
  rw [setAttrs_state h.toReady h.sums (by decide +kernel) (by decide +kernel)] at hr hc
  exact ⟨hr, hc.sums h.sums⟩

/-- 読み取り専用の根から、特権の主体もない名前を消さず、切り詰めず、解放しない。 -/
theorem readonly_root_kept :
    Unaltered 0 (retagged 0 readonlyAttrs mountedVolume)
      (final DataOp.run [.catalogRemove ⟨0, 0⟩ 0 (some [0x61]) 1, .fileTruncate ⟨0, 0⟩ 0 0, .inodeFree ⟨0, 0⟩ 0]
      (retagged 0 readonlyAttrs mountedVolume)) := by
  have hempty : contents (retagged 0 readonlyAttrs mountedVolume) 0 = [] := by decide +kernel
  have habsent : ¬ Deregisters ⟨0, 0⟩ (retagged 0 readonlyAttrs mountedVolume) 0 (some [0x61]) 1 := by
    intro h
    obtain ⟨a, ha, _⟩ := h.found (by rw [hempty]; exact fun _ ha => absurd ha List.not_mem_nil)
    rw [hempty] at ha
    exact List.not_mem_nil ha
  refine readonly_kept_outside_catalogs ready_readonlyRoot.1 (by decide +kernel) (by decide +kernel)
    (by decide +kernel) _ ?_
  intro e he
  rcases List.mem_cons.mp he with rfl | he
  · exact fun h => habsent h.2
  · have hop := op_mem_of_mem_trace he
    simp only [List.mem_cons, List.not_mem_nil, or_false] at hop
    rcases hop with hop | hop
    · rw [hop]
      exact id
    · rw [hop]
      exact id

/-- 読み取り専用の根のカタログにも、特権の主体は登録できる。 -/
theorem readonly_catalog_accepts_entry :
    ¬ ∀ (v : Vol) (c : UInt32) (ops : List DataOp), Ready v → c.toNat < v.sb.totalInodes.toNat →
      slotVacant (inodeAt v.dev.disk v.sb c) = false →
      (inodeAt v.dev.disk v.sb c).securityFlags.toUInt32 &&& secReadonly ≠ 0 →
      Unaltered c v (final DataOp.run ops v) := by
  intro hclaim
  obtain ⟨hr, hs⟩ := ready_readonlyRoot
  have hadm : Admissible (retagged 0 readonlyAttrs mountedVolume) (some [0x61]) 1 entryFile :=
    ⟨⟨rfl, by decide, by decide⟩, .inl rfl, by decide, by decide +kernel⟩
  have hrun := catalogInsert_superuser ⟨0, 0⟩ 0 0 hr hs rfl hadm
    (by decide +kernel) (by decide +kernel) (run_eq (r := .error OwfsErr.notFound) (by decide +kernel))
    (run_eq (r := .ok ()) (by decide +kernel))
  exact insert_alters hr hrun (hclaim _ 0 _ hr (by decide +kernel) (by decide +kernel) (by decide +kernel))

end OwStorage.Owfs
