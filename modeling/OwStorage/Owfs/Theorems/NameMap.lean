import OwStorage.Owfs.Lemmas.Check
import OwStorage.Owfs.Lemmas.Frame
import OwStorage.Common.Lemmas.String

/-!
# カタログは名前から inode への対応である

空のカタログに登録と抹消を重ねると、カタログは、成功した登録と抹消だけから作った対応と同じように答える。ほかの inode への
操作を間に挟んでもよい。
-/

namespace OwStorage.Owfs

open Lib Prog

/-! ## 呼び出しの列 -/

/-- 一つのカタログへの操作と、ほかの inode への操作。 -/
inductive DirOp where
  | insert (name : Option (List UInt8)) (nameLen : Nat) (target : UInt32) (entryType : UInt8)
  | remove (name : Option (List UInt8)) (nameLen : Nat)
  | lookup (name : Option (List UInt8)) (nameLen : Nat)
  | list (maxEntries : UInt32)
  | other (op : DataOp)

inductive DirResult where
  | done (r : Except OwfsErr Unit)
  | found (r : Except OwfsErr UInt32)
  | listed (r : Except OwfsErr (List CatalogEntry))

/-- 主体 `who` が、カタログ `c` に対して操作を行う。 -/
def DirOp.run (who : OwIdentity) (c : UInt32) : DirOp → Vol → DirResult × Vol
  | insert name nameLen target entryType, v =>
      (.done (catalogInsert who c name nameLen target entryType v).1,
      (catalogInsert who c name nameLen target entryType v).2)
  | remove name nameLen, v => (.done (catalogRemove who c name nameLen v).1, (catalogRemove who c name nameLen v).2)
  | lookup name nameLen, v => (.found (catalogLookup who c name nameLen v).1, (catalogLookup who c name nameLen v).2)
  | list maxEntries, v => (.listed (catalogList who c maxEntries v).1, (catalogList who c maxEntries v).2)
  | other op, v => (.done (op.run v).1, (op.run v).2)

/-- 名前の緩衝域は名前の長さを持ち、ほかの操作はカタログ `c` を書き換えない。 -/
def DirOp.Fits (c : UInt32) : DirOp → Prop
  | insert name nameLen _ _ => HoldsName name nameLen
  | remove name nameLen => HoldsName name nameLen
  | lookup name nameLen => HoldsName name nameLen
  | list _ => True
  | other op => op.writes ≠ some c

/-- 名前から inode の番号と種類への対応。 -/
abbrev NameMap : Type := Finmap fun _ : List UInt8 => UInt32 × UInt8

/-- 成功した登録と抹消だけを反映する。 -/
def DirOp.track : DirOp → DirResult → NameMap → NameMap
  | insert name nameLen target entryType, .done (.ok _), m => m.insert (nameBytes name nameLen) (target, entryType)
  | remove name nameLen, .done (.ok _), m => m.erase (nameBytes name nameLen)
  | _, _, m => m

/-- 対応を並べて持つ実行。 -/
def DirOp.step (who : OwIdentity) (c : UInt32) (op : DirOp) (s : Vol × NameMap) : DirResult × (Vol × NameMap) :=
  ((op.run who c s.1).1, (op.run who c s.1).2, op.track (op.run who c s.1).1 s.2)

/-- カタログの答えが、対応の答えと合う。 -/
def Agrees (e : Event (Vol × NameMap) DirOp DirResult) : Prop :=
  match e.op with
  | .lookup name nameLen => Proper name nameLen →
      e.result = .found (match e.before.2.lookup (nameBytes name nameLen) with
        | some b => .ok b.1
        | none => .error .notFound)
  | .insert name nameLen _ entryType => Proper name nameLen → owSutf8Validate (nameBytes name nameLen) = true →
      entryType = entryFile ∨ entryType = entryCatalog →
      (e.result = .done (.error .alreadyExists) ↔ nameBytes name nameLen ∈ e.before.2) ∧
        (nameBytes name nameLen ∈ e.before.2 → Still e.before.1 e.after.1)
  | .remove name nameLen => e.result = .done (.ok ()) ↔ nameBytes name nameLen ∈ e.before.2
  | .list maxEntries => maxEntries ≠ 0 → ∃ l, e.result = .listed (.ok l) ∧
      l.length = min maxEntries.toNat e.before.2.keys.card ∧ (l.map CatalogEntry.storedName).Nodup ∧
      ∀ a ∈ l, e.before.2.lookup a.storedName = some (a.inodeNumber, a.entryType)
  | .other _ => True

/-! ## カタログと対応の関係 -/

/-- 登録が書いた項目。 -/
structure CatalogEntry.Good (a : CatalogEntry) : Prop where
  sum : catalogEntryVerifyChecksum a = true
  short : a.nameLength.toNat < nameMaxBytes
  nonempty : a.storedName ≠ []
  valid : owSutf8Validate a.storedName = true

def CatalogEntry.pair (a : CatalogEntry) : Sigma fun _ : List UInt8 => UInt32 × UInt8 :=
  ⟨a.storedName, a.inodeNumber, a.entryType⟩

/-- カタログ `c` の生きた項目の全体が、対応 `m` である。 -/
structure Mirrors (c : UInt32) (v : Vol) (m : NameMap) : Prop where
  ready : Ready v
  sums : Summed v
  inTable : c.toNat < v.sb.totalInodes.toNat
  live : slotVacant (inodeAt v.dev.disk v.sb c) = false
  catalog : (inodeAt v.dev.disk v.sb c).entryType &&& entryCatalog ≠ 0
  good : ∀ a ∈ contents v c, a.Good
  entries : m.entries = Multiset.map CatalogEntry.pair (contents v c : Multiset CatalogEntry)
  writable : m ≠ ∅ → volumeWritable v.sb = .ok ()

section

variable {c : UInt32} {v v' : Vol} {m : NameMap} {who : OwIdentity} {x : List UInt8} {b : UInt32 × UInt8}
  {name : Option (List UInt8)} {nameLen : Nat}

theorem Mirrors.opens (h : Mirrors c v m) (hroot : who.uid = 0) (want : UInt8) : Opens who want v c := by
  refine ⟨h.inTable, h.sums c h.inTable ?_, h.catalog, by simp [inodeAccessCheck, owSecAccess_superuser hroot]⟩
  intro ht
  have hcat := h.catalog
  rw [ht] at hcat
  exact hcat rfl

theorem Mirrors.legible (h : Mirrors c v m) : Legible (contents v c) := fun a ha =>
  (h.good a ha).short.le.trans (by decide)

theorem Mirrors.lookup_iff (h : Mirrors c v m) :
    m.lookup x = some b ↔ ∃ a ∈ contents v c, a.storedName = x ∧ (a.inodeNumber, a.entryType) = b := by
  have hiff : m.lookup x = some b ↔ (⟨x, b⟩ : Sigma fun _ : List UInt8 => UInt32 × UInt8) ∈ m.entries :=
    Finmap.lookup_eq_some_iff
  rw [hiff, h.entries, Multiset.mem_map]
  refine exists_congr fun a => and_congr_right fun _ => ?_
  unfold CatalogEntry.pair
  simp

theorem Mirrors.mem_iff (h : Mirrors c v m) : x ∈ m ↔ ∃ a ∈ contents v c, a.storedName = x := by
  rw [Finmap.mem_iff]
  constructor
  · rintro ⟨b, hb⟩
    obtain ⟨a, ha, hx, _⟩ := h.lookup_iff.mp hb
    exact ⟨a, ha, hx⟩
  · rintro ⟨a, ha, hx⟩
    exact ⟨_, h.lookup_iff.mpr ⟨a, ha, hx, rfl⟩⟩

theorem Mirrors.nodup (h : Mirrors c v m) : ((contents v c).map CatalogEntry.storedName).Nodup := by
  have hkeys := m.nodupKeys
  rw [h.entries, ← Multiset.nodup_keys] at hkeys
  have hmap : Multiset.keys (Multiset.map CatalogEntry.pair (contents v c : Multiset CatalogEntry)) =
      ((contents v c).map CatalogEntry.storedName : Multiset (List UInt8)) := by
    unfold Multiset.keys
    rw [Multiset.map_map, Multiset.map_coe]
    rfl
  rw [hmap] at hkeys
  exact hkeys

theorem hiddenAt_superuser (hroot : who.uid = 0) (i : UInt32) : hiddenAt who v i = false := by
  unfold hiddenAt owSecIsSuperuser
  simp [hroot]

theorem CatalogEntry.Good.answers {a : CatalogEntry} (h : a.Good) : a.Answers x ↔ a.storedName = x :=
  owSutf8NameCmp_iff h.valid

/-- 特権の主体に見えない答えは、ない。 -/
theorem Mirrors.not_mem_of_unseen (h : Mirrors c v m) (hroot : who.uid = 0)
    (hun : ∀ a ∈ contents v c, Unseen who v x a) : x ∉ m := by
  rw [h.mem_iff]
  rintro ⟨a, ha, hx⟩
  have hgood := h.good a ha
  exact Bool.noConfusion ((hun a ha hgood.sum (hgood.answers.mpr hx)).symm.trans (hiddenAt_superuser hroot _))

/-- 対応にある名前は、名前の引数の検査を通る。 -/
theorem Mirrors.proper_of_mem (h : Mirrors c v m) (hname : HoldsName name nameLen)
    (hx : nameBytes name nameLen ∈ m) : Proper name nameLen := by
  obtain ⟨a, ha, hx⟩ := h.mem_iff.mp hx
  have hgood := h.good a ha
  have hne : nameBytes name nameLen ≠ [] := by
    rw [← hx]
    exact hgood.nonempty
  have hsome : name.isSome = true := by
    cases name with
    | none => exact absurd (by simp [nameBytes]) hne
    | some l => rfl
  have hlen := length_nameBytes hname hsome
  refine ⟨hsome, ?_, ?_⟩
  · rintro rfl
    exact hne (List.length_eq_zero_iff.mp hlen)
  · rw [← hlen, ← hx]
    unfold CatalogEntry.storedName
    rw [List.length_take]
    exact lt_of_le_of_lt (Nat.min_le_left _ _) hgood.short

theorem ne_empty_of_mem (hx : x ∈ m) : m ≠ ∅ := by
  rintro rfl
  exact Finmap.notMem_empty hx

end

/-! ## 一回の操作 -/

section

variable {c : UInt32} {v v' : Vol} {m m' : NameMap} {who : OwIdentity} {name : Option (List UInt8)} {nameLen : Nat}
  {target : UInt32} {entryType : UInt8}

/-- カタログの種類を保って中身を書き換えた後の関係。 -/
theorem Mirrors.update (h : Mirrors c v m) (hm : Moved {c} v v')
    (htype : (inodeAt v'.dev.disk v'.sb c).entryType = (inodeAt v.dev.disk v.sb c).entryType)
    (hgood : ∀ a ∈ contents v' c, a.Good)
    (hentries : m'.entries = Multiset.map CatalogEntry.pair (contents v' c : Multiset CatalogEntry))
    (hw : m' ≠ ∅ → volumeWritable v.sb = .ok ()) : Mirrors c v' m' := by
  refine ⟨hm.ready, hm.carry.sums h.sums, by rw [hm.carry.shape.totalInodes]; exact h.inTable, ?_, ?_, hgood, hentries,
    fun hne => ?_⟩
  · unfold slotVacant
    rw [htype]
    exact h.live
  · rw [htype]
    exact h.catalog
  · rw [hm.carry.shape.volumeWritable]
    exact hw hne

theorem Mirrors.still (h : Mirrors c v m) (hs : Still v v') : Mirrors c v' m := by
  have hm := hs.upholds (T := {c}) h.ready
  obtain ⟨k, rfl⟩ := hs
  exact h.update hm rfl h.good h.entries h.writable

theorem Mirrors.unlisted (h : Mirrors c v m) (hun : Unlisted v v' c) : Mirrors c v' m := by
  refine h.update hun.moved (congrArg Inode.entryType hun.record) ?_ ?_ h.writable
  · rw [hun.contents]
    exact h.good
  · rw [hun.contents]
    exact h.entries

/-- 登録した項目は、登録が書いた項目の条件を満たす。 -/
theorem good_freshEntry (hname : HoldsName name nameLen) (hadm : Admissible v name nameLen entryType) :
    (freshEntry target entryType name nameLen).Good := by
  have hp := hadm.proper
  have hstored : (freshEntry target entryType name nameLen).storedName = nameBytes name nameLen :=
    storedName_freshEntry hname hp.given hp.short
  refine ⟨verify_freshEntry, ?_, ?_, ?_⟩
  · rw [nameLength_freshEntry hp.short]
    exact hp.short
  · rw [hstored]
    intro hnil
    have hlen := length_nameBytes hname hp.given
    rw [hnil] at hlen
    exact hp.nonempty hlen.symm
  · rw [hstored]
    exact hadm.valid

theorem Mirrors.inserted (h : Mirrors c v m) (hroot : who.uid = 0) (hname : HoldsName name nameLen)
    (hins : Inserted who v v' c name nameLen target entryType) :
    nameBytes name nameLen ∉ m ∧ Mirrors c v' (m.insert (nameBytes name nameLen) (target, entryType)) := by
  have hgood : (freshEntry target entryType name nameLen).Good := good_freshEntry hname hins.admissible
  have hp := hins.admissible.proper
  have hnot := h.not_mem_of_unseen hroot (hins.unseen (h.opens hroot accessRead) h.legible)
  have hperm := hins.listed.contents
  refine ⟨hnot, h.update hins.listed.moved hins.listed.type ?_ ?_ fun _ => hins.admissible.writable⟩
  · intro a ha
    rcases List.mem_cons.mp (hperm.mem_iff.mp ha) with rfl | ha
    · exact hgood
    · exact h.good a ha
  · rw [Finmap.entries_insert_of_notMem hnot, h.entries, Multiset.coe_eq_coe.mpr hperm, ← Multiset.cons_coe,
      Multiset.map_cons]
    unfold CatalogEntry.pair
    rw [storedName_freshEntry hname hp.given hp.short]
    rfl

theorem Mirrors.removed (h : Mirrors c v m) (hrem : Removed who v v' c name nameLen) :
    nameBytes name nameLen ∈ m ∧ Mirrors c v' (m.erase (nameBytes name nameLen)) := by
  obtain ⟨a, hperm, _, hans⟩ := hrem.erased
  have ha : a ∈ contents v c := hperm.mem_iff.mpr List.mem_cons_self
  have hx : a.storedName = nameBytes name nameLen := (h.good a ha).answers.mp (hans h.legible)
  refine ⟨h.mem_iff.mpr ⟨a, ha, hx⟩, ?_⟩
  refine h.update hrem.moved (congrArg Inode.entryType hrem.record) ?_ ?_ fun _ => hrem.writable
  · intro b hb
    exact h.good b (hperm.mem_iff.mpr (List.mem_cons_of_mem _ hb))
  · have hentries := h.entries
    rw [Multiset.coe_eq_coe.mpr hperm, ← Multiset.cons_coe, Multiset.map_cons] at hentries
    unfold CatalogEntry.pair at hentries
    rw [hx] at hentries
    exact erase_entries hentries

theorem Mirrors.spared (h : Mirrors c v m) (hm : Moved {c}ᶜ v v') : Mirrors c v' m := by
  have hc : c ∉ ({c}ᶜ : Set UInt32) := fun hno => hno rfl
  have ht : (inodeAt v.dev.disk v.sb c).entryType ≠ 0 := by
    intro hz
    have hcat := h.catalog
    rw [hz] at hcat
    exact hcat rfl
  have hrec := hm.spares.record c h.inTable hc
  have hcont : contents v' c = contents v c := hm.spares.entries_eq h.ready.sound h.inTable hc ht
  refine ⟨hm.ready, hm.carry.sums h.sums, by rw [hm.carry.shape.totalInodes]; exact h.inTable, ?_, ?_, ?_, ?_, ?_⟩
  · rw [hrec]
    exact h.live
  · rw [hrec]
    exact h.catalog
  · rw [hcont]
    exact h.good
  · rw [hcont]
    exact h.entries
  · rw [hm.carry.shape.volumeWritable]
    exact h.writable

end

/-! ## 実行の全体 -/

section

variable {c : UInt32} {v : Vol} {m : NameMap} {who : OwIdentity}

/-- 一回の操作は、対応との関係を保ち、対応の通りに答える。 -/
theorem Mirrors.step (h : Mirrors c v m) (hroot : who.uid = 0) (op : DirOp) (hop : op.Fits c) :
    Mirrors c (op.step who c (v, m)).2.1 (op.step who c (v, m)).2.2 ∧ Agrees (event (DirOp.step who c) op (v, m)) := by
  cases op with
  | insert name nameLen target entryType =>
      have hspec := catalogInsert_spec h.ready who c name nameLen target entryType
      unfold wp at hspec
      unfold Agrees event DirOp.step DirOp.run
      dsimp only
      rcases hrun : catalogInsert who c name nameLen target entryType v with ⟨r, v'⟩
      rw [hrun] at hspec
      cases r with
      | ok _ =>
          obtain ⟨hnot, hm⟩ := h.inserted hroot hop hspec
          refine ⟨hm, fun _ _ _ => ⟨⟨fun hno => ?_, fun hx => absurd hx hnot⟩, fun hx => absurd hx hnot⟩⟩
          cases hno
      | error e =>
          refine ⟨h.unlisted hspec.unlisted, fun hp hvalid htype => ?_⟩
          have hiff : e = .alreadyExists ↔ nameBytes name nameLen ∈ m := by
            constructor
            · intro he
              obtain ⟨_, hdup⟩ := hspec.duplicate he
              obtain ⟨a, ha, hans⟩ := hdup h.legible
              exact h.mem_iff.mpr ⟨a, ha, (h.good a ha).answers.mp hans⟩
            · intro hx
              obtain ⟨a, ha, hax⟩ := h.mem_iff.mp hx
              have hgood := h.good a ha
              refine hspec.seen ⟨hp, htype, hvalid, h.writable (ne_empty_of_mem hx)⟩ (h.opens hroot _) h.legible
                ⟨a, ha, fun hun => ?_⟩
              exact Bool.noConfusion ((hun hgood.sum (hgood.answers.mpr hax)).symm.trans (hiddenAt_superuser hroot _))
          refine ⟨⟨fun hres => hiff.mp ?_, fun hx => ?_⟩, fun hx => (hspec.duplicate (hiff.mpr hx)).1⟩
          · cases hres
            rfl
          · rw [hiff.mpr hx]
  | remove name nameLen =>
      have hspec := catalogRemove_spec h.ready who c name nameLen
      unfold wp at hspec
      unfold Agrees event DirOp.step DirOp.run
      dsimp only
      rcases hrun : catalogRemove who c name nameLen v with ⟨r, v'⟩
      rw [hrun] at hspec
      cases r with
      | ok _ =>
          obtain ⟨hx, hm⟩ := h.removed hspec
          exact ⟨hm, fun _ => hx, fun _ => rfl⟩
      | error e =>
          refine ⟨h.still hspec.1, fun hno => ?_, fun hx => ?_⟩
          · cases hno
          · have hmiss := (hspec.2 (h.proper_of_mem hop hx) (h.writable (ne_empty_of_mem hx)) (h.opens hroot _)).2
            obtain ⟨a, ha, hax⟩ := h.mem_iff.mp hx
            obtain ⟨b, _, _, hhid⟩ := hmiss h.legible a ha ((h.good a ha).answers.mpr hax)
            exact Bool.noConfusion (hhid.symm.trans (hiddenAt_superuser hroot _))
  | lookup name nameLen =>
      have hspec := catalogLookup_spec h.ready who c name nameLen
      unfold wp at hspec
      unfold Agrees event DirOp.step DirOp.run
      dsimp only
      rcases hrun : catalogLookup who c name nameLen v with ⟨r, v'⟩
      rw [hrun] at hspec
      cases r with
      | ok i =>
          obtain ⟨hs, _, _, hfound⟩ := hspec
          obtain ⟨a, ha, _, hans, hi, _⟩ := hfound h.legible
          refine ⟨h.still hs, fun _ => ?_⟩
          have hlook := h.lookup_iff.mpr ⟨a, ha, (h.good a ha).answers.mp hans, rfl⟩
          dsimp only
          rw [hlook, ← hi]
      | error e =>
          obtain ⟨hs, hmiss⟩ := hspec
          refine ⟨h.still hs, fun hp => ?_⟩
          obtain ⟨rfl, hun⟩ := hmiss hp (h.opens hroot _)
          have hnot := h.not_mem_of_unseen hroot (hun h.legible)
          dsimp only
          rw [Finmap.lookup_eq_none.mpr hnot]
  | list maxEntries =>
      have hspec := catalogList_spec h.ready who c maxEntries
      unfold wp at hspec
      unfold Agrees event DirOp.step DirOp.run
      dsimp only
      rcases hrun : catalogList who c maxEntries v with ⟨r, v'⟩
      rw [hrun] at hspec
      cases r with
      | ok l =>
          obtain ⟨⟨hs, rfl⟩, _⟩ := hspec
          refine ⟨h.still hs, fun _ => ⟨_, rfl, ?_⟩⟩
          have hall : (contents v c).filter (visible who v) = contents v c := by
            refine List.filter_eq_self.mpr fun a ha => ?_
            unfold visible
            rw [(h.good a ha).sum, hiddenAt_superuser hroot]
            rfl
          have hcard : m.keys.card = (contents v c).length := by
            have hkeys : m.keys.card = m.entries.card := Multiset.card_map _ _
            rw [hkeys, h.entries, Multiset.card_map, Multiset.coe_card]
          rw [hall]
          refine ⟨by rw [List.length_take, hcard], ?_, fun a ha => ?_⟩
          · rw [List.map_take]
            exact h.nodup.sublist (List.take_sublist _ _)
          · exact h.lookup_iff.mpr ⟨a, List.mem_of_mem_take ha, rfl, rfl⟩
      | error e => exact ⟨h.still hspec.1, fun hmax => absurd ⟨hmax, h.opens hroot _⟩ hspec.2⟩
  | other op => exact ⟨h.spared (moved_of_dataOp h.ready h.live op hop), trivial⟩

/-- 空のカタログは、空の対応と同じである。 -/
theorem mirrors_empty (hr : Ready v) (hs : Summed v) (hc : c.toNat < v.sb.totalInodes.toNat)
    (hlive : slotVacant (inodeAt v.dev.disk v.sb c) = false)
    (hcat : (inodeAt v.dev.disk v.sb c).entryType &&& entryCatalog ≠ 0) (hempty : contents v c = []) :
    Mirrors c v ∅ := by
  refine ⟨hr, hs, hc, hlive, hcat, ?_, ?_, fun hne => absurd rfl hne⟩
  · rw [hempty]
    exact fun _ ha => absurd ha List.not_mem_nil
  · rw [hempty]
    rfl

/-- 空のカタログから始めたどの操作の列でも、カタログは、成功した登録と抹消から作った対応の通りに答える。 -/
theorem catalog_refines_map (hr : Ready v) (hs : Summed v) (hc : c.toNat < v.sb.totalInodes.toNat)
    (hlive : slotVacant (inodeAt v.dev.disk v.sb c) = false)
    (hcat : (inodeAt v.dev.disk v.sb c).entryType &&& entryCatalog ≠ 0) (hempty : contents v c = [])
    (hroot : who.uid = 0) (ops : List DirOp) (hops : ∀ op ∈ ops, op.Fits c) :
    (trace (DirOp.step who c) ops (v, ∅)).Forall Agrees := by
  rw [List.forall_iff_forall_mem]
  have hfits : ∀ e ∈ trace (DirOp.step who c) ops (v, ∅), e.op.Fits c := fun e he => hops _ (op_mem_of_mem_trace he)
  obtain ⟨_, hall⟩ := trace_invariant (I := fun s => Mirrors c s.1 s.2) (P := fun e => e.op.Fits c)
    (fun op s h hop => (h.step hroot op hop).1) ops (v, ∅) (mirrors_empty hr hs hc hlive hcat hempty) hfits
  intro e he
  obtain ⟨h, heq⟩ := hall e he
  rw [heq]
  exact (h.step hroot e.op (hfits e he)).2

end

/-- 根のカタログに `a` を登録し、探し、二度登録し、一覧を取り、抹消する例。 -/
theorem catalog_refines_map_on_root :
    contents mountedVolume 0 = [] ∧
      (trace (DirOp.step ⟨0, 0⟩ 0) [.insert (some [0x61]) 1 5 entryFile, .lookup (some [0x61]) 1,
        .other (.inodeAlloc ⟨0, 0⟩ entryFile none 0 0), .insert (some [0x61]) 1 6 entryFile, .list 3,
        .remove (some [0x61]) 1] (mountedVolume, ∅)).Forall Agrees := by
  have hempty : contents mountedVolume 0 = [] := by decide +kernel
  have hletter : HoldsName (some [0x61]) 1 := by
    rintro l ⟨⟩
    exact le_rfl
  refine ⟨hempty, catalog_refines_map inSession_mountedVolume.toReady inSession_mountedVolume.sums (by decide +kernel)
    (by decide +kernel) (by decide +kernel) hempty rfl _ ?_⟩
  intro op hop
  simp only [List.mem_cons, List.not_mem_nil, or_false] at hop
  rcases hop with rfl | rfl | rfl | rfl | rfl | rfl
  · exact hletter
  · exact hletter
  · exact fun hno => by cases hno
  · exact hletter
  · trivial
  · exact hletter

end OwStorage.Owfs
