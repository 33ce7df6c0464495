import OwStorage.Owfs.Theorems.NameMap
import OwStorage.Owfs.Lemmas.Attr

/-!
# カタログの中の名前の重なり

登録は、登録する主体の権限で同じ名前を探し、見つからなければ項目を書く。だから、その主体に見えない項目と同じ名前が登録
されることがある。同じ名前の項目がいつもその主体に見えるかぎり、どのカタログの名前も重ならない。
-/

namespace OwStorage.Owfs

open Lib Prog

/-! ## 呼び出しの列 -/

/-- カタログの項目を増やし減らす操作と、inode の属性の変更。 -/
inductive NameOp where
  | create (who : OwIdentity) (parent : UInt32) (name : Option (List UInt8)) (nameLen : Nat)
  | mkdir (who : OwIdentity) (parent : UInt32) (name : Option (List UInt8)) (nameLen : Nat)
  | insert (who : OwIdentity) (catalog : UInt32) (name : Option (List UInt8)) (nameLen : Nat) (target : UInt32)
      (entryType : UInt8)
  | remove (who : OwIdentity) (catalog : UInt32) (name : Option (List UInt8)) (nameLen : Nat)
  | attrs (n : UInt32) (a : Attrs)

def NameOp.run : NameOp → OwfsM Unit
  | create who parent name nameLen => discard (catalogCreate who parent name nameLen)
  | mkdir who parent name nameLen => discard (catalogMkdir who parent name nameLen)
  | insert who catalog name nameLen target entryType => catalogInsert who catalog name nameLen target entryType
  | remove who catalog name nameLen => catalogRemove who catalog name nameLen
  | attrs n a => setAttrs n a

/-- 名前の緩衝域は、名前の長さを持つ。 -/
def NameOp.Fits : NameOp → Prop
  | create _ _ name nameLen => HoldsName name nameLen
  | mkdir _ _ name nameLen => HoldsName name nameLen
  | insert _ _ name nameLen _ _ => HoldsName name nameLen
  | remove _ _ name nameLen => HoldsName name nameLen
  | attrs _ _ => True

/-- どのカタログにも、検査値の正しい、名前の等しい二つの項目はない。 -/
def UniqueNames (v : Vol) : Prop :=
  ∀ n : UInt32, n.toNat < v.sb.totalInodes.toNat → (inodeAt v.dev.disk v.sb n).entryType &&& entryCatalog ≠ 0 →
    (contents v n).Pairwise fun a b => catalogEntryVerifyChecksum a = true → catalogEntryVerifyChecksum b = true →
      owSutf8NameCmp a.storedName b.storedName ≠ 0

/-- カタログ `c` の名前 `x` の項目は、どれも主体 `who` に見える。 -/
def Visible (who : OwIdentity) (v : Vol) (c : UInt32) (x : List UInt8) : Prop :=
  ∀ a ∈ contents v c, catalogEntryVerifyChecksum a = true → a.Answers x →
    Opens who accessRead v c ∧ hiddenAt who v a.inodeNumber = false

/-- 引数の検査と書き込みの権限を通る登録では、同じ名前の項目がどれも登録する主体に見える。 -/
def Clear (who : OwIdentity) (v : Vol) (c : UInt32) (name : Option (List UInt8)) (nameLen : Nat) (entryType : UInt8) :
    Prop :=
  Admissible v name nameLen entryType → Opens who accessWrite v c → Visible who v c (nameBytes name nameLen)

def NameOp.Clear (v : Vol) : NameOp → Prop
  | create who parent name nameLen => Owfs.Clear who v parent name nameLen entryFile
  | mkdir who parent name nameLen => Owfs.Clear who v parent name nameLen entryCatalog
  | insert who catalog name nameLen _ entryType => Owfs.Clear who v catalog name nameLen entryType
  | remove _ _ _ _ => True
  | attrs _ _ => True

/-! ## 保たれる条件 -/

/-- 登録が書いた項目からなり、名前の重ならない並び。 -/
structure Distinct (l : List CatalogEntry) : Prop where
  good : ∀ a ∈ l, a.Good
  names : (l.map CatalogEntry.storedName).Nodup

/-- 使われているどの inode についても、カタログとしての中身の名前は重ならない。 -/
structure Tidy (v : Vol) : Prop where
  ready : Ready v
  sums : Summed v
  distinct : ∀ n : UInt32, n.toNat < v.sb.totalInodes.toNat → (inodeAt v.dev.disk v.sb n).entryType ≠ 0 →
    Distinct (contents v n)

section

variable {v v' : Vol} {c n : UInt32} {who : OwIdentity} {name : Option (List UInt8)} {nameLen : Nat}
  {target parent : UInt32} {entryType : UInt8} {l l' : List CatalogEntry} {a : CatalogEntry}

theorem distinct_nil : Distinct [] := ⟨fun _ ha => absurd ha List.not_mem_nil, List.nodup_nil⟩

theorem Distinct.legible (h : Distinct l) : Legible l := fun a ha => (h.good a ha).short.le.trans (by decide)

theorem Distinct.cons (h : Distinct l) (ha : a.Good) (hnew : ∀ b ∈ l, b.storedName ≠ a.storedName) :
    Distinct (a :: l) := by
  refine ⟨fun b hb => ?_, ?_⟩
  · rcases List.mem_cons.mp hb with rfl | hb
    · exact ha
    · exact h.good b hb
  · rw [List.map_cons, List.nodup_cons]
    refine ⟨fun hmem => ?_, h.names⟩
    obtain ⟨b, hb, he⟩ := List.mem_map.mp hmem
    exact hnew b hb he

theorem Distinct.tail (h : Distinct (a :: l)) : Distinct l :=
  ⟨fun b hb => h.good b (List.mem_cons_of_mem _ hb), (List.nodup_cons.mp h.names).2⟩

theorem Distinct.perm (h : Distinct l) (hp : l'.Perm l) : Distinct l' :=
  ⟨fun a ha => h.good a (hp.mem_iff.mp ha), (hp.map CatalogEntry.storedName).nodup_iff.mpr h.names⟩

/-- 名前の重ならない並びでは、どの二つの名前も等しいと比べられない。 -/
theorem Distinct.pairwise (h : Distinct l) :
    l.Pairwise fun a b => owSutf8NameCmp a.storedName b.storedName ≠ 0 := by
  have hne : l.Pairwise fun a b => a.storedName ≠ b.storedName := List.pairwise_map.mp h.names
  refine hne.imp_of_mem fun {a b} ha _ hab hcmp => hab ?_
  exact (h.good a ha).answers.mp hcmp

theorem Tidy.uniqueNames (h : Tidy v) : UniqueNames v := by
  intro n hn hcat
  refine (h.distinct n hn fun ht => ?_).pairwise.imp fun hne _ _ => hne
  rw [ht] at hcat
  exact hcat rfl

/-- `c` の外を書き換えない移動の後では、`c` の中身だけを調べればよい。 -/
theorem Tidy.update (h : Tidy v) (hm : Moved {c} v v')
    (hc : c.toNat < v.sb.totalInodes.toNat → (inodeAt v'.dev.disk v'.sb c).entryType ≠ 0 → Distinct (contents v' c)) :
    Tidy v' := by
  refine ⟨hm.ready, hm.carry.sums h.sums, fun n hn ht => ?_⟩
  rw [hm.carry.shape.totalInodes] at hn
  by_cases hnc : n = c
  · rw [hnc] at hn ht ⊢
    exact hc hn ht
  · have hrec := hm.spares.record n hn hnc
    rw [hrec] at ht
    have hcont : contents v' n = contents v n := hm.spares.entries_eq h.ready.sound hn hnc ht
    rw [hcont]
    exact h.distinct n hn ht

/-- `c` の種類も中身も変わらない。 -/
theorem Tidy.same (h : Tidy v) (hm : Moved {c} v v')
    (htype : (inodeAt v'.dev.disk v'.sb c).entryType = (inodeAt v.dev.disk v.sb c).entryType)
    (hcont : contents v' c = contents v c) : Tidy v' := by
  refine h.update hm fun hc ht => ?_
  rw [htype] at ht
  rw [hcont]
  exact h.distinct c hc ht

theorem Tidy.still (h : Tidy v) (hs : Still v v') : Tidy v' := by
  have hm := hs.upholds (T := {0}) h.ready
  obtain ⟨k, rfl⟩ := hs
  exact h.same hm rfl rfl

/-! ## 一回の操作 -/

/-- 通った登録の名前は、その主体に見えるどの項目の名前とも違う。 -/
theorem Tidy.inserted (h : Tidy v) (hname : HoldsName name nameLen) (hclear : Clear who v c name nameLen entryType)
    (hins : Inserted who v v' c name nameLen target entryType) : Tidy v' := by
  have hc := hins.opens.inTable
  have hdistinct := h.distinct c hc hins.opens.type_ne_zero
  have hp := hins.admissible.proper
  refine h.update hins.listed.moved fun _ _ => Distinct.perm (Distinct.cons hdistinct
    (good_freshEntry hname hins.admissible) fun b hb he => ?_) hins.listed.contents
  rw [storedName_freshEntry hname hp.given hp.short] at he
  have hgood := hdistinct.good b hb
  have hans : b.Answers (nameBytes name nameLen) := hgood.answers.mpr he
  obtain ⟨ho, hseen⟩ := hclear hins.admissible hins.opens b hb hgood.sum hans
  exact Bool.noConfusion ((hins.unseen ho hdistinct.legible b hb hgood.sum hans).symm.trans hseen)

theorem Tidy.insert (h : Tidy v) (hname : HoldsName name nameLen) (hclear : Clear who v c name nameLen entryType)
    (target : UInt32) :
    wp (catalogInsert who c name nameLen target entryType) (fun _ v' => Tidy v') (fun _ v' => Tidy v') v := by
  refine (catalogInsert_spec h.ready who c name nameLen target entryType).mono ?_ ?_
  · intro _ v' hins
    exact h.inserted hname hclear hins
  · intro _ v' href
    exact h.same href.unlisted.moved (congrArg Inode.entryType href.unlisted.record) href.unlisted.contents

theorem Tidy.remove (h : Tidy v) (who : OwIdentity) (c : UInt32) (name : Option (List UInt8)) (nameLen : Nat) :
    wp (catalogRemove who c name nameLen) (fun _ v' => Tidy v') (fun _ v' => Tidy v') v := by
  refine (catalogRemove_spec h.ready who c name nameLen).mono ?_ (fun _ _ hs => h.still hs.1)
  intro _ v' hrem
  obtain ⟨a, hperm, _⟩ := hrem.erased
  refine h.update hrem.moved fun hc ht => ?_
  rw [hrem.record] at ht
  exact ((h.distinct c hc ht).perm hperm.symm).tail

theorem Tidy.allocated (h : Tidy v) (halloc : Allocated who entryType name nameLen parent v v' n) : Tidy v' := by
  refine h.update halloc.moved fun _ _ => ?_
  have hnil : contents v' n = [] := entries_eq_nil (by rw [halloc.record]; rfl)
  rw [hnil]
  exact distinct_nil

theorem Tidy.freed (h : Tidy v) (hfree : Freed v v' n) : Tidy v' := by
  rcases hfree.emptied with hz | hs
  · refine h.update hfree.moved fun _ _ => ?_
    have hnil : contents v' n = [] := entries_eq_nil hz
    rw [hnil]
    exact distinct_nil
  · exact h.still hs

/-- 割り当ての前に見えた項目は、割り当ての後でも見える。 -/
theorem Clear.allocated (hclear : Clear who v c name nameLen entryType) (hr : Ready v)
    (halloc : Allocated who entryType name nameLen parent v v' n) : Clear who v' c name nameLen entryType := by
  intro hadm ho a ha hsum hans
  by_cases hcn : c = n
  · have hnil : contents v' c = [] := entries_eq_nil (by rw [hcn, halloc.record]; rfl)
    rw [hnil] at ha
    exact absurd ha List.not_mem_nil
  · have hc := ho.inTable
    rw [halloc.moved.carry.shape.totalInodes] at hc
    have hrec := halloc.moved.spares.record c hc hcn
    have ht := ho.type_ne_zero
    have hopens : ∀ {want}, Opens who want v' c ↔ Opens who want v c := by
      intro want
      constructor
      · rintro ⟨_, hs, hcat, hacc⟩
        rw [hrec] at hs hcat hacc
        exact ⟨hc, hs, hcat, hacc⟩
      · rintro ⟨_, hs, hcat, hacc⟩
        rw [← hrec] at hs hcat hacc
        exact ⟨ho.inTable, hs, hcat, hacc⟩
    rw [hrec] at ht
    have hcont : contents v' c = contents v c := halloc.moved.spares.entries_eq hr.sound hc hcn ht
    rw [hcont] at ha
    obtain ⟨hread, hseen⟩ := hclear ⟨hadm.proper, hadm.type, hadm.valid, halloc.writable⟩ (hopens.mp ho) a ha hsum hans
    exact ⟨hopens.mpr hread, halloc.hidden_mono hseen⟩

theorem Tidy.make (h : Tidy v) (hname : HoldsName name nameLen) (hclear : Clear who v c name nameLen entryType) :
    wp (catalogMake who entryType c name nameLen) (fun _ v' => Tidy v') (fun _ v' => Tidy v') v := by
  unfold catalogMake
  rw [wp_bind]
  refine (inodeAlloc_spec h.ready who entryType name nameLen c).mono ?_ (fun _ _ hs => h.still hs)
  intro n v₁ halloc
  rw [wp_bind, wp_attempt]
  refine ((h.allocated halloc).insert hname (hclear.allocated h.ready halloc) n).mono (fun _ _ h₂ => h₂) ?_
  intro e v₂ h₂
  simp only [wp_bind, wp_attempt, wp_throw]
  exact (inodeFree_spec h₂.ready who n).mono (fun _ _ hf => h₂.freed hf) (fun _ _ hs => h₂.still hs)

/-- 見えない同名の項目がない一回の操作は、名前の重なりを作らない。 -/
theorem Tidy.step (h : Tidy v) (op : NameOp) (hfits : op.Fits) (hclear : op.Clear v) : Tidy (op.run v).2 := by
  cases op with
  | create who parent name nameLen =>
      unfold NameOp.run
      rw [discard_state]
      exact (h.make hfits hclear).state
  | mkdir who parent name nameLen =>
      unfold NameOp.run
      rw [discard_state]
      exact (h.make hfits hclear).state
  | insert who catalog name nameLen target entryType => exact (h.insert hfits hclear target).state
  | remove who catalog name nameLen => exact (h.remove who catalog name nameLen).state
  | attrs n a =>
      refine wp.state (I := Tidy) ((setAttrs_spec h.ready n a).mono (fun _ v' htag => ?_) (fun _ _ hs => h.still hs))
      refine h.same htag.moved ?_ htag.contents
      rw [htag.record]
      rfl

/-- 何も書かれていないカタログは空である。 -/
theorem Blank.contents_eq_nil (h : Blank v) (hn : n.toNat < v.sb.totalInodes.toNat)
    (ht : (inodeAt v.dev.disk v.sb n).entryType ≠ 0) : contents v n = [] := by
  refine List.eq_nil_iff_forall_not_mem.mpr fun a ha => ?_
  obtain ⟨j, hj, hslot⟩ := mem_entries.mp ha
  unfold slotAt at hslot
  obtain rfl := h.eq_root hn ht
  rw [h.zeroed (j / 16) (by omega), slotIn_zero (Nat.mod_lt _ (by decide))] at hslot
  cases hslot

theorem tidy_of_opened {d₀ d : HtlDevice} {totalBlocks : UInt32} {label : Option (List UInt8)} (hff : d₀.FaultFree)
    (hformat : formatVolume totalBlocks label d₀ = (.ok (), d)) (hopen : Opened d v) : Tidy v := by
  obtain ⟨hblank, hsums⟩ := blank_of_opened hformat hopen
  refine ⟨ready_of_opened hff hformat hopen, hsums, fun n hn ht => ?_⟩
  rw [hblank.contents_eq_nil hn ht]
  exact distinct_nil

end

/-! ## 実行の全体 -/

/-- 同じ名前の項目がいつも登録する主体に見える実行では、どのカタログの名前も重ならない。 -/
theorem names_unique_when_visible {d₀ d : HtlDevice} {totalBlocks : UInt32} {label : Option (List UInt8)} {v : Vol}
    (hff : d₀.FaultFree) (hformat : formatVolume totalBlocks label d₀ = (.ok (), d)) (hopen : Opened d v)
    (ops : List NameOp) (hfits : ∀ op ∈ ops, op.Fits) (hclear : ∀ e ∈ trace NameOp.run ops v, e.op.Clear e.before) :
    UniqueNames (final NameOp.run ops v) := by
  have htidy : Tidy (final NameOp.run ops v) := by
    refine (trace_invariant (I := Tidy) (P := fun e => e.op.Fits ∧ e.op.Clear e.before) ?_ ops v
      (tidy_of_opened hff hformat hopen) fun e he => ⟨hfits _ (op_mem_of_mem_trace he), hclear e he⟩).1
    intro op v' h hop
    exact h.step op hop.1 hop.2
  exact htidy.uniqueNames

/-! ## 小さなボリュームの例 -/

/-- 特権の主体には、どの項目も見える。 -/
theorem clear_superuser {v : Vol} {who : OwIdentity} {c : UInt32} {name : Option (List UInt8)} {nameLen : Nat}
    {entryType : UInt8} (hroot : who.uid = 0) : Clear who v c name nameLen entryType := fun _ ho _ _ _ _ =>
  ⟨⟨ho.inTable, ho.sum, ho.catalog, by simp [inodeAccessCheck, owSecAccess_superuser hroot]⟩,
    hiddenAt_superuser hroot _⟩

/-- 特権の主体が、作成と登録と削除と属性の変更を重ねる。 -/
def superuserOps : List NameOp :=
  [.mkdir ⟨0, 0⟩ 0 (some [0x61]) 1, .create ⟨0, 0⟩ 1 (some [0x61]) 1, .attrs 1 ⟨0, 7, 7, secHidden.toUInt8⟩,
    .insert ⟨0, 0⟩ 0 (some [0x61]) 1 2 entryFile, .remove ⟨0, 0⟩ 0 (some [0x61]) 1]

theorem names_unique_for_superuser :
    Opened formattedVolume.dev mountedVolume ∧ UniqueNames (final NameOp.run superuserOps mountedVolume) := by
  have hopen : Opened formattedVolume.dev mountedVolume := .mount (mount_formattedVolume Superblock.zero)
  refine ⟨hopen, names_unique_when_visible faultFree_blankDevice format_blankDevice hopen superuserOps ?_ ?_⟩
  · intro op hop
    simp only [superuserOps, List.mem_cons, List.not_mem_nil, or_false] at hop
    rcases hop with rfl | rfl | rfl | rfl | rfl
    · exact holdsName_letter
    · exact holdsName_letter
    · exact trivial
    · exact holdsName_letter
    · exact holdsName_letter
  · intro e he
    have hop := op_mem_of_mem_trace he
    simp only [superuserOps, List.mem_cons, List.not_mem_nil, or_false] at hop
    rcases hop with hop | hop | hop | hop | hop
    · rw [hop]
      exact clear_superuser rfl
    · rw [hop]
      exact clear_superuser rfl
    · rw [hop]
      exact trivial
    · rw [hop]
      exact clear_superuser rfl
    · rw [hop]
      exact trivial

/-- 主体 `who` は、カタログ `n` に書けるが、読んで名前を探すことはできない。カタログには空いている枠がある。 -/
structure Blind (who : OwIdentity) (v : Vol) (n : UInt32) : Prop where
  inTable : n.toNat < v.sb.totalInodes.toNat
  catalog : (inodeAt v.dev.disk v.sb n).entryType &&& entryCatalog ≠ 0
  access : inodeAccessCheck who (inodeAt v.dev.disk v.sb n) accessWrite = .ok ()
  deny : inodeAccessCheck who (inodeAt v.dev.disk v.sb n) accessRead = .error .accessDenied
  room : (contents v n).length < (inodeAt v.dev.disk v.sb n).blockCount.toNat * 16

/-- 探せないカタログへの登録は、同じ名前があっても項目を書く。 -/
theorem Blind.run {who : OwIdentity} {v : Vol} {n : UInt32} {name : Option (List UInt8)} {nameLen : Nat}
    {entryType : UInt8} (h : Blind who v n) (hr : Ready v) (hs : Summed v) (hadm : Admissible v name nameLen entryType)
    (target : UInt32) : catalogInsert who n name nameLen target entryType v =
      placeEntry n (freshEntry target entryType name nameLen) (inodeAt v.dev.disk v.sb n)
        (inodeLoad n (inodeLoad n v).2).2 ∧
      ∃ v', catalogInsert who n name nameLen target entryType v = (.ok (), v') := by
  have ht : (inodeAt v.dev.disk v.sb n).entryType ≠ 0 := by
    intro hz
    have hcat := h.catalog
    rw [hz] at hcat
    exact hcat rfl
  have ho : Opens who accessWrite v n := ⟨h.inTable, hs n h.inTable ht, h.catalog, h.access⟩
  have hread : catalogRead n v = (.ok (inodeAt v.dev.disk v.sb n), (inodeLoad n v).2) :=
    run_bind (hr.inodeRead_run ho.inTable fun _ => ho.sum) (run_bind (run_failIf ho.catalog) rfl)
  have hlook : catalogLookup who n name nameLen v = (.error .accessDenied, (inodeLoad n v).2) := by
    refine run_bind (run_failIf hadm.proper.not_refused) (run_bind (run_failIf (Nat.not_le.mpr hadm.proper.short))
      (run_bind hread ?_))
    rw [h.deny]
    rfl
  have hrun := catalogInsert_run hr ho hadm hlook target
  have hload : Preserves Still (inodeLoad n) := still_inodeLoad n
  have hstill : Still v (inodeLoad n (inodeLoad n v).2).2 :=
    trans_of Still (hload v).state (hload (inodeLoad n v).2).state
  obtain ⟨v', hplace⟩ := placeEntry_ok hr hstill h.inTable ht h.room (freshEntry target entryType name nameLen)
  exact ⟨hrun, v', hrun.trans hplace⟩

/-- ほかの主体が書けるが読めない、根のカタログの属性。 -/
def dropboxAttrs : Attrs := ⟨accessWrite.toUInt16, 0, 0, 0⟩

/-- 根を書けるが読めなくしてから、持ち主でない主体が同じ名前を二度登録する。 -/
def dropboxOps : List NameOp :=
  [.attrs 0 dropboxAttrs, .insert ⟨1, 1⟩ 0 (some [0x61]) 1 0 entryFile, .insert ⟨1, 1⟩ 0 (some [0x61]) 1 0 entryFile]

/-- 同じ名前を二度登録したカタログの名前は、重なる。 -/
theorem not_unique_of_inserted_twice {v v₁ v₂ : Vol} {who : OwIdentity} {n target : UInt32} {name : Option (List UInt8)}
    {nameLen : Nat} {entryType : UInt8} (hname : HoldsName name nameLen)
    (h₁ : Inserted who v v₁ n name nameLen target entryType) (h₂ : Inserted who v₁ v₂ n name nameLen target entryType)
    (hn : n.toNat < v₂.sb.totalInodes.toNat) : ¬ UniqueNames v₂ := by
  intro h
  have hcat := h₂.opens.catalog
  rw [← h₂.listed.type] at hcat
  have hperm := h₂.listed.contents.trans (h₁.listed.contents.cons (freshEntry target entryType name nameLen))
  have hgood : (freshEntry target entryType name nameLen).Good := good_freshEntry hname h₁.admissible
  have hcount : 2 ≤ (contents v₂ n).count (freshEntry target entryType name nameLen) := by
    rw [hperm.count_eq]
    simp
  have hpair := (h n hn hcat).sublist (List.replicate_sublist_iff.mpr hcount)
  have hne := (List.pairwise_cons.mp hpair).1 _ (List.mem_singleton_self _) hgood.sum hgood.sum
  exact hne (hgood.answers.mpr rfl)

/-- 探せないカタログへの二度の登録は、名前を重ねる。 -/
theorem Blind.duplicates {who : OwIdentity} {v : Vol} {n : UInt32} (h : Blind who v n) (hr : Ready v) (hs : Summed v)
    (hw : volumeWritable v.sb = .ok ())
    (h₁ : ∀ v₁, catalogInsert who n (some [0x61]) 1 0 entryFile v = (.ok (), v₁) → Blind who v₁ n) :
    ¬ UniqueNames
      (catalogInsert who n (some [0x61]) 1 0 entryFile (catalogInsert who n (some [0x61]) 1 0 entryFile v).2).2 := by
  obtain ⟨_, v₁, hrun⟩ := h.run hr hs (admissible_letter (.inl rfl) hw) 0
  have hins := (catalogInsert_spec hr who n (some [0x61]) 1 0 entryFile).ok hrun
  have hr₁ := hins.listed.moved.ready
  have hs₁ := hins.listed.moved.carry.sums hs
  have hw₁ : volumeWritable v₁.sb = .ok () := by rwa [hins.listed.moved.carry.shape.volumeWritable]
  obtain ⟨_, v₂, hrun₁⟩ := (h₁ v₁ hrun).run hr₁ hs₁ (admissible_letter (.inl rfl) hw₁) 0
  have hins₁ := (catalogInsert_spec hr₁ who n (some [0x61]) 1 0 entryFile).ok hrun₁
  rw [hrun, hrun₁]
  refine not_unique_of_inserted_twice holdsName_letter hins hins₁ ?_
  rw [hins₁.listed.moved.carry.shape.totalInodes]
  exact hins₁.opens.inTable

/-- 根を書けるが読めなくした、小さなボリューム。 -/
@[irreducible] def dropbox : Vol := retagged 0 dropboxAttrs mountedVolume

/-- 登録の後のボリューム。 -/
@[irreducible] def dropped (v : Vol) : Vol :=
  (placeEntry 0 (freshEntry 0 entryFile (some [0x61]) 1) (inodeAt v.dev.disk v.sb 0)
    (inodeLoad 0 (inodeLoad 0 v).2).2).2

theorem setAttrs_dropbox : (setAttrs 0 dropboxAttrs mountedVolume).2 = dropbox := by
  unfold dropbox
  exact setAttrs_state inSession_mountedVolume.toReady inSession_mountedVolume.sums (by decide +kernel)
    (by decide +kernel)

theorem retag_empty {v v₁ : Vol} {n : UInt32} {a : Attrs} (h : Tidy v) (hnil : contents v n = [])
    (hv : (setAttrs n a v).2 = v₁) : Tidy v₁ ∧ contents v₁ n = [] := by
  refine ⟨hv ▸ h.step (.attrs n a) trivial trivial, ?_⟩
  rw [← hv]
  refine wp.state (I := fun v' => contents v' n = []) ((setAttrs_spec h.ready n a).mono ?_ ?_)
  · intro _ v' htag
    exact htag.contents.trans hnil
  · rintro _ _ ⟨c, rfl⟩
    exact hnil

theorem tidy_dropbox : Tidy dropbox ∧ contents dropbox 0 = [] := by
  have hopen : Opened formattedVolume.dev mountedVolume := .mount (mount_formattedVolume Superblock.zero)
  refine retag_empty (tidy_of_opened faultFree_blankDevice format_blankDevice hopen) ?_ setAttrs_dropbox
  exact (blank_of_opened format_blankDevice hopen).1.contents_eq_nil (by decide +kernel) (by decide +kernel)

theorem blind_dropbox : Blind ⟨1, 1⟩ dropbox 0 := by
  refine ⟨by decide +kernel, by decide +kernel, by decide +kernel, by decide +kernel, ?_⟩
  rw [tidy_dropbox.2]
  decide +kernel

theorem blind_dropped {v₁ : Vol} (hrun : catalogInsert ⟨1, 1⟩ 0 (some [0x61]) 1 0 entryFile dropbox = (.ok (), v₁)) :
    Blind ⟨1, 1⟩ v₁ 0 := by
  have htidy := tidy_dropbox.1
  have hlen := ((catalogInsert_spec htidy.ready ⟨1, 1⟩ 0 (some [0x61]) 1 0 entryFile).ok hrun).listed.contents.length_eq
  have hdropped : v₁ = dropped dropbox := by
    have h := (blind_dropbox.run htidy.ready htidy.sums (admissible_letter (.inl rfl) (by decide +kernel)) 0).1
    rw [hrun] at h
    unfold dropped
    exact congrArg Prod.snd h
  rw [tidy_dropbox.2] at hlen
  subst hdropped
  refine ⟨by decide +kernel, by decide +kernel, by decide +kernel, by decide +kernel, ?_⟩
  rw [hlen]
  decide +kernel

theorem final_dropboxOps {v v₁ : Vol} (h : (setAttrs 0 dropboxAttrs v).2 = v₁) :
    final NameOp.run dropboxOps v = (catalogInsert ⟨1, 1⟩ 0 (some [0x61]) 1 0 entryFile
      (catalogInsert ⟨1, 1⟩ 0 (some [0x61]) 1 0 entryFile v₁).2).2 := by
  rw [← h]
  rfl

theorem fits_dropboxOps : ∀ op ∈ dropboxOps, op.Fits := by
  intro op hop
  simp only [dropboxOps, List.mem_cons, List.not_mem_nil, or_false] at hop
  rcases hop with rfl | rfl | rfl
  · exact trivial
  · exact holdsName_letter
  · exact holdsName_letter

/-- 読めない根のカタログには、同じ名前が二度登録される。 -/
theorem unreadable_catalog_duplicates :
    ¬ ∀ (d₀ d : HtlDevice) (totalBlocks : UInt32) (label : Option (List UInt8)) (v : Vol) (ops : List NameOp),
      d₀.FaultFree → formatVolume totalBlocks label d₀ = (.ok (), d) → Opened d v → (∀ op ∈ ops, op.Fits) →
      UniqueNames (final NameOp.run ops v) := by
  intro hclaim
  have htidy := tidy_dropbox.1
  have hunique := hclaim blankDevice formattedVolume.dev 280 none mountedVolume dropboxOps faultFree_blankDevice
    format_blankDevice (.mount (mount_formattedVolume Superblock.zero)) fits_dropboxOps
  rw [final_dropboxOps setAttrs_dropbox] at hunique
  exact blind_dropbox.duplicates htidy.ready htidy.sums (by decide +kernel) (fun _ => blind_dropped) hunique

end OwStorage.Owfs
