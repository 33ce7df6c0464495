import OwStorage.Usfs.Lemmas.Directory
import OwStorage.Lib.Tree

/-!
# 項目の木

項目の割り当ては、親のスロットの種類が 0 でないことだけを調べる。親がファイルでも、消された項目でも通る。項目の解放は、子の
あるカタログも消す。親が生きているカタログであり、子のない項目だけを消すかぎり、項目は 0 番を根とする木をなす。
-/

namespace OwStorage.Usfs

open Lib Prog

/-- 根のほかの生きている項目の親は、生きているカタログであり、親をたどると根に着く。 -/
structure NamespaceTree (v : Vol) : Prop where
  parents : ∀ i, ((viewOf v).table i).Live → i ≠ 0 →
    ((viewOf v).table ((viewOf v).table i).parentEntry).Live ∧
      ((viewOf v).table ((viewOf v).table i).parentEntry).entryType = entryCatalog
  rooted : ∀ i, ((viewOf v).table i).Live → ∃ n, (fun j => ((viewOf v).table j).parentEntry)^[n] i = 0

/-- 検査を通り、空きのスロットもある割り当てでは、親は生きているカタログである。 -/
def GraftsSafely (e : Event Vol EntryOp (Except UsfsErr Unit)) : Prop :=
  ∀ who entryType name nameLen parent hname, e.op = .alloc who entryType name nameLen parent hname →
    Admissible e.before who entryType name nameLen parent → (∃ j, FirstSlot e.before j) →
      ((viewOf e.before).table parent).Live ∧ ((viewOf e.before).table parent).entryType = entryCatalog

/-- 検査を通る解放が消す生きている項目に、生きている子はない。 -/
def PrunesSafely (e : Event Vol EntryOp (Except UsfsErr Unit)) : Prop :=
  ∀ who idx, e.op = .free who idx → Erasable e.before who idx → ((viewOf e.before).table idx).Live →
    ∀ j, ((viewOf e.before).table j).Live → ((viewOf e.before).table j).parentEntry ≠ idx

/-- 根の項目の解放は通らない。 -/
def SparesRoot (e : Event Vol EntryOp (Except UsfsErr Unit)) : Prop :=
  ∀ who, e.op = .free who 0 → ¬ Erasable e.before who 0

/-! ## 木をなす集まり -/

/-- 項目から親の番号への対応。 -/
def Directory.up (dir : Directory) (i : UInt32) : Option UInt32 := (dir i).map Node.parent

/-- 0 番を根とする木をなす。 -/
structure Directory.Tree (dir : Directory) : Prop where
  root : ∃ n, dir 0 = some n ∧ n.parent = 0
  parents : ∀ i n, dir i = some n → i ≠ 0 → ∃ m, dir n.parent = some m ∧ m.kind = entryCatalog
  rooted : ∀ i n, dir i = some n → Reaches dir.up 0 i

section

variable {dir : Directory} {idx : UInt32} {n : Node}

theorem Directory.up_update (x : Option Node) :
    Directory.up (Function.update dir idx x) = Function.update dir.up idx (x.map Node.parent) := by
  funext j
  unfold Directory.up
  by_cases hj : j = idx
  · rw [hj, Function.update_self, Function.update_self]
  · rw [Function.update_of_ne hj, Function.update_of_ne hj]

/-- 空きの番号に、生きているカタログの子を加える。 -/
theorem Directory.Tree.insert (h : dir.Tree) (hidx : dir idx = none)
    (hparent : ∃ m, dir n.parent = some m ∧ m.kind = entryCatalog) :
    Directory.Tree (Function.update dir idx (some n)) := by
  have hkept : ∀ {j m}, dir j = some m → Function.update dir idx (some n) j = some m := by
    intro j m hj
    rw [Function.update_of_ne ?_, hj]
    rintro rfl
    rw [hidx] at hj
    cases hj
  have hup : dir.up idx = none := by
    unfold Directory.up
    rw [hidx]
    rfl
  obtain ⟨r, hr, hself⟩ := h.root
  obtain ⟨m, hm, hcat⟩ := hparent
  refine ⟨⟨r, hkept hr, hself⟩, fun i x hi hne => ?_, fun i x hi => ?_⟩
  · by_cases hii : i = idx
    · rw [hii, Function.update_self] at hi
      obtain rfl := Option.some.inj hi
      exact ⟨m, hkept hm, hcat⟩
    · rw [Function.update_of_ne hii] at hi
      obtain ⟨p, hp, hpcat⟩ := h.parents i x hi hne
      exact ⟨p, hkept hp, hpcat⟩
  · rw [Directory.up_update]
    by_cases hii : i = idx
    · rw [hii]
      exact .step (Function.update_self _ _ _) ((h.rooted _ m hm).insert hup _)
    · rw [Function.update_of_ne hii] at hi
      exact (h.rooted i x hi).insert hup _

/-- 根でない、子のない項目を除く。 -/
theorem Directory.Tree.erase (h : dir.Tree) (hroot : idx ≠ 0) (hleaf : ∀ j m, dir j = some m → m.parent ≠ idx) :
    Directory.Tree (Function.update dir idx none) := by
  have hother : ∀ {j m}, Function.update dir idx none j = some m → j ≠ idx ∧ dir j = some m := by
    intro j m hj
    by_cases hji : j = idx
    · rw [hji, Function.update_self] at hj
      cases hj
    · rw [Function.update_of_ne hji] at hj
      exact ⟨hji, hj⟩
  obtain ⟨r, hr, hself⟩ := h.root
  refine ⟨⟨r, by rw [Function.update_of_ne hroot.symm, hr], hself⟩, fun i x hi hne => ?_, fun i x hi => ?_⟩
  · obtain ⟨_, hi⟩ := hother hi
    obtain ⟨p, hp, hpcat⟩ := h.parents i x hi hne
    exact ⟨p, by rw [Function.update_of_ne (hleaf i x hi), hp], hpcat⟩
  · obtain ⟨hii, hi⟩ := hother hi
    rw [Directory.up_update]
    refine (h.rooted i x hi).erase (fun j hj => ?_) hii
    unfold Directory.up at hj
    obtain ⟨m, hm, hpar⟩ := Option.map_eq_some_iff.mp hj
    exact hleaf j m hm hpar

theorem Directory.tree_single (hself : n.parent = 0) : Directory.Tree (Function.update (fun _ => none) 0 (some n)) := by
  have honly : ∀ {j : UInt32} {m}, Function.update (fun _ => none) 0 (some n) j = some m → j = 0 := by
    intro j m hj
    by_contra hne
    rw [Function.update_of_ne hne] at hj
    cases hj
  refine ⟨⟨n, Function.update_self _ _ _, hself⟩, fun i x hi hne => absurd (honly hi) hne, fun i x hi => ?_⟩
  rw [honly hi]
  exact .root

end

/-! ## 実行 -/

section

variable {v : Vol}

theorem namespaceTree_of_tree (h : (directory v).Tree) : NamespaceTree v := by
  refine ⟨fun i hi hne => ?_, fun i hi => ?_⟩
  · obtain ⟨m, hm, hcat⟩ := h.parents i _ (directory_live hi) hne
    have hlive := directory_isSome.mp (by rw [hm]; rfl)
    rw [directory_live hlive] at hm
    obtain rfl := Option.some.inj hm
    exact ⟨hlive, hcat⟩
  · refine (h.rooted i _ (directory_live hi)).iterate fun j p hj => ?_
    obtain ⟨m, hm, rfl⟩ := Option.map_eq_some_iff.mp hj
    rw [directory_live (directory_isSome.mp (by rw [hm]; rfl))] at hm
    exact congrArg Node.parent (Option.some.inj hm)

/-- 条件を満たす呼び出しは木を保つ。 -/
theorem Kept.tree_step (hk : Kept v) (h : (directory v).Tree) (op : EntryOp) (hread : op.FreshlyRead v)
    (hroot : SparesRoot (event EntryOp.run op v)) (hgraft : GraftsSafely (event EntryOp.run op v))
    (hprune : PrunesSafely (event EntryOp.run op v)) : (directory (op.run v).2).Tree := by
  have hstep := (hk.step op hread).step
  unfold SparesRoot event at hroot
  unfold GraftsSafely event at hgraft
  unfold PrunesSafely event at hprune
  generalize (op.run v).1 = r at hstep
  generalize (op.run v).2 = v' at hstep
  generalize directory v' = dir at hstep ⊢
  generalize v'.sb.usedEntries = used at hstep
  cases hstep with
  | refused => exact h
  | written => exact h
  | truncated => exact h
  | @added who entryType name nameLen parent idx hname hadm hslot =>
      obtain ⟨hlive, hcat⟩ := hgraft who entryType name nameLen parent hname rfl hadm ⟨idx, hslot⟩
      have hdead : directory v idx = none := by
        by_contra hne
        exact Entry.live_iff.mp (directory_isSome.mp (Option.isSome_iff_ne_none.mpr hne)) hslot.vacant
      exact h.insert hdead ⟨_, directory_live hlive, hcat⟩
  | @removed who idx hpass =>
      by_cases hlive : ((viewOf v).table idx).Live
      · refine h.erase (fun hzero => ?_) fun j m hj => ?_
        · rw [hzero] at hpass hroot
          exact hroot who rfl hpass
        · have hj' : ((viewOf v).table j).Live := directory_isSome.mp (by rw [hj]; rfl)
          rw [directory_live hj'] at hj
          obtain rfl := Option.some.inj hj
          exact hprune who idx rfl hpass hlive j hj'
      · have hsame : Function.update (directory v) idx none = directory v :=
          Function.update_eq_self_iff.mpr (if_neg hlive).symm
        rw [hsame]
        exact h

end

section

variable {who : OwIdentity} {totalBlocks : UInt32} {label : Option (List UInt8)} {d d' : HtlDevice} {v : Vol}

/-- 根を消さない実行では、生きているカタログの下に作り、子のない項目だけを消すかぎり、呼び出しの列のどこでも、項目は木をなす。 -/
theorem namespace_is_tree (hf : d.Reliable) (hfmt : formatVolume who totalBlocks label d = (.ok (), d'))
    (hopen : Opened d' v) (ops : List EntryOp) (hroot : ∀ e ∈ trace EntryOp.run ops v, SparesRoot e)
    (hsafe : ∀ e ∈ trace EntryOp.run ops v, e.op.FreshlyRead e.before ∧ GraftsSafely e ∧ PrunesSafely e) :
    NamespaceTree (final EntryOp.run ops v) ∧
      ∀ e ∈ trace EntryOp.run ops v, NamespaceTree e.before ∧ NamespaceTree e.after := by
  have hfounded := founded_of_opened hf hfmt hopen
  obtain ⟨⟨_, hfin⟩, hall⟩ := trace_invariant (I := fun v => Kept v ∧ (directory v).Tree)
    (P := fun e => SparesRoot e ∧ e.op.FreshlyRead e.before ∧ GraftsSafely e ∧ PrunesSafely e)
    (fun op _ h hP => ⟨(h.1.step op hP.2.1).kept, h.1.tree_step h.2 op hP.2.1 hP.1 hP.2.2.1 hP.2.2.2⟩) ops v
    ⟨hfounded.kept, by rw [hfounded.root]; exact Directory.tree_single rfl⟩ fun e he => ⟨hroot e he, hsafe e he⟩
  refine ⟨namespaceTree_of_tree hfin, fun e he => ?_⟩
  obtain ⟨⟨hk, hbefore⟩, heq⟩ := hall e he
  have hspares := hroot e he
  have hstep := hsafe e he
  rw [heq] at hspares hstep ⊢
  exact ⟨namespaceTree_of_tree hbefore,
    namespaceTree_of_tree (hk.tree_step hbefore e.op hstep.1 hspares hstep.2.1 hstep.2.2)⟩

end

theorem catalog_of_directory {v : Vol} {i parent : UInt32} {name : List UInt8}
    (h : directory v i = some ⟨entryCatalog, name, parent⟩) :
    ((viewOf v).table i).Live ∧ ((viewOf v).table i).entryType = entryCatalog := by
  have hlive : ((viewOf v).table i).Live := directory_isSome.mp (by rw [h]; rfl)
  rw [directory_live hlive] at h
  exact ⟨hlive, congrArg Node.kind (Option.some.inj h)⟩

/-- 根の下にファイルを二つ作り、一つを消す。 -/
theorem namespace_is_tree_small :
    ∃ d' v, formatVolume ⟨0, 0⟩ 64 none (zeroDevice 0) = (.ok (), d') ∧ Opened d' v ∧
      NamespaceTree (final EntryOp.run [createFile 0x61 0, createFile 0x62 0, .free ⟨0, 0⟩ 1] v) := by
  obtain ⟨d', v, hfmt, hopen⟩ := exists_opened_zeroDevice ⟨0, 0⟩ (n := 0) (.inl rfl)
  have hfounded := founded_of_opened (reliable_zeroDevice 0) hfmt hopen
  obtain ⟨v₁, v₂, hrun₁, hrun₂, _, _, hdir₁, hdir₂⟩ := two_files hfmt hopen (c := 0x62) (by decide) (.inl rfl)
  have hfirst : (EntryOp.run (createFile 0x61 0) v).2 = v₁ := congrArg Prod.snd hrun₁
  have hsecond : (EntryOp.run (createFile 0x62 0) v₁).2 = v₂ := congrArg Prod.snd hrun₂
  have hroot : directory v 0 = some ⟨entryCatalog, [0x2F], 0⟩ := by
    rw [hfounded.root, Function.update_self]
  -- どの生きている項目の親も根である。
  have hflat : ∀ j n, directory v₂ j = some n → n.parent = 0 := by
    intro j n hj
    rw [hdir₂, hdir₁, hfounded.root] at hj
    unfold Function.update at hj
    simp only [eq_rec_constant, dite_eq_ite] at hj
    split at hj
    · exact congrArg Node.parent (Option.some.inj hj).symm
    · split at hj
      · exact congrArg Node.parent (Option.some.inj hj).symm
      · split at hj
        · exact congrArg Node.parent (Option.some.inj hj).symm
        · cases hj
  have hsafe : ∀ e ∈ trace EntryOp.run [createFile 0x61 0, createFile 0x62 0, .free ⟨0, 0⟩ 1] v,
      SparesRoot e ∧ e.op.FreshlyRead e.before ∧ GraftsSafely e ∧ PrunesSafely e := by
    intro e he
    rcases List.mem_cons.mp he with rfl | he
    · refine ⟨?_, trivial, ?_, ?_⟩
      · rintro who ⟨⟩
      · rintro who entryType name nameLen parent hname ⟨⟩ _ _
        exact catalog_of_directory hroot
      · rintro who idx ⟨⟩
    rw [hfirst] at he
    rcases List.mem_cons.mp he with rfl | he
    · refine ⟨?_, trivial, ?_, ?_⟩
      · rintro who ⟨⟩
      · rintro who entryType name nameLen parent hname ⟨⟩ _ _
        exact catalog_of_directory (v := v₁) (by rw [hdir₁, Function.update_of_ne (by decide), hroot])
      · rintro who idx ⟨⟩
    · rw [hsecond] at he
      obtain rfl := List.mem_singleton.mp he
      refine ⟨?_, trivial, ?_, ?_⟩
      · intro who hop
        injection hop with _ hidx
        exact absurd hidx (by decide)
      · rintro who entryType name nameLen parent hname ⟨⟩
      · rintro who idx ⟨⟩ _ _ j hj hparent
        have hzero := hflat j _ (directory_live hj)
        change ((viewOf v₂).table j).parentEntry = 1 at hparent
        rw [hparent] at hzero
        exact absurd (show (1 : UInt32) = 0 from hzero) (by decide)
  exact ⟨d', v, hfmt, hopen, (namespace_is_tree (reliable_zeroDevice 0) hfmt hopen _ (fun e he => (hsafe e he).1)
    fun e he => (hsafe e he).2).1⟩

/-- ファイルの下にもファイルを作れる。 -/
theorem namespace_grafts_on_file :
    ¬ ∀ d' v, formatVolume ⟨0, 0⟩ 64 none (zeroDevice 0) = (.ok (), d') → Opened d' v →
      ∀ ops, (∀ e ∈ trace EntryOp.run ops v, SparesRoot e) → NamespaceTree (final EntryOp.run ops v) := by
  intro hclaim
  obtain ⟨d', v, hfmt, hopen⟩ := exists_opened_zeroDevice ⟨0, 0⟩ (n := 0) (.inl rfl)
  have hdir := second_file hfmt hopen 1 (.inr rfl)
  have htree := hclaim d' v hfmt hopen [createFile 0x61 0, createFile 0x61 1] fun e he => by
    have hmem := op_mem_of_mem_trace he
    simp only [List.mem_cons, List.not_mem_nil, or_false] at hmem
    intro who hop
    rcases hmem with hmem | hmem <;> rw [hop] at hmem <;> cases hmem
  generalize final EntryOp.run [createFile 0x61 0, createFile 0x61 1] v = v₂ at hdir htree
  have hnode₁ : directory v₂ 1 = some ⟨entryFile, [0x61], 0⟩ := by
    rw [hdir, Function.update_of_ne (by decide), Function.update_self]
  have hnode₂ : directory v₂ 2 = some ⟨entryFile, [0x61], 1⟩ := by
    rw [hdir, Function.update_self]
  have hlive₁ : ((viewOf v₂).table 1).Live := directory_isSome.mp (by rw [hnode₁]; rfl)
  have hlive₂ : ((viewOf v₂).table 2).Live := directory_isSome.mp (by rw [hnode₂]; rfl)
  rw [directory_live hlive₁] at hnode₁
  rw [directory_live hlive₂] at hnode₂
  have hkind : ((viewOf v₂).table 1).entryType = entryFile := congrArg Node.kind (Option.some.inj hnode₁)
  have hparent : ((viewOf v₂).table 2).parentEntry = 1 := congrArg Node.parent (Option.some.inj hnode₂)
  have hcat := (htree.parents 2 hlive₂ (by decide)).2
  rw [hparent, hkind] at hcat
  exact absurd hcat (by decide)

end OwStorage.Usfs
