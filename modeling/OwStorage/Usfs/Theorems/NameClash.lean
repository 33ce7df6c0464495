import OwStorage.Usfs.Lemmas.Directory
import OwStorage.Common.Lemmas.String

/-!
# 同じ親の下の名前

項目の割り当ては、同じ親の下に同じ名前の項目がすでにあるかを調べない。ない名前だけを割り当てるかぎり、同じ親の下の名前は
重ならない。
-/

namespace OwStorage.Usfs

open Lib Prog

/-- 親が同じで、比較して等しい名前を持つ、二つの生きている項目はない。 -/
def NamesUnique (v : Vol) : Prop :=
  ∀ i j, ((viewOf v).table i).Live → ((viewOf v).table j).Live →
    ((viewOf v).table i).parentEntry = ((viewOf v).table j).parentEntry →
    owSutf8NameCmp ((viewOf v).table i).nameField ((viewOf v).table j).nameField = 0 → i = j

/-- 検査を通り、空きのスロットもある割り当てでは、親の下のどの生きている項目の名前とも違う名前を渡す。 -/
def NewName (e : Event Vol EntryOp (Except UsfsErr Unit)) : Prop :=
  ∀ who entryType name nameLen parent hname, e.op = .alloc who entryType name nameLen parent hname →
    Admissible e.before who entryType name nameLen parent → (∃ j, FirstSlot e.before j) →
    ∀ i, ((viewOf e.before).table i).Live → ((viewOf e.before).table i).parentEntry = parent →
      owSutf8NameCmp ((viewOf e.before).table i).nameField (nameBytes name nameLen) ≠ 0

/-! ## 名前の重ならない集まり -/

/-- 同じ親の下に、同じ名前の二つの項目はない。 -/
def Directory.Apart (dir : Directory) : Prop :=
  ∀ i j n m, dir i = some n → dir j = some m → n.parent = m.parent → n.name = m.name → i = j

section

variable {dir : Directory} {idx : UInt32} {n : Node}

theorem Directory.Apart.erase (h : dir.Apart) : Directory.Apart (Function.update dir idx none) := by
  have hsub : ∀ {j m}, Function.update dir idx none j = some m → dir j = some m := by
    intro j m hj
    by_cases hji : j = idx
    · rw [hji, Function.update_self] at hj
      cases hj
    · rwa [Function.update_of_ne hji] at hj
  exact fun i j x y hi hj => h i j x y (hsub hi) (hsub hj)

/-- 同じ親の下にない名前を加える。 -/
theorem Directory.Apart.insert (h : dir.Apart) (hnew : ∀ j m, dir j = some m → m.parent = n.parent → m.name ≠ n.name) :
    Directory.Apart (Function.update dir idx (some n)) := by
  intro i j x y hi hj hparent hname
  by_cases hii : i = idx
  · by_cases hjj : j = idx
    · rw [hii, hjj]
    · rw [hii, Function.update_self] at hi
      rw [Function.update_of_ne hjj] at hj
      obtain rfl := Option.some.inj hi
      exact absurd hname.symm (hnew j y hj hparent.symm)
  · rw [Function.update_of_ne hii] at hi
    by_cases hjj : j = idx
    · rw [hjj, Function.update_self] at hj
      obtain rfl := Option.some.inj hj
      exact absurd hname (hnew i x hi hparent)
    · rw [Function.update_of_ne hjj] at hj
      exact h i j x y hi hj hparent hname

theorem Directory.apart_single : Directory.Apart (Function.update (fun _ => none) idx (some n)) := by
  refine Directory.Apart.insert (fun i _ _ _ hi => ?_) fun j _ hj => ?_
  · cases hi
  · cases hj

end

/-! ## 実行 -/

section

variable {v : Vol}

theorem namesUnique_of_apart (h : (directory v).Apart) : NamesUnique v := by
  intro i j hi hj hparent hcmp
  exact h i j _ _ (directory_live hi) (directory_live hj) hparent (owSutf8NameCmp_eq hcmp)

/-- ない名前だけを割り当てる呼び出しは、名前の重ならない集まりを保つ。 -/
theorem Kept.apart_step (hk : Kept v) (h : (directory v).Apart) (op : EntryOp) (hread : op.FreshlyRead v)
    (hnew : NewName (event EntryOp.run op v)) : (directory (op.run v).2).Apart := by
  have hstep := (hk.step op hread).step
  unfold NewName event at hnew
  generalize (op.run v).1 = r at hstep
  generalize (op.run v).2 = v' at hstep
  generalize directory v' = dir at hstep ⊢
  generalize v'.sb.usedEntries = used at hstep
  cases hstep with
  | refused => exact h
  | written => exact h
  | truncated => exact h
  | removed => exact h.erase
  | @added who entryType name nameLen parent idx hname hadm hslot =>
      refine h.insert fun j m hj hparent hsame => ?_
      have hlive : ((viewOf v).table j).Live := directory_isSome.mp (by rw [hj]; rfl)
      rw [directory_live hlive] at hj
      obtain rfl := Option.some.inj hj
      refine hnew who entryType name nameLen parent hname rfl hadm ⟨idx, hslot⟩ j hlive hparent ?_
      change ((viewOf v).table j).nameField = nameBytes name nameLen at hsame
      rw [hsame]
      exact owSutf8NameCmp_self hadm.valid

end

section

variable {who : OwIdentity} {totalBlocks : UInt32} {label : Option (List UInt8)} {d d' : HtlDevice} {v : Vol}

/-- フォーマットしたボリュームでは、読み直した項目を渡し、親の下にない名前だけを割り当てるかぎり、呼び出しの列のどこでも、
同じ親の下の名前は重ならない。 -/
theorem names_unique_when_new (hf : d.Reliable) (hfmt : formatVolume who totalBlocks label d = (.ok (), d'))
    (hopen : Opened d' v) (ops : List EntryOp)
    (hnew : ∀ e ∈ trace EntryOp.run ops v, e.op.FreshlyRead e.before ∧ NewName e) :
    NamesUnique (final EntryOp.run ops v) ∧
      ∀ e ∈ trace EntryOp.run ops v, NamesUnique e.before ∧ NamesUnique e.after := by
  have hfounded := founded_of_opened hf hfmt hopen
  obtain ⟨⟨_, hfin⟩, hall⟩ := trace_invariant (I := fun v => Kept v ∧ (directory v).Apart)
    (P := fun e => e.op.FreshlyRead e.before ∧ NewName e)
    (fun op _ h hP => ⟨(h.1.step op hP.1).kept, h.1.apart_step h.2 op hP.1 hP.2⟩) ops v
    ⟨hfounded.kept, by rw [hfounded.root]; exact Directory.apart_single⟩ hnew
  refine ⟨namesUnique_of_apart hfin, fun e he => ?_⟩
  obtain ⟨⟨hk, hbefore⟩, heq⟩ := hall e he
  have hstep := hnew e he
  rw [heq] at hstep ⊢
  exact ⟨namesUnique_of_apart hbefore, namesUnique_of_apart (hk.apart_step hbefore e.op hstep.1 hstep.2)⟩

end

/-- 集まりにない名前は、比べてもどの生きている項目の名前とも違う。 -/
theorem name_ne_of_directory {v : Vol} {name : List UInt8} (h : ∀ j m, directory v j = some m → m.name ≠ name)
    {i : UInt32} (hlive : ((viewOf v).table i).Live) : owSutf8NameCmp ((viewOf v).table i).nameField name ≠ 0 :=
  fun hcmp => h i _ (directory_live hlive) (owSutf8NameCmp_eq hcmp)

theorem Founded.name_ne {v : Vol} (h : Founded v) {c : UInt8} (hc : c ≠ 0x2F) (j : UInt32) (m : Node)
    (hj : directory v j = some m) : m.name ≠ [c] := by
  rw [h.root] at hj
  by_cases hz : j = 0
  · rw [hz, Function.update_self] at hj
    obtain rfl := Option.some.inj hj
    exact fun hname => hc (List.singleton_inj.mp hname).symm
  · rw [Function.update_of_ne hz] at hj
    cases hj

/-- 根の下にファイルを二つ作り、一つを消す。 -/
theorem names_unique_when_new_small :
    ∃ d' v, formatVolume ⟨0, 0⟩ 64 none (zeroDevice 0) = (.ok (), d') ∧ Opened d' v ∧
      NamesUnique (final EntryOp.run [createFile 0x61 0, createFile 0x62 0, .free ⟨0, 0⟩ 1] v) := by
  obtain ⟨d', v, hfmt, hopen⟩ := exists_opened_zeroDevice ⟨0, 0⟩ (n := 0) (.inl rfl)
  have hfounded := founded_of_opened (reliable_zeroDevice 0) hfmt hopen
  obtain ⟨v₁, _, hrun₁, _, _, _, hdir₁, _⟩ := two_files hfmt hopen (c := 0x62) (by decide) (.inl rfl)
  have hfirst : (EntryOp.run (createFile 0x61 0) v).2 = v₁ := congrArg Prod.snd hrun₁
  refine ⟨d', v, hfmt, hopen, (names_unique_when_new (reliable_zeroDevice 0) hfmt hopen _ fun e he => ?_).1⟩
  rcases List.mem_cons.mp he with rfl | he
  · refine ⟨trivial, ?_⟩
    rintro who entryType name nameLen parent hname ⟨⟩ _ _ i hlive _
    exact name_ne_of_directory (hfounded.name_ne (by decide)) hlive
  rw [hfirst] at he
  rcases List.mem_cons.mp he with rfl | he
  · refine ⟨trivial, ?_⟩
    rintro who entryType name nameLen parent hname ⟨⟩ _ _ i hlive _
    refine name_ne_of_directory (v := v₁) (fun j m hj => ?_) hlive
    rw [hdir₁] at hj
    by_cases hone : j = 1
    · rw [hone, Function.update_self] at hj
      obtain rfl := Option.some.inj hj
      exact (by decide : [0x61] ≠ ([0x62] : List UInt8))
    · rw [Function.update_of_ne hone] at hj
      exact hfounded.name_ne (by decide) j m hj
  · obtain rfl := List.mem_singleton.mp he
    refine ⟨trivial, ?_⟩
    rintro who entryType name nameLen parent hname ⟨⟩

/-- 同じ名前のファイルを二度作ると、どちらも通る。 -/
theorem names_clash :
    ¬ ∀ d' v, formatVolume ⟨0, 0⟩ 64 none (zeroDevice 0) = (.ok (), d') → Opened d' v →
      ∀ ops, NamesUnique (final EntryOp.run ops v) := by
  intro hclaim
  obtain ⟨d', v, hfmt, hopen⟩ := exists_opened_zeroDevice ⟨0, 0⟩ (n := 0) (.inl rfl)
  have hdir := second_file hfmt hopen 0 (.inl rfl)
  have hunique := hclaim d' v hfmt hopen [createFile 0x61 0, createFile 0x61 0]
  generalize final EntryOp.run [createFile 0x61 0, createFile 0x61 0] v = v₂ at hdir hunique
  have hnode₁ : directory v₂ 1 = some ⟨entryFile, [0x61], 0⟩ := by
    rw [hdir, Function.update_of_ne (by decide), Function.update_self]
  have hnode₂ : directory v₂ 2 = some ⟨entryFile, [0x61], 0⟩ := by
    rw [hdir, Function.update_self]
  have hlive₁ : ((viewOf v₂).table 1).Live := directory_isSome.mp (by rw [hnode₁]; rfl)
  have hlive₂ : ((viewOf v₂).table 2).Live := directory_isSome.mp (by rw [hnode₂]; rfl)
  rw [directory_live hlive₁] at hnode₁
  rw [directory_live hlive₂] at hnode₂
  have heq₁ := Option.some.inj hnode₁
  have heq₂ := Option.some.inj hnode₂
  have hname₁ : ((viewOf v₂).table 1).nameField = [0x61] := congrArg Node.name heq₁
  have hname₂ : ((viewOf v₂).table 2).nameField = [0x61] := congrArg Node.name heq₂
  have hparent : ((viewOf v₂).table 1).parentEntry = ((viewOf v₂).table 2).parentEntry :=
    (congrArg Node.parent heq₁).trans (congrArg Node.parent heq₂).symm
  have hsame := hunique 1 2 hlive₁ hlive₂ hparent (by rw [hname₁, hname₂]; decide)
  exact absurd hsame (by decide)

end OwStorage.Usfs
