import OwStorage.Usfs.Lemmas.Turned
import OwStorage.Common.Lemmas.String

/-!
# 生きている項目の集まり

表のうち生きている項目の、種類と名前と親の番号だけを取り出して `Directory` とする。どの操作も、`Directory` を変えないか、項目を
一つ加えるか、一つ除く。
-/

namespace OwStorage.Usfs

open Lib Prog

instance (e : Entry) : Decidable e.Live := inferInstanceAs (Decidable (_ ∧ _))

/-- 生きている項目の、種類と名前と親の番号。 -/
structure Node where
  kind : UInt8
  name : List UInt8
  parent : UInt32

/-- 番号から、生きている項目への対応。 -/
abbrev Directory : Type := UInt32 → Option Node

def Entry.node (e : Entry) : Option Node := if e.Live then some ⟨e.entryType, e.nameField, e.parentEntry⟩ else none

def directory (v : Vol) : Directory := fun idx => ((viewOf v).table idx).node

/-- 呼び出し一回の、生きている項目の集まりと、項目の数の欄への働き。 -/
inductive DirStep (v : Vol) : EntryOp → Except UsfsErr Unit → Directory → UInt32 → Prop
  | refused (op : EntryOp) (e : UsfsErr) : DirStep v op (.error e) (directory v) v.sb.usedEntries
  | added {who : OwIdentity} {entryType : UInt8} {name : Option (List UInt8)} {nameLen : Nat} {parent idx : UInt32}
      {hname : ∀ s, name = some s → nameLen ≤ s.length} (hadm : Admissible v who entryType name nameLen parent)
      (hslot : FirstSlot v idx) :
      DirStep v (.alloc who entryType name nameLen parent hname) (.ok ())
        (Function.update (directory v) idx (some ⟨entryType, nameBytes name nameLen, parent⟩)) (v.sb.usedEntries + 1)
  | removed {who : OwIdentity} {idx : UInt32} (h : Erasable v who idx) :
      DirStep v (.free who idx) (.ok ()) (Function.update (directory v) idx none)
        (if v.sb.usedEntries > 0 then v.sb.usedEntries - 1 else v.sb.usedEntries)
  | written {who : OwIdentity} {idx : UInt32} {held : Entry} {buf : List UInt8} {offset len : UInt32}
      {hbuf : len.toNat ≤ buf.length} :
      DirStep v (.write who idx held buf offset len hbuf) (.ok ()) (directory v) v.sb.usedEntries
  | truncated {who : OwIdentity} {idx : UInt32} {held : Entry} {size : UInt32} :
      DirStep v (.truncate who idx held size) (.ok ()) (directory v) v.sb.usedEntries

/-- 書き込みは、生きている項目の集まりを変えない。 -/
theorem DirStep.of_write {v : Vol} {who : OwIdentity} {idx used : UInt32} {held : Entry} {buf : List UInt8}
    {offset len : UInt32} {hbuf : len.toNat ≤ buf.length} {r : Except UsfsErr Unit} {dir : Directory}
    (h : DirStep v (.write who idx held buf offset len hbuf) r dir used) : dir = directory v := by
  cases h with
  | refused => rfl
  | written => rfl

/-- 操作の列の間、保たれる条件。生きている項目の並びはデータ領域に収まり、名前は名前の欄に収まる。 -/
structure Kept (v : Vol) : Prop where
  stable : Stable v
  summed : Summed v
  housed : ∀ idx, ((viewOf v).table idx).Live → v.sb.Houses ((viewOf v).table idx)
  named : ∀ idx, ((viewOf v).table idx).Live → ((viewOf v).table idx).nameLength.toNat < nameMaxBytes

/-! ## 名前の欄 -/

section

variable {e e' : Entry}

theorem Entry.nameField_eq (h : e.nameLength.toNat ≤ nameMaxBytes) :
    e.nameField = e.name.slice 0 e.nameLength.toNat := by
  obtain ⟨pre, post, hpre, hsplit⟩ : ∃ pre post, pre.length = 0x24 ∧
    Entry.codec.enc e = pre ++ (e.name.toList ++ post) := by
    refine ⟨Codec.u32.enc e.entryIndex ++ (Codec.u8.enc e.entryType ++ (Codec.u8.enc e.nameLength ++
      (Codec.u8.enc e.securityFlags ++ (Codec.u8.enc e.reserved1 ++ (Codec.u16.enc e.permissions ++
      (Codec.u16.enc e.flags ++ (Codec.u32.enc e.sizeBytes ++ (Codec.u32.enc e.firstBlock ++
      (Codec.u32.enc e.blockCount ++ (Codec.u32.enc e.parentEntry ++ (Codec.u32.enc e.createdTimestamp ++
      Codec.u32.enc e.modifiedTimestamp))))))))))),
      Codec.u16.enc e.ownerUid ++
        (Codec.u16.enc e.ownerGid ++ ((Codec.raw 84).enc e.reserved ++ Codec.u32.enc e.checksum)),
      ?_, ?_⟩
    · simp only [List.length_append, Codec.length_enc]
      rfl
    · change Entry.front.enc (Entry.fields e).1 ++ Codec.u32.enc e.checksum = _
      simp only [Entry.front, Codec.pair, List.append_assoc]
      rfl
  have hname : e.name.toList.length = nameMaxBytes := e.name.length_toList
  unfold Entry.nameField Bytes.slice
  rw [hsplit, ← hpre, List.drop_left, List.take_append_of_le_length (by rw [hname]; exact h), List.drop_zero]

theorem slice_nameCopy (src : List UInt8) (h : src.length < nameMaxBytes) :
    (owSutf8NameCopy (Bytes.zero 128) src).1.slice 0 src.length = src := by
  change src.length < 128 at h
  unfold owSutf8NameCopy
  rw [if_neg (by decide), if_pos h]
  dsimp only
  rw [List.take_length, Bytes.slice_patch_disjoint (.inl (Nat.zero_add _).le)]
  exact Bytes.slice_patch_same (by omega)

theorem Entry.Reshaped.live (h : e.Reshaped e') : e'.Live ↔ e.Live := by
  unfold Entry.Live
  rw [h.entryType]

theorem Entry.Reshaped.node (h : e.Reshaped e') (hname : e.Live → e.nameLength.toNat < nameMaxBytes) :
    e'.node = e.node := by
  unfold Entry.node
  by_cases hlive : e.Live
  · have hshort := (hname hlive).le
    rw [if_pos hlive, if_pos (h.live.mpr hlive), h.entryType, h.parentEntry, Entry.nameField_eq hshort,
      Entry.nameField_eq (by rw [h.nameLength]; exact hshort), h.name, h.nameLength]
  · rw [if_neg hlive, if_neg fun hlive' => hlive (h.live.mp hlive')]

theorem node_cleared (e : Entry) : (clearedEntry e).sealed.node = none := by
  have htype : (clearedEntry e).sealed.entryType = entryDeleted := by
    unfold Entry.sealed clearedEntry
    split <;> rfl
  refine if_neg fun hlive => ?_
  have hdeleted := hlive.2
  rw [htype] at hdeleted
  exact absurd hdeleted (by decide)

theorem length_nameBytes {name : Option (List UInt8)} {nameLen : Nat} (hsome : name.isNone = false)
    (hname : ∀ s, name = some s → nameLen ≤ s.length) : (nameBytes name nameLen).length = nameLen := by
  cases name with
  | none => cases hsome
  | some s =>
      unfold nameBytes
      rw [Option.getD_some, List.length_take, Nat.min_eq_left (hname s rfl)]

end

/-- 作られた記録は、引数の種類と名前と親を持つ、生きている項目である。 -/
theorem createdEntry_node {v : Vol} {who : OwIdentity} {entryType : UInt8} {name : Option (List UInt8)} {nameLen : Nat}
    {parent : UInt32} (idx : UInt32) (mode : UInt16) (first count : UInt32)
    (hadm : Admissible v who entryType name nameLen parent) (hname : ∀ s, name = some s → nameLen ≤ s.length) :
    (createdEntry who v.sb idx entryType mode name nameLen parent first count).node =
        some ⟨entryType, nameBytes name nameLen, parent⟩ ∧
      (createdEntry who v.sb idx entryType mode name nameLen parent first count).nameLength.toNat < nameMaxBytes := by
  have hshort := hadm.short
  have hlen : (UInt8.ofNat nameLen).toNat = nameLen := by
    rw [UInt8.toNat_ofNat']
    exact Nat.mod_eq_of_lt (Nat.lt_trans hshort (by decide))
  have hbytes := length_nameBytes hadm.present hname
  generalize he : createdEntry who v.sb idx entryType mode name nameLen parent first count = e
  have htype : e.entryType = entryType := by rw [← he]; rfl
  have hparent : e.parentEntry = parent := by rw [← he]; rfl
  have hfield : e.name = (owSutf8NameCopy (Bytes.zero 128) (nameBytes name nameLen)).1 := by rw [← he]; rfl
  have hsize : e.nameLength.toNat = nameLen := by
    rw [← hlen, ← he]
    rfl
  have hlive : e.Live := by
    unfold Entry.Live
    rw [htype]
    rcases hadm.type with rfl | rfl <;> decide
  refine ⟨?_, by rw [hsize]; exact hshort⟩
  unfold Entry.node
  rw [if_pos hlive, htype, hparent, Entry.nameField_eq (by rw [hsize]; exact hshort.le), hfield, hsize]
  have hcopy := slice_nameCopy (nameBytes name nameLen) (by rw [hbytes]; exact hshort)
  rw [hbytes] at hcopy
  rw [hcopy]

theorem directory_isSome {v : Vol} {j : UInt32} : (directory v j).isSome = true ↔ ((viewOf v).table j).Live := by
  unfold directory Entry.node
  split
  · rename_i h
    simp [h]
  · rename_i h
    simp [h]

theorem directory_live {v : Vol} {i : UInt32} (h : ((viewOf v).table i).Live) :
    directory v i = some
      ⟨((viewOf v).table i).entryType, ((viewOf v).table i).nameField, ((viewOf v).table i).parentEntry⟩ :=
  if_pos h

/-! ## 一回の呼び出し -/

section

variable {v v' : Vol} {idx k : UInt32} {e : Entry}

theorem Turned.directory_update (h : Turned v v' (Function.update (viewOf v).table idx e) k) :
    directory v' = Function.update (directory v) idx e.node := by
  funext j
  unfold directory
  rw [h.table]
  by_cases hj : j = idx
  · rw [hj, Function.update_self, Function.update_self]
  · rw [Function.update_of_ne hj, Function.update_of_ne hj]

theorem Turned.same_directory (h : Turned v v' (viewOf v).table k) : directory v' = directory v := by
  funext j
  unfold directory
  rw [h.table]

/-- 記録を一つ書き直しても、書いた記録が条件を満たせば、条件は保たれる。 -/
theorem Kept.turned (hk : Kept v) (h : Turned v v' (Function.update (viewOf v).table idx e) k)
    (hsum : e.entryType ≠ 0 → entryVerifyChecksum e = true) (hhouse : e.Live → v.sb.Houses e)
    (hname : e.Live → e.nameLength.toNat < nameMaxBytes) : Kept v' := by
  have hentry : ∀ j, (viewOf v').table j = e ∨ (viewOf v').table j = (viewOf v).table j := by
    intro j
    rw [h.table]
    by_cases hj : j = idx
    · rw [hj, Function.update_self]
      exact .inl rfl
    · rw [Function.update_of_ne hj]
      exact .inr rfl
  refine ⟨h.stable hk.stable, fun j => ?_, fun j => ?_, fun j => ?_⟩
  · rcases hentry j with he | he <;> rw [he]
    · exact hsum
    · exact hk.summed j
  · rw [h.shape.houses]
    rcases hentry j with he | he <;> rw [he]
    · exact hhouse
    · exact hk.housed j
  · rcases hentry j with he | he <;> rw [he]
    · exact hname
    · exact hk.named j

theorem Kept.same (hk : Kept v) (h : Turned v v' (viewOf v).table k) : Kept v' := by
  rw [← Function.update_eq_self 0 (viewOf v).table] at h
  exact hk.turned h (hk.summed 0) (hk.housed 0) (hk.named 0)

/-- 呼び出し一回の前後。 -/
structure Stepped (v : Vol) (op : EntryOp) (r : Except UsfsErr Unit) (v' : Vol) : Prop where
  kept : Kept v'
  shape : SameShape v.sb v'.sb
  config : v'.dev.toHtlConfig = v.dev.toHtlConfig
  step : DirStep v op r (directory v') v'.sb.usedEntries

theorem Kept.stepped_same (hk : Kept v) {op : EntryOp} {r : Except UsfsErr Unit}
    (h : Turned v v' (viewOf v).table v.sb.usedEntries) (hstep : DirStep v op r (directory v) v.sb.usedEntries) :
    Stepped v op r v' := by
  refine ⟨hk.same h, h.shape, h.config, ?_⟩
  rw [h.same_directory, h.used]
  exact hstep

theorem Kept.stepped_edit (hk : Kept v) {op : EntryOp} {r : Except UsfsErr Unit}
    (h : Edited v v' idx ((viewOf v).table idx))
    (hstep : DirStep v op r (directory v) v.sb.usedEntries) : Stepped v op r v' := by
  rcases h with h | ⟨e', hsame, hhouse, hsum, h⟩
  · exact hk.stepped_same h hstep
  · refine ⟨hk.turned h (fun _ => hsum) (fun _ => hhouse) (fun hlive => ?_), h.shape, h.config, ?_⟩
    · rw [hsame.nameLength]
      exact hk.named idx (hsame.live.mp hlive)
    · have hself : Function.update (directory v) idx e'.node = directory v := by
        rw [hsame.node (hk.named idx)]
        exact Function.update_eq_self idx (directory v)
      rw [h.directory_update, h.used, hself]
      exact hstep

/-- 読み直した項目でファイルへの操作を行う。ファイルでなければ断られる。 -/
theorem Kept.held (hk : Kept v) {op : EntryOp} {α : Type} {p : EntryM α} {held : Entry}
    (hread : (entryRead idx v).1 = .ok held)
    (hidle : held.entryType ≠ entryFile → Idle p ⟨v, held⟩)
    (hedit : idx.toNat < v.sb.totalEntries.toNat → v.sb.Houses held →
      wp p (fun _ s' => Edited v s'.vol idx held) (fun _ s' => Edited v s'.vol idx held) ⟨v, held⟩)
    (hrun : op.run = (do let _ ← withEntry held p; pure ()))
    (hok : DirStep v op (.ok ()) (directory v) v.sb.usedEntries) : Stepped v op (op.run v).1 (op.run v).2 := by
  obtain ⟨hidx, rfl, _⟩ := entryRead_fresh hk.stable (run_eq hread)
  have hall : wp p (fun _ s' => Edited v s'.vol idx ((viewOf v).table idx))
      (fun _ s' => Edited v s'.vol idx ((viewOf v).table idx)) ⟨v, (viewOf v).table idx⟩ := by
    by_cases hfile : ((viewOf v).table idx).entryType = entryFile
    · exact hedit hidx (hk.housed idx (Entry.live_of_file hfile))
    · refine (hidle hfile).mono ?_ ?_
      · rintro _ _ rfl
        exact .inl (.refl v)
      · rintro _ _ rfl
        exact .inl (.refl v)
  refine wp.outcome (P := fun r v' => Stepped v op r v') ?_
  rw [hrun, wp_bind, wp_withEntry]
  refine hall.mono (fun _ _ h => ?_) (fun e _ h => hk.stepped_edit h (.refused op e))
  rw [wp_pure]
  exact hk.stepped_edit h hok

theorem Kept.enrolled (hk : Kept v) {who : OwIdentity} {entryType : UInt8} {name : Option (List UInt8)} {nameLen : Nat}
    {parent : UInt32} (hname : ∀ s, name = some s → nameLen ≤ s.length)
    (h : Enrolled v v' who entryType name nameLen parent idx) :
    Kept v' ∧ SameShape v.sb v'.sb ∧ v'.dev.toHtlConfig = v.dev.toHtlConfig ∧
      directory v' = Function.update (directory v) idx (some ⟨entryType, nameBytes name nameLen, parent⟩) ∧
      v'.sb.usedEntries = v.sb.usedEntries + 1 := by
  obtain ⟨hadm, _, mode, first, count, hrange, h⟩ := h
  obtain ⟨hnode, hshort⟩ := createdEntry_node idx mode first count hadm hname
  refine ⟨hk.turned h (fun _ => verify_sealed _) (fun _ => hrange) (fun _ => hshort), h.shape, h.config, ?_, h.used⟩
  rw [h.directory_update, hnode]

theorem Kept.step (hk : Kept v) (op : EntryOp) (hread : op.FreshlyRead v) : Stepped v op (op.run v).1 (op.run v).2 := by
  cases op with
  | alloc who entryType name nameLen parent hname =>
      refine wp.outcome (P := fun r v' => Stepped v _ r v') ?_
      unfold EntryOp.run
      rw [wp_bind]
      refine (entryAlloc_turns hk.stable hk.summed who entryType name nameLen parent).mono ?_
        (fun e _ h => hk.stepped_same h (.refused _ e))
      intro idx v' h
      obtain ⟨hk', hshape, hconfig, hdir, hused⟩ := hk.enrolled hname h
      rw [wp_pure]
      refine ⟨hk', hshape, hconfig, ?_⟩
      rw [hdir, hused]
      exact .added h.admissible h.slot
  | free who idx =>
      refine wp.outcome (P := fun r v' => Stepped v _ r v') ?_
      unfold EntryOp.run
      refine (entryFree_turns hk.stable hk.summed who idx).mono ?_ (fun e _ h => hk.stepped_same h (.refused _ e))
      rintro _ v' ⟨hpass, h⟩
      have hdead : ¬ (clearedEntry ((viewOf v).table idx)).sealed.Live := fun hlive => by
        have hnode := node_cleared ((viewOf v).table idx)
        unfold Entry.node at hnode
        rw [if_pos hlive] at hnode
        cases hnode
      refine ⟨hk.turned h (fun _ => verify_sealed _) (fun hlive => absurd hlive hdead)
        (fun hlive => absurd hlive hdead),
        h.shape, h.config, ?_⟩
      rw [h.directory_update, node_cleared, h.used]
      exact .removed hpass
  | write who idx held buf offset len hbuf =>
      exact hk.held hread (fun hfile => idle_fileWrite_of_notFile hfile who idx buf offset len)
        (fun hidx hh => fileWrite_edits hk.stable hidx hh who hbuf) rfl .written
  | truncate who idx held size =>
      exact hk.held hread (fun hfile => idle_fileTruncate_of_notFile hfile who idx size)
        (fun hidx hh => fileTruncate_edits hk.stable hidx hh who size) rfl .truncated

end

/-! ## フォーマットしたボリューム -/

/-- 根の項目だけがある。 -/
structure Founded (v : Vol) : Prop where
  kept : Kept v
  root : directory v = Function.update (fun _ => none) 0 (some ⟨entryCatalog, [0x2F], 0⟩)
  used : v.sb.usedEntries = 1
  slots : 0 < v.sb.totalEntries.toNat

section

variable {v v' : Vol}

theorem SameGeometry.placed {sb sb' : Superblock} (h : SameGeometry sb sb') (hp : Placed sb) : Placed sb' := by
  obtain ⟨_, _, _, _, _, _, rfl⟩ := h
  exact ⟨hp.tableAfter, hp.bitmapAfter, hp.dataAfter, hp.entriesFit⟩

theorem Resaved.same_table (h : Resaved v v') (hp : Placed v.sb) : (viewOf v').table = (viewOf v).table := by
  have htable : tableView v'.dev.disk v.sb = tableView v.dev.disk v.sb := by
    funext idx
    unfold tableView
    split
    · rename_i hi
      unfold entryAt
      rw [h.table hp _ (hp.tableFits.blockOffset_mem hi)]
    · rfl
  obtain ⟨⟨_, _, _, _, _, _, hsb⟩, _, _⟩ := h
  calc (viewOf v').table = tableView v'.dev.disk v.sb := by
        change tableView v'.dev.disk v'.sb = _
        rw [hsb]
        rfl
    _ = (viewOf v).table := htable

theorem Founded.resaved (hf : Founded v) (h : Resaved v v') : Founded v' := by
  have hp := hf.kept.stable.placed
  have htable := h.same_table hp
  have hdir : directory v' = directory v := by
    unfold directory
    rw [htable]
  have hstable : Stable v' := by
    refine ⟨h.geometry.placed hp, ?_, ?_⟩
    · unfold HtlConfig.FaultFree
      rw [h.config]
      exact hf.kept.stable.faultFree
    · obtain ⟨⟨_, _, _, _, _, _, hsb⟩, hconfig, _⟩ := h
      rw [hconfig, hsb]
      exact ⟨hf.kept.stable.serves.writes, hf.kept.stable.serves.wholeBlocks⟩
  have hsummed : Summed v' := by
    intro idx
    rw [htable]
    exact hf.kept.summed idx
  obtain ⟨⟨_, _, _, _, _, _, hsb⟩, _, _⟩ := h
  refine ⟨⟨hstable, hsummed, fun idx => ?_, fun idx => ?_⟩, hdir.trans hf.root, ?_, ?_⟩
  · rw [htable, hsb]
    exact fun hlive hpos => ⟨hpos, (hf.kept.housed idx hlive hpos).low, (hf.kept.housed idx hlive hpos).high⟩
  · rw [htable]
    exact hf.kept.named idx
  · rw [hsb]
    exact hf.used
  · rw [hsb]
    exact hf.slots

/-- 書き終えたスーパーブロックは、メモリの上のものと同じである。 -/
theorem flushDirty_resaves :
    wp flushDirty (fun _ v' => Resaved v v' ∧ diskSb v' = v'.sb) (fun _ _ => True) v := by
  unfold flushDirty
  rw [wp_bind]
  refine (still_bitmapComputeFletcher64 v).mono ?_ (fun _ _ _ => trivial)
  rintro sum _ ⟨c, rfl⟩
  simp only [wp_bind, wp_modifySb]
  refine wp_superblockWrite (fun c' _ => ?_) (fun _ _ _ _ => trivial)
  exact wp_flushBlk (fun c'' =>
    ⟨⟨⟨_, _, _, _, _, _, rfl⟩, rfl, fun b hb => Function.update_of_ne hb _ _⟩, diskSb_saved⟩)
    (fun _ _ => trivial)

theorem table_zeroed (hp : Placed v.sb) (h : ∀ b ∈ v.sb.tableRegion, v.dev.disk b = Bytes.zero 4096) (idx : UInt32) :
    (viewOf v).table idx = Entry.zero := by
  change tableView v.dev.disk v.sb idx = _
  unfold tableView
  split
  · rename_i hi
    unfold entryAt
    rw [h _ (hp.tableFits.blockOffset_mem hi), entryIn_zero]
  · rfl

theorem Kept.of_empty (hs : Stable v) (h : ∀ idx, (viewOf v).table idx = Entry.zero) : Kept v := by
  have hdead : ∀ idx, ¬ ((viewOf v).table idx).Live := fun idx hlive => by
    rw [h idx] at hlive
    exact hlive.1 rfl
  refine ⟨hs, fun idx hne => ?_, fun idx hlive => absurd hlive (hdead idx), fun idx hlive => absurd hlive (hdead idx)⟩
  rw [h idx] at hne
  exact absurd rfl hne

end

section

variable {who : OwIdentity} {totalBlocks b : UInt32} {label : Option (List UInt8)} {d d' : HtlDevice} {v : Vol}

theorem formatBody_founds {nonce : Bytes 12} (hf : d.Reliable) (hpos : 1 ≤ b.toNat)
    (hne : 17 + b.toNat < totalBlocks.toNat) :
    wp (formatBody who) (fun _ v' => Founded v' ∧ diskSb v' = v'.sb ∧ v'.dev.toHtlConfig = d.toHtlConfig)
      (fun _ _ => True)
      ⟨d, freshSuperblock totalBlocks b label nonce⟩ := by
  have htot := totalBlocks.toNat_lt
  have h17 : (17 : UInt32).toNat = 17 := rfl
  have hadj : (freshSuperblock totalBlocks b label nonce).dataRegionStart.toNat =
      (freshSuperblock totalBlocks b label nonce).bitmapStartBlock.toNat +
        (freshSuperblock totalBlocks b label nonce).bitmapBlockCount.toNat := by
    change (17 + b).toNat = (17 : UInt32).toNat + b.toNat
    rw [toNat_add_lt (by omega)]
  have hp : Placed (freshSuperblock totalBlocks b label nonce) := by
    refine ⟨?_, ?_, hadj.ge, ?_⟩
    · change 0 < (1 : UInt32).toNat
      decide
    · change (1 : UInt32).toNat + (16 : UInt32).toNat ≤ (17 : UInt32).toNat
      decide
    · change (256 : UInt32).toNat ≤ 16 * (16 : UInt32).toNat
      decide
  have hfirst : (freshSuperblock totalBlocks b label nonce).bitmapStartBlock.toNat =
      (freshSuperblock totalBlocks b label nonce).entryTableStart.toNat +
        (freshSuperblock totalBlocks b label nonce).entryTableBlocks.toNat := rfl
  have hcount : 0 < (freshSuperblock totalBlocks b label nonce).bitmapBlockCount.toNat := hpos
  have hempty : (freshSuperblock totalBlocks b label nonce).usedEntries = 0 := rfl
  have hslots : 0 < (freshSuperblock totalBlocks b label nonce).totalEntries.toNat := by
    change 0 < (256 : UInt32).toNat
    decide
  generalize freshSuperblock totalBlocks b label nonce = sb at hadj hp hfirst hcount hempty hslots
  have hlt := sb.dataRegionStart.toNat_lt
  unfold formatBody
  rw [wp_bind, wp_get, wp_bind]
  refine (wp_zeroFill (v := ⟨d, sb⟩) hf.faultFree sb.entryTableStart (n := sb.entryTableBlocks.toNat) (by omega)
    fun i v₁ _ _ hf₁ => ?_).mono ?_ (fun _ _ _ => trivial)
  · rw [wp_bind, wp_attempt]
    exact wp_writeBlk (fun c hw => ⟨hw, c, rfl⟩) (fun _ _ _ hno hw => hno ⟨hf₁, hw⟩)
  rintro _ ⟨d₁, sb₁⟩ hz₁
  obtain rfl : sb₁ = sb := hz₁.sb
  have hf₁ : d₁.FaultFree := hz₁.dev.faultFree hf.faultFree
  rw [wp_bind]
  refine (bitmapInit_zeroes (v := ⟨d₁, sb₁⟩) hp hf₁ hcount).mono ?_ (fun _ _ _ => trivial)
  rintro _ ⟨d₂, sb₂⟩ hz₂
  obtain rfl : sb₂ = sb₁ := hz₂.sb
  have hwhole : d₁.WholeBlocks := by
    rw [hz₁.dev.config]
    exact hf.wholeBlocks
  have hstable : Stable ⟨d₂, sb₂⟩ := ⟨hp, hz₂.dev.faultFree hf₁, hz₂.serves hadj hcount hwhole⟩
  have htable : ∀ idx, (viewOf ⟨d₂, sb₂⟩).table idx = Entry.zero := table_zeroed hp fun x hx => by
    refine (hz₂.dev.disk x fun hx' => ?_).trans (hz₁.zero x hx)
    have hhigh := hx.2
    have hlow := hx'.1
    change sb₂.bitmapStartBlock.toNat ≤ _ at hlow
    change _ < sb₂.entryTableStart.toNat + sb₂.entryTableBlocks.toNat at hhigh
    omega
  have hkept := Kept.of_empty hstable htable
  rw [wp_bind]
  refine (entryAlloc_turns hstable hkept.summed who entryCatalog (some [0x2F]) 1 0).mono ?_ (fun _ _ _ => trivial)
  intro idx v₃ hc
  have hidx : idx = 0 := by
    by_contra hno
    have hpos : 0 < idx.toNat := Nat.pos_of_ne_zero fun h => hno (UInt32.toNat_inj.mp h)
    have hlive := hc.slot.before 0 hpos
    rw [htable] at hlive
    exact hlive.1 rfl
  subst hidx
  obtain ⟨hkept₃, hshape, hconfig, hdir, hused⟩ := hkept.enrolled (fun s hs => by cases hs; decide) hc
  have hused₃ : v₃.sb.usedEntries = 1 := by
    rw [hused]
    change sb₂.usedEntries + 1 = 1
    rw [hempty]
    rfl
  have hfounded : Founded v₃ := by
    refine ⟨hkept₃, ?_, hused₃, ?_⟩
    · have hnone : directory ⟨d₂, sb₂⟩ = fun _ => none := by
        funext j
        unfold directory
        rw [htable]
        rfl
      rw [hdir, hnone]
      rfl
    · rw [hshape.totalEntries]
      exact hslots
  have hsame : ({ v₃ with sb := { v₃.sb with usedEntries := 1 } } : Vol) = v₃ := by
    rw [← hused₃]
  rw [wp_bind, wp_modifySb, hsame, wp_bind]
  refine (still_bitmapComputeFletcher64 v₃).mono ?_ (fun _ _ _ => trivial)
  rintro sum _ ⟨c, rfl⟩
  rw [wp_bind, wp_modifySb, wp_bind]
  refine (still_signatureCompute _).mono ?_ (fun _ _ _ => trivial)
  rintro sig _ ⟨c', rfl⟩
  rw [wp_bind, wp_modifySb]
  refine flushDirty_resaves.mono ?_ (fun _ _ _ => trivial)
  rintro _ v' ⟨hres, hsaved⟩
  have hall : Resaved v₃ v' := by
    refine Resaved.trans ?_ hres
    exact ⟨⟨_, _, _, _, _, _, rfl⟩, rfl, fun _ _ => rfl⟩
  refine ⟨hfounded.resaved hall, hsaved, ?_⟩
  rw [hall.config, hconfig]
  exact hz₂.dev.config.trans hz₁.dev.config

theorem layoutBitmapBlocks_room (hlow : 19 ≤ totalBlocks.toNat) (h : layoutBitmapBlocks totalBlocks = some b) :
    1 ≤ b.toNat ∧ 17 + b.toNat < totalBlocks.toNat := by
  by_cases hfit : totalBlocks.toNat < 2 ^ 32 - 32749
  · obtain ⟨b', hb', hpos, hne, _⟩ := layoutBitmapBlocks_of_fit hlow hfit
    obtain rfl : b' = b := Option.some.inj (hb'.symm.trans h)
    exact ⟨hpos, hne⟩
  · rw [layoutBitmapBlocks_of_overflow (Nat.not_lt.mp hfit)] at h
    obtain rfl := Option.some.inj h
    have hone : (1 : UInt32).toNat = 1 := rfl
    exact ⟨hone.ge, by omega⟩

theorem formatVolume_founds (hf : d.Reliable) :
    wp (formatVolume who totalBlocks label)
      (fun _ d' => Founded ⟨d', Superblock.ofBlock (d'.disk 0)⟩ ∧ d'.toHtlConfig = d.toHtlConfig)
      (fun _ _ => True) d := by
  unfold formatVolume
  simp only [wp_bind, wp_failIf]
  refine ⟨fun _ => trivial, fun hlarge => ?_⟩
  have hlow : 19 ≤ totalBlocks.toNat := UInt32.le_iff_toNat_le.mp (UInt32.not_lt.mp hlarge)
  cases hb : layoutBitmapBlocks totalBlocks with
  | none => exact trivial
  | some b =>
      obtain ⟨hpos, hne⟩ := layoutBitmapBlocks_room hlow hb
      have hbody : ∀ nonce, wp (fun d => ((formatBody who ⟨d, freshSuperblock totalBlocks b label nonce⟩).1,
          (formatBody who ⟨d, freshSuperblock totalBlocks b label nonce⟩).2.dev))
          (fun _ d' => Founded ⟨d', Superblock.ofBlock (d'.disk 0)⟩ ∧ d'.toHtlConfig = d.toHtlConfig)
            (fun _ _ => True) d := by
        intro nonce
        refine wp_atDevice.mpr ((formatBody_founds hf hpos hne).mono ?_ (fun _ _ _ => trivial))
        rintro _ ⟨d', sb'⟩ ⟨hfounded, hsaved, hconfig⟩
        obtain rfl : Superblock.ofBlock (d'.disk 0) = sb' := hsaved
        exact ⟨hfounded, hconfig⟩
      exact wp_bind.mpr (wp_attempt.mpr (wp_htlGetEntropy (fun nonce => hbody nonce) (fun _ => hbody _)))

/-- 開いたボリュームは、装置の上のスーパーブロックの書き直しである。 -/
theorem resaved_of_opened (hopen : Opened d' v) : Resaved ⟨d', Superblock.ofBlock (d'.disk 0)⟩ v := by
  cases hopen with
  | @read sb₁ _ hread =>
      have hwp : wp superblockRead (fun _ v' => Resaved ⟨d', Superblock.ofBlock (d'.disk 0)⟩ v')
        (fun _ _ => True) ⟨d', sb₁⟩ :=
        wp_superblockRead (fun _ _ _ => ⟨.refl _, rfl, fun _ _ => rfl⟩) (fun _ _ => trivial) (fun _ _ => trivial)
      exact hwp.ok hread
  | @mount sb₁ _ hmount =>
      have hwp : wp mount (fun _ v' => Resaved ⟨d', Superblock.ofBlock (d'.disk 0)⟩ v')
        (fun _ _ => True) ⟨d', sb₁⟩ := by
        unfold mount
        rw [wp_bind]
        refine wp_superblockRead (fun c _ _ => ?_) (fun _ _ => trivial) (fun _ _ => trivial)
        simp only [wp_bind, wp_get, wp_failIf, wp_ite, wp_modifySb]
        refine ⟨fun _ => trivial, fun _ => ⟨fun _ => ?_, fun _ => ?_⟩⟩
        · exact wp_superblockWrite (fun _ _ => trivial) (fun _ _ _ _ => trivial)
        · exact wp_superblockWrite
            (fun c' _ => ⟨⟨_, _, _, _, _, _, rfl⟩, rfl, fun b hb => Function.update_of_ne hb _ _⟩)
            (fun _ _ _ _ => trivial)
      exact hwp.ok hmount

/-- フォーマットして開いたボリュームには、大きさを問わず、根の項目だけがある。 -/
theorem founded_of_opened (hf : d.Reliable) (hfmt : formatVolume who totalBlocks label d = (.ok (), d'))
    (hopen : Opened d' v) : Founded v := ((formatVolume_founds hf).ok hfmt).1.resaved (resaved_of_opened hopen)

end

/-! ## 書けるボリュームでの呼び出し -/

/-- 変更の門が開いていて、呼び出しの条件の揃ったボリューム。 -/
structure Workable (v : Vol) : Prop where
  ready : Ready v
  kept : Kept v
  writable : volumeWritable v.sb = .ok ()

theorem entryCheckAccess_superuser {who : OwIdentity} (h : who.uid = 0) {e : Entry} (hne : e.entryType ≠ 0)
    (want : UInt8) :
    entryCheckAccess who e want = .ok () := by
  unfold entryCheckAccess
  rw [if_neg hne, owSecAccess_superuser h]
  rfl

section

variable {v : Vol} {who : OwIdentity} {idx : UInt32}

theorem FirstSlot.unique {j : UInt32} (h : FirstSlot v idx) (h' : FirstSlot v j) : j = idx := by
  rcases Nat.lt_trichotomy j.toNat idx.toNat with hlt | heq | hlt
  · exact absurd h'.vacant (Entry.live_iff.mp (h.before j hlt))
  · exact UInt32.toNat_inj.mp heq
  · exact absurd h.vacant (Entry.live_iff.mp (h'.before idx hlt))

/-- 空きのスロットがあれば、ファイルの割り当ては必ず通る。 -/
theorem Workable.alloc (h : Workable v) {name : Option (List UInt8)} {nameLen : Nat} {parent : UInt32}
    (hname : ∀ s, name = some s → nameLen ≤ s.length) (hadm : Admissible v who entryFile name nameLen parent)
    (hslot : FirstSlot v idx) :
    ∃ v', EntryOp.run (.alloc who entryFile name nameLen parent hname) v = (.ok (), v') ∧ Workable v' ∧
      SameSetup v v' ∧ v'.sb.freeBlocks = v.sb.freeBlocks ∧ v'.sb.usedEntries = v.sb.usedEntries + 1 ∧
      directory v' = Function.update (directory v) idx (some ⟨entryFile, nameBytes name nameLen, parent⟩) ∧
      (viewOf v').table = Function.update (viewOf v).table idx
        (createdEntry who v.sb idx entryFile modeDefaultFile name nameLen parent 0 0) := by
  obtain ⟨j, v', hrun, hc⟩ := (entryAlloc_ready h.ready h.kept.summed who entryFile name nameLen parent).exists_ok_of
    fun e v' he => (he.2 hadm).elim (fun hfull => Entry.live_iff.mp (hfull idx hslot.inTable) hslot.vacant)
      fun hcat => absurd hcat.1 (by decide)
  obtain rfl := hslot.unique hc.slot
  obtain ⟨mode, first, count, s, ⟨_, rfl, rfl, rfl⟩ | ⟨hcat, _⟩, hb⟩ := hc.effect
  · have hop : EntryOp.run (.alloc who entryFile name nameLen parent hname) v = (.ok (), v') := by
      change Prog.bind _ _ v = _
      unfold Prog.bind
      rw [hrun]
      rfl
    have hstep := h.kept.step (.alloc who entryFile name nameLen parent hname) trivial
    rw [hop] at hstep
    have hturned : Turned v v' (Function.update (viewOf v).table j
        (createdEntry who v.sb j entryFile modeDefaultFile name nameLen parent 0 0)) (v.sb.usedEntries + 1) :=
      ⟨hb.shape, hb.config, congrArg View.table hb.view, congrArg View.usedEntries hb.view⟩
    refine ⟨v', hop, ⟨hb.ready h.ready, hstep.kept, hb.shape.writable.trans h.writable⟩, ⟨hb.shape, hb.config⟩, ?_,
      hturned.used, ?_, hturned.table⟩
    · exact (congrArg View.freeBlocks hb.view).trans (UInt32.sub_zero v.sb.freeBlocks)
    · rw [hturned.directory_update, (createdEntry_node j _ _ _ hadm hname).1]
  · exact absurd hcat (by decide)

/-- ブロックを持たない項目の解放は、検査を通れば必ず通る。 -/
theorem Workable.free (h : Workable v) (who : OwIdentity) (idx : UInt32) (hpass : Erasable v who idx)
    (hbare : ((viewOf v).table idx).blockCount = 0) :
    ∃ v', EntryOp.run (.free who idx) v = (.ok (), v') ∧ Workable v' ∧ SameShape v.sb v'.sb ∧
      v'.sb.usedEntries = (if v.sb.usedEntries > 0 then v.sb.usedEntries - 1 else v.sb.usedEntries) ∧
      (viewOf v').table = Function.update (viewOf v).table idx (clearedEntry ((viewOf v).table idx)).sealed := by
  obtain ⟨_, v', hrun, hfreed⟩ := (entryFree_ready h.ready who (h.kept.summed idx)).exists_ok_of fun e v' he =>
    he.2 ⟨hpass.inTable, hpass.present, hpass.writable, hpass.notReadonly, hpass.access, fun hpos => by
      rw [hbare] at hpos
      exact absurd hpos (by decide)⟩
  have hb := hfreed.effect
  have hstep := h.kept.step (.free who idx) trivial
  change EntryOp.run (.free who idx) v = (.ok (), v') at hrun
  rw [hrun] at hstep
  exact ⟨v', hrun, ⟨hb.ready h.ready, hstep.kept, hb.shape.writable.trans h.writable⟩, hb.shape,
    congrArg View.usedEntries hb.view, congrArg View.table hb.view⟩

end

theorem workable_small {who : OwIdentity} {d' : HtlDevice} {v : Vol}
    (hfmt : formatVolume who 64 none (zeroDevice 0) = (.ok (), d')) (hopen : Opened d' v) :
    Workable v ∧ Founded v ∧ v.sb.totalEntries = 256 ∧ v.sb.securityFlags = 0 := by
  obtain ⟨b, nonce, _, _, hfresh, _⟩ := fresh_of_format (reliable_zeroDevice 0) (by decide) hfmt hopen
  have hfounded := founded_of_opened (reliable_zeroDevice 0) hfmt hopen
  obtain ⟨_, _, _, _, _, _, hsb⟩ := hfresh.geometry
  refine ⟨⟨hfresh.ready, hfounded.kept, hfresh.writable⟩, hfounded, ?_, hfresh.plain⟩
  rw [hsb]
  rfl

theorem length_singleton {c : UInt8} : ∀ s, some [c] = some s → 1 ≤ s.length := by
  rintro _ ⟨⟩
  exact le_refl 1

/-- 特権を持つ主体が、一文字の名前のファイルを作る呼び出し。 -/
def createFile (c : UInt8) (parent : UInt32) : EntryOp := .alloc ⟨0, 0⟩ entryFile (some [c]) 1 parent length_singleton

theorem length_byte : UInt32.toNat 1 ≤ [(0x62 : UInt8)].length := Nat.le_refl 1

/-- 番号 1 のファイルの先頭に一バイトを書く呼び出し。 -/
def writeByte (held : Entry) : EntryOp := .write ⟨0, 0⟩ 1 held [0x62] 0 1 length_byte

section

variable {v : Vol} {idx : UInt32}

/-- 表の空きの手前までが生きている項目で埋まっていれば、そこに作られる。 -/
theorem Workable.create (h : Workable v) (c : UInt8) (idx parent : UInt32) (hvalid : owSutf8Validate [c] = true)
    (hroom : v.sb.usedEntries.toNat < v.sb.totalEntries.toNat) (hidx : idx.toNat < v.sb.totalEntries.toNat)
    (hvacant : directory v idx = none) (hbefore : ∀ j : UInt32, j.toNat < idx.toNat → (directory v j).isSome = true)
    (hparent : parent.toNat < v.sb.totalEntries.toNat ∧ ((viewOf v).table parent).entryType ≠ 0) :
    ∃ v', EntryOp.run (createFile c parent) v = (.ok (), v') ∧ Workable v' ∧ SameSetup v v' ∧
      v'.sb.freeBlocks = v.sb.freeBlocks ∧ v'.sb.usedEntries = v.sb.usedEntries + 1 ∧
      directory v' = Function.update (directory v) idx (some ⟨entryFile, [c], parent⟩) ∧
      (viewOf v').table = Function.update (viewOf v).table idx
        (createdEntry ⟨0, 0⟩ v.sb idx entryFile modeDefaultFile (some [c]) 1 parent 0 0) := by
  have hslot : FirstSlot v idx := by
    refine ⟨hidx, ?_, fun j hj => directory_isSome.mp (hbefore j hj)⟩
    by_contra hlive
    have hsome := directory_isSome.mpr (Entry.live_iff.mpr hlive)
    rw [hvacant] at hsome
    cases hsome
  have hadm : Admissible v ⟨0, 0⟩ entryFile (some [c]) 1 parent :=
    ⟨rfl, .inl rfl, Nat.one_ne_zero, by decide, hvalid, hroom, h.writable, fun _ =>
      ⟨hparent.1, hparent.2, entryCheckAccess_superuser rfl hparent.2 _⟩⟩
  exact h.alloc length_singleton hadm hslot

theorem Workable.erasable (h : Workable v) (hidx : idx.toNat < v.sb.totalEntries.toNat)
    (hpresent : ((viewOf v).table idx).entryType ≠ 0) (hplain : ((viewOf v).table idx).securityFlags = 0) :
    Erasable v ⟨0, 0⟩ idx := by
  refine ⟨hidx, hpresent, h.writable, ?_, entryCheckAccess_superuser rfl hpresent _⟩
  rw [hplain]
  rfl

end

/-! ## 小さな装置での呼び出し -/

section

variable {d' : HtlDevice} {v : Vol}

theorem first_file (hfmt : formatVolume ⟨0, 0⟩ 64 none (zeroDevice 0) = (.ok (), d')) (hopen : Opened d' v) :
    ∃ v₁, EntryOp.run (createFile 0x61 0) v = (.ok (), v₁) ∧ Workable v₁ ∧ SameSetup v v₁ ∧
      v₁.sb.freeBlocks = v.sb.freeBlocks ∧ v₁.sb.totalEntries = 256 ∧ v₁.sb.usedEntries = 2 ∧
      ((viewOf v₁).table 0).Live ∧ directory v₁ = Function.update (directory v) 1 (some ⟨entryFile, [0x61], 0⟩) ∧
      (viewOf v₁).table 1 = createdEntry ⟨0, 0⟩ v.sb 1 entryFile modeDefaultFile (some [0x61]) 1 0 0 0 := by
  obtain ⟨hwork, hfounded, htotal, _⟩ := workable_small hfmt hopen
  have hroot : (directory v 0).isSome = true := by
    rw [hfounded.root, Function.update_self]
    rfl
  obtain ⟨v₁, hrun, hwork₁, hsetup, hfree, hused, hdir, htable⟩ :=
    hwork.create 0x61 1 0 (by decide) (by rw [hfounded.used, htotal]; decide) (by rw [htotal]; decide)
    (by rw [hfounded.root]; exact Function.update_of_ne (by decide) _ _)
    (fun j hj => by
      obtain rfl : j = 0 := UInt32.toNat_inj.mp (Nat.lt_one_iff.mp hj)
      exact hroot)
    ⟨hfounded.slots, (directory_isSome.mp hroot).1⟩
  refine ⟨v₁, hrun, hwork₁, hsetup, hfree, hsetup.shape.totalEntries.trans htotal, ?_, ?_, hdir, ?_⟩
  · rw [hused, hfounded.used]
    rfl
  · rw [← directory_isSome, hdir, Function.update_of_ne (by decide)]
    exact hroot
  · rw [htable, Function.update_self]

/-- 続けて、根の下か、作ったファイルの下に、もう一つファイルを作る。 -/
theorem two_files (hfmt : formatVolume ⟨0, 0⟩ 64 none (zeroDevice 0) = (.ok (), d')) (hopen : Opened d' v)
    {c : UInt8} (hvalid : owSutf8Validate [c] = true) {parent : UInt32} (hparent : parent = 0 ∨ parent = 1) :
    ∃ v₁ v₂, EntryOp.run (createFile 0x61 0) v = (.ok (), v₁) ∧ EntryOp.run (createFile c parent) v₁ = (.ok (), v₂) ∧
      Workable v₂ ∧ v₂.sb.totalEntries = 256 ∧
      directory v₁ = Function.update (directory v) 1 (some ⟨entryFile, [0x61], 0⟩) ∧
      directory v₂ = Function.update (directory v₁) 2 (some ⟨entryFile, [c], parent⟩) := by
  obtain ⟨v₁, hrun₁, hwork₁, _, _, htotal₁, hused₁, hroot₁, hdir₁, _⟩ := first_file hfmt hopen
  obtain ⟨_, hfounded, _⟩ := workable_small hfmt hopen
  have hfile : ((viewOf v₁).table 1).Live := by
    rw [← directory_isSome, hdir₁, Function.update_self]
    rfl
  obtain ⟨v₂, hrun₂, hwork₂, hsetup₂, _, _, hdir₂, _⟩ := hwork₁.create c 2 parent hvalid
    (by rw [hused₁, htotal₁]; decide) (by rw [htotal₁]; decide)
    (by rw [hdir₁, Function.update_of_ne (by decide), hfounded.root]; exact Function.update_of_ne (by decide) _ _)
    (fun j hj => by
      rw [directory_isSome]
      have hj2 : j.toNat < 2 := hj
      rcases Nat.lt_succ_iff_lt_or_eq.mp hj2 with hlt | heq
      · obtain rfl : j = 0 := UInt32.toNat_inj.mp (Nat.lt_one_iff.mp hlt)
        exact hroot₁
      · obtain rfl : j = 1 := UInt32.toNat_inj.mp heq
        exact hfile)
    (by
      rw [htotal₁]
      rcases hparent with rfl | rfl
      · exact ⟨by decide, hroot₁.1⟩
      · exact ⟨by decide, hfile.1⟩)
  exact ⟨v₁, v₂, hrun₁, hrun₂, hwork₂, hsetup₂.shape.totalEntries.trans htotal₁, hdir₁, hdir₂⟩

/-- 同じ名前のファイルを、根の下か、作ったファイルの下に作る。 -/
theorem second_file (hfmt : formatVolume ⟨0, 0⟩ 64 none (zeroDevice 0) = (.ok (), d')) (hopen : Opened d' v)
    (parent : UInt32) (hparent : parent = 0 ∨ parent = 1) :
    directory (final EntryOp.run [createFile 0x61 0, createFile 0x61 parent] v) =
      Function.update (Function.update (directory v) 1 (some ⟨entryFile, [0x61], 0⟩)) 2
        (some ⟨entryFile, [0x61], parent⟩) := by
  obtain ⟨v₁, v₂, hrun₁, hrun₂, _, _, hdir₁, hdir₂⟩ := two_files hfmt hopen (c := 0x61) (by decide) hparent
  have hfinal : final EntryOp.run [createFile 0x61 0, createFile 0x61 parent] v = v₂ := by
    change (EntryOp.run (createFile 0x61 parent) (EntryOp.run (createFile 0x61 0) v).2).2 = v₂
    rw [hrun₁, hrun₂]
  rw [hfinal, hdir₂, hdir₁]

end

end OwStorage.Usfs
