import OwStorage.Usfs.Lemmas.Check

/-!
# 同期の後の検査と、マウントし直した後の内容

項目への操作と、同期と署名と検査とマウントのどの列の後でも、同期したボリュームの検査は、署名の合うときに限って通る。項目への操作の
ほかは、どの名前もどのファイルの内容も変えない。
-/

namespace OwStorage.Usfs

open Lib Prog

/-- 検査は通り、誤りを数えず、ディスクの旗を下ろす。 -/
def PassesCheck (s : CheckState) : Prop :=
  ∃ s', consistencyCheck s = (.ok (), s') ∧ s'.corruptCount = 0 ∧
    (diskSb s'.vol).stateFlags &&& (stateDirty ||| stateLocked ||| stateError) = 0

section

variable {v v' : Vol}

/-- 正しいスーパーブロックを持つボリュームの検査は、検査値と署名が合うときに限って通る。 -/
theorem InSession.check_iff (h : InSession v) (hvalid : superblockValidate v.sb = true) (hsum : SumAgrees v)
    (count : UInt32) :
    PassesCheck ⟨v, count⟩ ↔ Attested v := by
  have hspec := @consistencyCheck_spec ⟨v, count⟩ h.sturdy.balanced.ready h.writes hvalid
  have hfind := h.sturdy.balanced.findings_eq
  rw [if_pos hsum, UInt32.zero_add] at hfind
  constructor
  · rintro ⟨s', hrun, _⟩
    have hzero := (hspec.ok hrun).1
    by_contra hno
    rw [hfind, if_neg hno] at hzero
    exact absurd hzero (by decide)
  · intro ha
    rw [if_pos ha] at hfind
    obtain ⟨_, s', hrun, _, hcount, hflags⟩ := hspec.exists_ok_of fun _ _ hno => hno.2.1 hfind
    exact ⟨s', hrun, hcount, hflags⟩

/-- 同期は、今のビットマップの検査値を持つ正しいスーパーブロックを残す。 -/
theorem InSession.flush (h : InSession v) :
    ∃ v₁, flushDirty v = (.ok (), v₁) ∧ InSession v₁ ∧ superblockValidate v₁.sb = true ∧ SumAgrees v₁ ∧
      (Attested v₁ ↔ Attested v) := by
  have hr := h.sturdy.balanced.ready
  obtain ⟨_, v₁, hrun, hres, _, hsb⟩ := (flushDirty_ready hr).exists_ok_of fun _ _ hno => hno h.writes
  have hre : Rewritten v v₁ := ⟨hres, by rw [hsb]; rfl, by rw [hsb]; rfl⟩
  refine ⟨v₁, hrun, h.resaved hres, ?_, .inr ?_, hre.attested hr⟩
  · rw [hsb]
    exact validate_sealed h.branded
  · rw [hres.fletcher hr, hsb]
    rfl

/-- 表に触れない呼び出しは、合っている署名を合ったままにする。 -/
theorem InSession.signed_step (h : InSession v) {op : SessionOp} (hentry : ∀ o, op ≠ .entry o)
    (hsig : v.sb.signature = tableSignature v.dev.disk v.sb) :
    (op.run v).2.sb.signature = tableSignature (op.run v).2.dev.disk (op.run v).2.sb := by
  have hr := h.sturdy.balanced.ready
  have hres := h.resaves hentry
  rw [hres.signature hr]
  by_cases hsign : op = .sign
  · subst hsign
    have hwp : wp signatureUpdate (fun _ v' => v'.sb.signature = tableSignature v.dev.disk v.sb)
        (fun _ v' => v'.sb.signature = tableSignature v.dev.disk v.sb) v :=
      h.sign.mono (fun _ _ hs => hs.2.2) (fun _ _ hno => hno.elim)
    exact hwp.state
  · by_cases hsec : ∃ f, op = .secure f
    · obtain ⟨f, rfl⟩ := hsec
      exact hsig
    · exact (h.rewritten hentry (fun f hf => hsec ⟨f, hf⟩) hsign).signature.trans hsig

end

/-! ## 実行の全体 -/

/-- 生きている項目の集まりへの、呼び出し一回の働き。 -/
inductive NameStep (a : Directory) : EntryOp × Except UsfsErr Unit → Directory → Prop
  | refused (op : EntryOp) (err : UsfsErr) : NameStep a (op, .error err) a
  | added {who : OwIdentity} {entryType : UInt8} {name : Option (List UInt8)} {nameLen : Nat} {parent idx : UInt32}
      {hname : ∀ s, name = some s → nameLen ≤ s.length} (hnew : a idx = none) :
      NameStep a (.alloc who entryType name nameLen parent hname, .ok ())
        (Function.update a idx (some ⟨entryType, nameBytes name nameLen, parent⟩))
  | removed {who : OwIdentity} {idx : UInt32} : NameStep a (.free who idx, .ok ()) (Function.update a idx none)
  | written {who : OwIdentity} {idx : UInt32} {held : Entry} {buf : List UInt8} {offset len : UInt32}
      {hbuf : len.toNat ≤ buf.length} : NameStep a (.write who idx held buf offset len hbuf, .ok ()) a
  | truncated {who : OwIdentity} {idx : UInt32} {held : Entry} {size : UInt32} :
      NameStep a (.truncate who idx held size, .ok ()) a

/-- 開いたボリュームの見せる、名前の集まりとファイルの内容。 -/
structure Image where
  names : Directory
  files : Store UInt32

def image (v : Vol) : Image := ⟨directory v, contents v⟩

/-- 動いたのは、一つの番号の名前とファイルだけである。 -/
def Image.MovesOne (a b : Image) : Prop :=
  ∃ idx, ∀ j, j ≠ idx → b.names j = a.names j ∧ b.files j = a.files j

/-- 項目への操作は、一つの番号の名前とファイルだけを動かす。ほかの呼び出しは、何も動かさない。 -/
inductive SessionStep (a : Image) : SessionOp × Except UsfsErr Unit → Image → Prop
  | entry {op : EntryOp} {r : Except UsfsErr Unit} {b : Image} (hnames : NameStep a.names (op, r) b.names)
      (hfiles : StoreStep a.files (op, r) b.files) (hone : a.MovesOne b) : SessionStep a (.entry op, r) b
  | rest {op : SessionOp} {r : Except UsfsErr Unit} (hop : ∀ o, op ≠ .entry o) : SessionStep a (op, r) a

/-- 項目への操作は、読み直した項目を渡す。暗号の旗は変えない。 -/
def SessionOp.Careful (v : Vol) : SessionOp → Prop
  | entry op => op.FreshlyRead v
  | secure flags => flags &&& secEncrypted = v.sb.securityFlags &&& secEncrypted
  | _ => True

section

variable {v v' : Vol}

theorem DirStep.nameStep {op : EntryOp} {r : Except UsfsErr Unit} {dir : Directory} {k : UInt32}
    (h : DirStep v op r dir k) :
    NameStep (directory v) (op, r) dir := by
  cases h with
  | refused => exact .refused op _
  | @added _ _ _ _ _ idx _ _ hslot =>
      refine .added ?_
      by_contra hsome
      obtain ⟨n, hn⟩ := Option.ne_none_iff_exists'.mp hsome
      have hlive := directory_isSome.mp (by rw [hn]; rfl : (directory v idx).isSome = true)
      exact Entry.live_iff.mp hlive hslot.vacant
  | removed => exact .removed
  | written => exact .written
  | truncated => exact .truncated

theorem SessionOp.Careful.fresh {op : SessionOp} (h : op.Careful v) : op.FreshlyRead v := by
  cases op with
  | entry op => exact h
  | _ => exact trivial

/-- 項目への操作のほかは、何も動かさない。 -/
theorem InSession.image_rest (h : InSession v) {op : SessionOp} (hentry : ∀ o, op ≠ .entry o) (hop : op.Careful v) :
    image (op.run v).2 = image v := by
  have hres := h.resaves hentry
  have henc : (op.run v).2.sb.securityFlags &&& secEncrypted = v.sb.securityFlags &&& secEncrypted := by
    by_cases hsec : ∃ f, op = .secure f
    · obtain ⟨f, rfl⟩ := hsec
      exact hop
    by_cases hsign : op = .sign
    · subst hsign
      have hwp : wp signatureUpdate (fun _ v' => v'.sb.securityFlags = v.sb.securityFlags)
          (fun _ v' => v'.sb.securityFlags = v.sb.securityFlags) v :=
        h.sign.mono (fun _ _ hs => hs.2.1) (fun _ _ hno => hno.elim)
      rw [show (SessionOp.run .sign v).2.sb.securityFlags = v.sb.securityFlags from hwp.state]
    · rw [(h.rewritten hentry (fun f hf => hsec ⟨f, hf⟩) hsign).security]
  unfold image
  rw [hres.directory h.sturdy.kept, hres.contents h.sturdy.balanced henc]

/-- 内容を持つのは、名前のついたファイルだけである。 -/
theorem contents_isSome_iff {j : UInt32} :
    (contents v j).isSome = true ↔ ∃ n, directory v j = some n ∧ n.kind = entryFile := by
  constructor
  · intro h
    by_cases hfile : ((viewOf v).table j).entryType = entryFile
    · exact ⟨_, if_pos (Entry.live_of_file hfile), hfile⟩
    · rw [contents_other hfile] at h
      cases h
  · rintro ⟨n, hn, hkind⟩
    by_cases hlive : ((viewOf v).table j).Live
    · rw [show directory v j = some _ from if_pos hlive, Option.some_inj] at hn
      rw [← hn] at hkind
      rw [contents_file hkind]
      rfl
    · rw [show directory v j = none from if_neg hlive] at hn
      cases hn

/-- 割り当ての加える名前と、割り当ての作るファイルは、同じ番号にある。 -/
theorem movesOne_of_alloc {entryType : UInt8} {n : Node} {i k : UInt32}
    (hnames : directory v' = Function.update (directory v) i (some n))
    (hfiles : contents v' = Function.update (contents v) k (if entryType = entryFile then some [] else none))
    (hnew : contents v k = none) : (image v).MovesOne (image v') := by
  by_cases hfile : entryType = entryFile
  · rw [if_pos hfile] at hfiles
    have hki : k = i := by
      by_contra hne
      have hsome : (contents v' k).isSome = true := by
        rw [hfiles, Function.update_self]
        rfl
      rw [contents_isSome_iff, hnames, Function.update_of_ne hne, ← contents_isSome_iff, hnew] at hsome
      cases hsome
    rw [hki] at hfiles
    exact ⟨i, fun j hj => ⟨(congrFun hnames j).trans (Function.update_of_ne hj _ _),
      (congrFun hfiles j).trans (Function.update_of_ne hj _ _)⟩⟩
  · rw [if_neg hfile, ← hnew, Function.update_eq_self] at hfiles
    exact ⟨i, fun j hj => ⟨(congrFun hnames j).trans (Function.update_of_ne hj _ _), congrFun hfiles j⟩⟩

/-- 名前の一歩とファイルの一歩は、同じ番号で起こる。 -/
theorem movesOne_of_steps {op : EntryOp} {r : Except UsfsErr Unit} {names : Directory} {files : Store UInt32}
    (hnames : NameStep (directory v) (op, r) names) (hfiles : StoreStep (contents v) (op, r) files)
    (hdir : directory v' = names) (hcon : contents v' = files) : (image v).MovesOne (image v') := by
  cases hnames with
  | refused =>
      cases hfiles
      exact ⟨0, fun j _ => ⟨congrFun hdir j, congrFun hcon j⟩⟩
  | added =>
      cases hfiles with
      | created hnew => exact movesOne_of_alloc hdir hcon hnew
  | @removed _ idx =>
      cases hfiles
      exact ⟨idx, fun j hj => ⟨(congrFun hdir j).trans (Function.update_of_ne hj _ _),
        (congrFun hcon j).trans (Function.update_of_ne hj _ _)⟩⟩
  | @written _ idx =>
      cases hfiles
      exact ⟨idx, fun j hj => ⟨congrFun hdir j, (congrFun hcon j).trans (Function.update_of_ne hj _ _)⟩⟩
  | @truncated _ idx =>
      cases hfiles
      exact ⟨idx, fun j hj => ⟨congrFun hdir j, (congrFun hcon j).trans (Function.update_of_ne hj _ _)⟩⟩

/-- どの呼び出しも、見せるものの一歩である。 -/
theorem InSession.imageStep (h : InSession v) (op : SessionOp) (hop : op.Careful v) :
    SessionStep (image v) (op, (op.run v).1) (image (op.run v).2) := by
  by_cases hentry : ∃ o, op = .entry o
  · obtain ⟨o, rfl⟩ := hentry
    have hnames := (h.sturdy.kept.step o hop).step.nameStep
    have hfiles := h.sturdy.storeStep o hop
    exact .entry hnames hfiles (movesOne_of_steps hnames hfiles rfl rfl)
  · have hrest : ∀ o, op ≠ .entry o := fun o ho => hentry ⟨o, ho⟩
    rw [h.image_rest hrest hop]
    exact .rest hrest

end

section

variable {who : OwIdentity} {totalBlocks b : UInt32} {label : Option (List UInt8)} {d d' : HtlDevice} {v : Vol}

/-- どの呼び出しの列の後でも、同期は通り、その直後の検査は、署名のないボリュームか、署名が今の表に合うボリュームであるときに限って
通る。 -/
theorem flushed_passes_check_iff (hf : d.Reliable) (hlayout : layoutBitmapBlocks totalBlocks = some b)
    (hcovers : CoversData totalBlocks b) (hdev : d.totalBlocks = 0 ∨ totalBlocks.toNat ≤ d.totalBlocks.toNat)
    (hfmt : formatVolume who totalBlocks label d = (.ok (), d')) (hopen : Opened d' v) (ops : List SessionOp)
    (hread : ∀ e ∈ trace SessionOp.run ops v, e.op.FreshlyRead e.before) (count : UInt32) :
    ∃ v₁, flushDirty (final SessionOp.run ops v) = (.ok (), v₁) ∧
      (PassesCheck ⟨v₁, count⟩ ↔ Attested (final SessionOp.run ops v)) := by
  have hstart := inSession_of_format hf hlayout hcovers hdev hfmt hopen
  have hend := (trace_invariant (I := InSession) (P := fun e => e.op.FreshlyRead e.before)
    (fun op _ h hP => h.step op hP) ops v hstart hread).1
  obtain ⟨v₁, hflush, h₁, hvalid, hsum, hattested⟩ := hend.flush
  exact ⟨v₁, hflush, (h₁.check_iff hvalid hsum count).trans hattested⟩

/-- 署名してから項目への操作をせずに同期すれば、旗をどう立てていても、検査は通る。 -/
theorem signed_passes_check (hf : d.Reliable) (hlayout : layoutBitmapBlocks totalBlocks = some b)
    (hcovers : CoversData totalBlocks b) (hdev : d.totalBlocks = 0 ∨ totalBlocks.toNat ≤ d.totalBlocks.toNat)
    (hfmt : formatVolume who totalBlocks label d = (.ok (), d')) (hopen : Opened d' v) (before after : List SessionOp)
    (hread : ∀ e ∈ trace SessionOp.run before v, e.op.FreshlyRead e.before)
    (hafter : ∀ op ∈ after, ∀ o, op ≠ .entry o) (count : UInt32) :
    ∃ v₁, flushDirty (final SessionOp.run after (SessionOp.run .sign (final SessionOp.run before v)).2) = (.ok (), v₁) ∧
      PassesCheck ⟨v₁, count⟩ := by
  have hstart := inSession_of_format hf hlayout hcovers hdev hfmt hopen
  have hmid := (trace_invariant (I := InSession) (P := fun e => e.op.FreshlyRead e.before)
    (fun op _ h hP => h.step op hP) before v hstart hread).1
  generalize final SessionOp.run before v = w at hmid
  have hsigned : InSession (SessionOp.run .sign w).2 ∧
      (SessionOp.run .sign w).2.sb.signature =
        tableSignature (SessionOp.run .sign w).2.dev.disk (SessionOp.run .sign w).2.sb := by
    obtain ⟨_, w', hrun, hres, _, hsig⟩ := hmid.sign.exists_ok
    have hw' : (SessionOp.run .sign w).2 = w' := congrArg Prod.snd hrun
    rw [hw', hsig, hres.signature hmid.sturdy.balanced.ready]
    exact ⟨hmid.resaved hres, rfl⟩
  have hend := (trace_invariant
    (I := fun u => InSession u ∧ u.sb.signature = tableSignature u.dev.disk u.sb)
    (P := fun e => ∀ o, e.op ≠ .entry o) (fun op _ h hP => ⟨h.1.resaved (h.1.resaves hP), h.1.signed_step hP h.2⟩)
    after _ hsigned fun e he => hafter e.op (op_mem_of_mem_trace he)).1
  obtain ⟨v₁, hflush, h₁, hvalid, hsum, hattested⟩ := hend.1.flush
  exact ⟨v₁, hflush, (h₁.check_iff hvalid hsum count).mpr (hattested.mpr (.inr hend.2))⟩

/-- 同期とマウントし直しを交えた列の全体で、名前とファイルの内容は、項目への操作だけで変わる。誤りの旗がなければ、いつでも
マウントし直せる。 -/
theorem session_refined (hf : d.Reliable) (hlayout : layoutBitmapBlocks totalBlocks = some b)
    (hcovers : CoversData totalBlocks b) (hdev : d.totalBlocks = 0 ∨ totalBlocks.toNat ≤ d.totalBlocks.toNat)
    (hfmt : formatVolume who totalBlocks label d = (.ok (), d')) (hopen : Opened d' v) (ops : List SessionOp)
    (hcareful : ∀ e ∈ trace SessionOp.run ops v, e.op.Careful e.before) :
    Runs SessionStep ⟨Function.update (fun _ => none) 0 (some ⟨entryCatalog, [0x2F], 0⟩), fun _ => none⟩
        ((trace SessionOp.run ops v).map fun e => (e.op, e.result)) (image (final SessionOp.run ops v)) ∧
      Answers (final SessionOp.run ops v) (contents (final SessionOp.run ops v)) ∧
      ∀ sb, (SessionOp.run (.remount sb) (final SessionOp.run ops v)).1 = .ok () ↔
        (final SessionOp.run ops v).sb.stateFlags &&& stateError = 0 := by
  have hstart := inSession_of_format hf hlayout hcovers hdev hfmt hopen
  have hruns := @trace_runs _ _ _ _ _ SessionOp.run InSession (fun e => e.op.Careful e.before) SessionStep image
    (fun e => (e.op, e.result)) (fun op _ h hP => ⟨h.step op hP.fresh, h.imageStep op hP⟩) ops v hstart hcareful
  have himage : image v = ⟨Function.update (fun _ => none) 0 (some ⟨entryCatalog, [0x2F], 0⟩), fun _ => none⟩ := by
    obtain ⟨_, hempty⟩ := sturdy_of_format hf hlayout hcovers hdev hfmt hopen
    unfold image
    rw [hempty, (founded_of_opened hf hfmt hopen).root]
  rw [himage] at hruns
  obtain ⟨hend, hruns⟩ := hruns
  refine ⟨hruns, hend.sturdy.answers, fun sb => ⟨fun hok => ?_, fun hok => ?_⟩⟩
  · exact ((hend.remount sb).ok (run_eq hok)).1
  · obtain ⟨_, _, hrun, _⟩ := (hend.remount sb).exists_ok_of fun _ _ hno => hno.1 hok
    exact congrArg Prod.fst hrun

end

/-! ## 小さなボリュームの例 -/

/-- ファイルを作り、署名の旗を立てる。 -/
theorem flushed_passes_check_small : ∃ d' v v₁, formatVolume ⟨0, 0⟩ 64 none (zeroDevice 0) =
    (.ok (), d') ∧ Opened d' v ∧
    flushDirty (final SessionOp.run [.entry (createFile 0x61 0), .secure secSigned] v) = (.ok (), v₁) ∧
    (PassesCheck ⟨v₁, 0⟩ ↔ Attested (final SessionOp.run [.entry (createFile 0x61 0), .secure secSigned] v)) := by
  obtain ⟨d', v, hfmt, hopen⟩ := exists_opened_zeroDevice ⟨0, 0⟩ (n := 0) (.inl rfl)
  obtain ⟨v₁, hflush, hiff⟩ := flushed_passes_check_iff (reliable_zeroDevice 0) layoutBitmapBlocks_small
    (.mk' (by decide) (by decide) (by decide)) (.inl rfl) hfmt hopen
    [.entry (createFile 0x61 0), .secure secSigned] (fun e he => by
      have hop := op_mem_of_mem_trace he
      simp only [List.mem_cons, List.not_mem_nil, or_false] at hop
      rcases hop with hop | hop <;> rw [hop] <;> trivial) 0
  exact ⟨d', v, v₁, hfmt, hopen, hflush, hiff⟩

/-- ファイルを作り、署名し、署名の旗を立てる。 -/
theorem signed_passes_check_small : ∃ d' v v₁, formatVolume ⟨0, 0⟩ 64 none (zeroDevice 0) = (.ok (), d') ∧ Opened d' v ∧
    flushDirty (final SessionOp.run [.secure secSigned]
      (SessionOp.run .sign (final SessionOp.run [.entry (createFile 0x61 0)] v)).2) = (.ok (), v₁) ∧
    PassesCheck ⟨v₁, 0⟩ := by
  obtain ⟨d', v, hfmt, hopen⟩ := exists_opened_zeroDevice ⟨0, 0⟩ (n := 0) (.inl rfl)
  obtain ⟨v₁, hflush, hpass⟩ := signed_passes_check (reliable_zeroDevice 0) layoutBitmapBlocks_small
    (.mk' (by decide) (by decide) (by decide)) (.inl rfl) hfmt hopen [.entry (createFile 0x61 0)] [.secure secSigned]
    (fun e he => by
      have hop := op_mem_of_mem_trace he
      simp only [List.mem_cons, List.not_mem_nil, or_false] at hop
      rw [hop]
      trivial)
    (fun op hop o ho => by
      simp only [List.mem_cons, List.not_mem_nil, or_false] at hop
      rw [hop] at ho
      cases ho) 0
  exact ⟨d', v, v₁, hfmt, hopen, hflush, hpass⟩

/-- ファイルを作り、同期し、マウントし直す。 -/
theorem session_refined_small : ∃ d' v, formatVolume ⟨0, 0⟩ 64 none (zeroDevice 0) = (.ok (), d') ∧ Opened d' v ∧
    Runs SessionStep ⟨Function.update (fun _ => none) 0 (some ⟨entryCatalog, [0x2F], 0⟩), fun _ => none⟩
      ((trace SessionOp.run [.entry (createFile 0x61 0), .flushDirty, .remount Superblock.zero] v).map fun e =>
        (e.op, e.result))
      (image (final SessionOp.run [.entry (createFile 0x61 0), .flushDirty, .remount Superblock.zero] v)) := by
  obtain ⟨d', v, hfmt, hopen⟩ := exists_opened_zeroDevice ⟨0, 0⟩ (n := 0) (.inl rfl)
  refine ⟨d', v, hfmt, hopen, (session_refined (reliable_zeroDevice 0) layoutBitmapBlocks_small
    (.mk' (by decide) (by decide) (by decide)) (.inl rfl) hfmt hopen _ fun e he => ?_).1⟩
  have hop := op_mem_of_mem_trace he
  simp only [List.mem_cons, List.not_mem_nil, or_false] at hop
  rcases hop with hop | hop | hop <;> rw [hop] <;> trivial

end OwStorage.Usfs
