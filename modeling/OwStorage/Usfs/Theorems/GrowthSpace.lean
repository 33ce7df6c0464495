import OwStorage.Usfs.Theorems.FirstFit
import OwStorage.Usfs.Lemmas.Session

/-!
# 並びを伸ばす余地

ファイルを伸ばせるのは、今の並びで足りるか、要る数の空きが一続きに並んでいるときに限る。空きの総数が足りていても、続いていなければ
断られ、断られた呼び出しは何も変えない。
-/

namespace OwStorage.Usfs

open Lib Prog

/-- 今の並びで足りるか、`need` 個の空きが一続きに並んでいる。 -/
def HasRoom (v : Vol) (e : Entry) (need : UInt32) : Prop :=
  need.toNat ≤ e.blockCount.toNat ∨
    ∃ r, r + need.toNat ≤ v.sb.dataCount ∧ Vacant (bitOf v.dev.disk v.sb) r need.toNat

/-- 足りない並びだけを `need` ブロックにし、空きの数をちょうど増えた分だけ減らした。 -/
structure Spent (s s' : EntryState) (need : UInt32) : Prop where
  count : s'.entry.blockCount.toNat = max s.entry.blockCount.toNat need.toNat
  free : s'.vol.sb.freeBlocks.toNat + s'.entry.blockCount.toNat =
    s.vol.sb.freeBlocks.toNat + s.entry.blockCount.toNat

/-- 時計のほかは何も変えず、一度も書かない。 -/
structure Refused (s s' : EntryState) : Prop where
  entry : s'.entry = s.entry
  sb : s'.vol.sb = s.vol.sb
  disk : s'.vol.dev.disk = s.vol.dev.disk
  trail : s'.vol.dev.trail = s.vol.dev.trail

/-- 呼び出しは、`need` ブロックの余地があれば値 `a` を返し、なければ空きがないと断る。 -/
structure DecidedByRoom {α : Type} (p : EntryM α) (s : EntryState) (need : UInt32) (a : α) : Prop where
  passes : HasRoom s.vol s.entry need → ∃ s', p s = (.ok a, s') ∧ Spent s s' need
  refuses : ¬ HasRoom s.vol s.entry need → ∃ s', p s = (.error .noFreeBlocks, s') ∧ Refused s s'

section

variable {v v' : Vol} {idx need size offset len : UInt32} {e e' : Entry} {who : OwIdentity} {buf : List UInt8}

theorem Balanced.freeExact (h : Balanced v) : FreeExact v.dev.disk v.sb := by
  refine Eq.trans h.counted (vacancies_congr fun i hi => ?_)
  rw [Nat.zero_add]
  exact bitsView_eq hi

/-- 余地があれば、伸ばせない訳はない。 -/
theorem Balanced.not_noRun (h : Balanced v) (hshort : e.blockCount.toNat < need.toNat) (hroom : HasRoom v e need) :
    ¬ NoRun v need := by
  rcases hroom with hle | ⟨r, hfit, hvacant⟩
  · omega
  · obtain ⟨s, hs⟩ := FirstFit.of_vacant hfit hvacant
    have hle := h.freeExact.run_le hs
    rintro (hfew | hnone)
    · omega
    · exact hnone ⟨s, firstFit_iff.mp hs⟩

/-- 空きの数とファイルの並びの長さの和は、データ領域を越えない。 -/
theorem Balanced.free_add_count (h : Balanced v) (idx : UInt32) :
    v.sb.freeBlocks.toNat + ((viewOf v).table idx).blockCount.toNat ≤ v.sb.dataCount := by
  rw [h.counted]
  by_cases hpos : 0 < ((viewOf v).table idx).blockCount.toNat
  · have hrange := h.housed idx hpos
    have hlow := hrange.low
    have hhigh := hrange.high
    refine vacancies_add_used ?_ (h.occupies idx)
    unfold Superblock.relOf Superblock.dataCount
    omega
  · have hle : vacancies (viewOf v).used 0 v.sb.dataCount ≤ v.sb.dataCount := vacancies_le
    omega

theorem Balanced.spent_reached (h : Balanced v) (hreach : Reached v v' idx ((viewOf v).table idx) e' need) :
    Spent ⟨v, (viewOf v).table idx⟩ ⟨v', e'⟩ need := by
  rcases hreach with ⟨hle, rfl, rfl⟩ | hgrown
  · exact ⟨(Nat.max_eq_left hle).symm, rfl⟩
  · obtain ⟨_, _, hroom, _, hb⟩ := hgrown.moved
    have hcap := h.free_add_count idx
    have hlt := Balanced.dataCount_lt v
    have hfree : v'.sb.freeBlocks = v.sb.freeBlocks - need + ((viewOf v).table idx).blockCount :=
      congrArg View.freeBlocks hb.view
    have hsub : (v.sb.freeBlocks - need).toNat = v.sb.freeBlocks.toNat - need.toNat := toNat_sub_le hroom
    refine ⟨?_, ?_⟩
    · rw [hgrown.blockCount]
      exact (Nat.max_eq_right hgrown.short.le).symm
    · simp only [hfree, hgrown.blockCount]
      rw [toNat_add_lt (by omega), hsub]
      omega

/-- 大きさの書き直しは、並びも空きの数も変えない。 -/
theorem Spent.resized {s : EntryState} {v₁ v₂ : Vol} {e₁ : Entry} (h : Spent s ⟨v₁, e₁⟩ need) (hsb : v₂.sb = v₁.sb)
    {s' : EntryState} (hres : Resized v₂ s'.vol idx e₁ s'.entry size) : Spent s s' need := by
  have hcount : s'.entry.blockCount = e₁.blockCount := by
    rw [hres.entry]
    rfl
  have hfree : s'.vol.sb.freeBlocks = v₁.sb.freeBlocks := by
    rw [← hsb]
    exact congrArg View.freeBlocks hres.effect.view
  refine ⟨?_, ?_⟩
  · rw [hcount]
    exact h.count
  · rw [hcount, hfree]
    exact h.free

/-- 書き込みの門を通る呼び出しは、門の先だけを調べればよい。 -/
theorem Editable.wp_gates {α : Type} {p : EntryState → EntryM α} {Q : α → EntryState → Prop}
    {E : UsfsErr → EntryState → Prop} (h : Editable v who e) (hp : wp (p ⟨v, e⟩) Q E ⟨v, e⟩) :
    wp (do
      let s ← Prog.get
      Prog.failIf (s.entry.entryType ≠ entryFile) .notFile
      Prog.ofExcept (volumeWritable s.vol.sb)
      Prog.failIf (s.entry.securityFlags.toUInt32 &&& secReadonly ≠ 0) .writeProtected
      Prog.ofExcept (entryAccessCheck who s.entry accessWrite)
      p s) Q E ⟨v, e⟩ := by
  simp only [wp_bind, wp_get, wp_failIf, wp_ofExcept]
  refine ⟨fun hno => absurd h.file hno, fun _ => ⟨fun _ _ => ⟨fun hno => absurd h.notReadonly hno, fun _ =>
    ⟨fun _ _ => hp, fun err he => ?_⟩⟩, fun err he => absurd he (writable_unit h.writable err)⟩⟩
  rw [h.access] at he
  cases he

/-- 余地があれば、並びは必ず伸びる。 -/
theorem Balanced.growFile_passes (h : Balanced v) (hwrites : ∀ b, v.sb.IsData b → v.dev.Writes b)
    (hw : volumeWritable v.sb = .ok ()) (hidx : idx.toNat < v.sb.totalEntries.toNat)
    (hroom : HasRoom v ((viewOf v).table idx) need) :
    wp (growFile idx need) (fun _ s' => Reached v s'.vol idx ((viewOf v).table idx) s'.entry need) (fun _ _ => False)
      ⟨v, (viewOf v).table idx⟩ := by
  refine (growFile_ready h.ready hw hidx (h.housed idx) (h.occupies idx) need).mono ?_ ?_
  · rintro _ s' (⟨hle, rfl⟩ | hgrown)
    · exact .inl ⟨hle, rfl, rfl⟩
    · exact .inr hgrown
  · rintro _ _ ⟨hshort, _, _, hno⟩
    exact h.not_noRun hshort hroom (hno hwrites)

/-- 余地がなければ、割り当ての所で断られる。 -/
theorem Balanced.growFile_refuses (h : Balanced v) (hw : volumeWritable v.sb = .ok ()) (hroom : ¬ HasRoom v e need) :
    wp (growFile idx need) (fun _ _ => False) (fun err s' => err = .noFreeBlocks ∧ Refused ⟨v, e⟩ s') ⟨v, e⟩ := by
  have hshort : ¬ need.toNat ≤ e.blockCount.toNat := fun hle => hroom (.inl hle)
  have hcount : 1 ≤ need := UInt32.le_iff_toNat_le.mpr (show 1 ≤ need.toNat by omega)
  obtain ⟨v', hrun, hdisk, htrail, hsb⟩ := (blockAlloc_first_fit h.ready.layout hw h.freeExact h.ready.faultFree
    (h.ready.serves.bitmap h.ready.layout) hcount).2 fun hsome => hroom (.inr hsome)
  unfold growFile
  rw [wp_bind, wp_get, wp_ite]
  refine ⟨fun hge => absurd (UInt32.le_iff_toNat_le.mp hge) hshort, fun _ => ?_⟩
  rw [wp_bind, wp_onVol]
  unfold wp
  rw [hrun]
  exact ⟨rfl, rfl, hsb, hdisk, htrail⟩

/-- 書き込みの行方は、余地で決まる。 -/
theorem Sturdy.write_decided (h : Sturdy v) (hidx : idx.toNat < v.sb.totalEntries.toNat)
    (hedit : Editable v who ((viewOf v).table idx)) (hbuf : len.toNat ≤ buf.length) (hlen : len ≠ 0) :
    DecidedByRoom (Usfs.fileWrite who idx buf offset len) ⟨v, (viewOf v).table idx⟩
      (blocksFor (offset.toNat + len.toNat)) len := by
  have hb := h.balanced
  refine ⟨fun hroom => ?_, fun hroom => ?_⟩
  · have hpass : wp (Usfs.fileWrite who idx buf offset len) (fun done s' => done = len ∧
        Spent ⟨v, (viewOf v).table idx⟩ s' (blocksFor (offset.toNat + len.toNat))) (fun _ _ => False)
        ⟨v, (viewOf v).table idx⟩ := by
      refine (fileWrite_ready hb.ready hidx (hb.housed idx) (hb.occupies idx) who hbuf).mono ?_ ?_
      · rintro done s' ⟨_, rfl, ⟨hz, _⟩ | ⟨_, v₁, e₁, v₂, hreach, hwrote, hres⟩⟩
        · exact absurd hz hlen
        · refine ⟨rfl, (hb.spent_reached hreach).resized ?_ hres⟩
          rw [hwrote.sb]
      · rintro _ _ ⟨_, hno⟩
        obtain ⟨hshort, hnone⟩ := hno hedit h.writes
        exact hb.not_noRun hshort hroom hnone
    obtain ⟨_, s', hrun, rfl, hspent⟩ := hpass.exists_ok
    exact ⟨s', hrun, hspent⟩
  · have hfail : wp (Usfs.fileWrite who idx buf offset len) (fun _ _ => False)
        (fun err s' => err = .noFreeBlocks ∧ Refused ⟨v, (viewOf v).table idx⟩ s') ⟨v, (viewOf v).table idx⟩ := by
      unfold Usfs.fileWrite
      refine hedit.wp_gates ?_
      rw [wp_ite]
      refine ⟨fun hz => absurd hz hlen, fun _ => ?_⟩
      rw [wp_bind]
      exact (hb.growFile_refuses hedit.writable hroom).mono (fun _ _ hno => hno.elim) fun _ _ he => he
    obtain ⟨_, s', hrun, rfl, hrefused⟩ := hfail.exists_error
    exact ⟨s', hrun, hrefused⟩

/-- 伸ばす切り詰めの行方も、余地で決まる。 -/
theorem Sturdy.extend_decided (h : Sturdy v) (hidx : idx.toNat < v.sb.totalEntries.toNat)
    (hedit : Editable v who ((viewOf v).table idx)) (hsize : ((viewOf v).table idx).sizeBytes < size) :
    DecidedByRoom (Usfs.fileTruncate who idx size) ⟨v, (viewOf v).table idx⟩ (blocksFor size.toNat) () := by
  have hb := h.balanced
  have hne : size ≠ ((viewOf v).table idx).sizeBytes := (UInt32.ne_of_lt hsize).symm
  have hgrow : ∀ {Q : Unit → EntryState → Prop} {E : UsfsErr → EntryState → Prop},
      wp (growFile idx (blocksFor size.toNat)) (fun _ s₁ => wp (entryWrite idx) Q E
        ⟨s₁.vol, { s₁.entry with sizeBytes := size }⟩) E ⟨v, (viewOf v).table idx⟩ →
      wp (Usfs.fileTruncate who idx size) Q E ⟨v, (viewOf v).table idx⟩ := by
    intro Q E hwp
    unfold Usfs.fileTruncate
    refine hedit.wp_gates ?_
    rw [wp_ite, wp_ite]
    refine ⟨fun heq => absurd heq hne, fun _ => ⟨fun _ => ?_, fun hle => absurd hsize hle⟩⟩
    rw [wp_bind]
    refine hwp.mono (fun _ s₁ hwrite => ?_) fun _ _ he => he
    rw [wp_bind]
    exact hwrite
  refine ⟨fun hroom => ?_, fun hroom => ?_⟩
  · have hpass : wp (Usfs.fileTruncate who idx size)
        (fun _ s' => Spent ⟨v, (viewOf v).table idx⟩ s' (blocksFor size.toNat)) (fun _ _ => False)
        ⟨v, (viewOf v).table idx⟩ := by
      refine hgrow ((hb.growFile_passes h.writes hedit.writable hidx hroom).mono ?_ fun _ _ hno => hno)
      intro _ s₁ hreach
      refine (resize_ready (hreach.ready hb.ready) (hreach.shape.writable.trans hedit.writable) ?_ size).mono ?_
        fun _ _ hno => hno
      · rw [hreach.shape.totalEntries]
        exact hidx
      · exact fun _ _ hres => (hb.spent_reached hreach).resized rfl hres
    obtain ⟨_, s', hrun, hspent⟩ := hpass.exists_ok
    exact ⟨s', hrun, hspent⟩
  · have hfail : wp (Usfs.fileTruncate who idx size) (fun _ _ => False)
        (fun err s' => err = .noFreeBlocks ∧ Refused ⟨v, (viewOf v).table idx⟩ s') ⟨v, (viewOf v).table idx⟩ :=
      hgrow ((hb.growFile_refuses hedit.writable hroom).mono (fun _ _ hno => hno.elim) fun _ _ he => he)
    obtain ⟨_, s', hrun, rfl, hrefused⟩ := hfail.exists_error
    exact ⟨s', hrun, hrefused⟩

end

section

variable {who : OwIdentity} {totalBlocks b : UInt32} {label : Option (List UInt8)} {d d' : HtlDevice} {v : Vol}

/-- 呼び出しの列のどの後でも、読み直したファイルを伸ばせるかどうかは余地だけで決まる。 -/
theorem growth_decided_by_room (hf : d.Reliable) (hlayout : layoutBitmapBlocks totalBlocks = some b)
    (hcovers : CoversData totalBlocks b) (hdev : d.totalBlocks = 0 ∨ totalBlocks.toNat ≤ d.totalBlocks.toNat)
    (hfmt : formatVolume who totalBlocks label d = (.ok (), d')) (hopen : Opened d' v) (ops : List SessionOp)
    (hread : ∀ e ∈ trace SessionOp.run ops v, e.op.FreshlyRead e.before) {idx : UInt32} {e : Entry} {v₀ : Vol}
    (hheld : entryRead idx (final SessionOp.run ops v) = (.ok e, v₀)) {user : OwIdentity} (hedit : Editable v₀ user e) :
    (∀ (buf : List UInt8) (offset len : UInt32), len.toNat ≤ buf.length → len ≠ 0 →
        DecidedByRoom (fileWrite user idx buf offset len) ⟨v₀, e⟩ (blocksFor (offset.toNat + len.toNat)) len) ∧
      ∀ size : UInt32, e.sizeBytes < size →
        DecidedByRoom (fileTruncate user idx size) ⟨v₀, e⟩ (blocksFor size.toNat) () := by
  have hstart := inSession_of_format hf hlayout hcovers hdev hfmt hopen
  have hend := (trace_invariant (I := InSession) (P := fun e => e.op.FreshlyRead e.before)
    (fun op _ h hP => h.step op hP) ops v hstart hread).1
  obtain ⟨hentry, c, rfl⟩ := entryRead_table hheld
  have hstill : Still (final SessionOp.run ops v) ((final SessionOp.run ops v).atClock c) := ⟨c, rfl⟩
  have hsturdy : Sturdy ((final SessionOp.run ops v).atClock c) := (hend.resaved hstill.rewritten.resaved).sturdy
  subst hentry
  have hidx := live_inTable (Entry.live_of_file hedit.file)
  exact ⟨fun buf offset len hbuf hlen => hsturdy.write_decided hidx hedit hbuf hlen,
    fun size hsize => hsturdy.extend_decided hidx hedit hsize⟩

end

/-! ## 小さなボリュームの例 -/

/-- 特権を持つ主体が作ったファイルは、その主体が書ける。 -/
theorem Workable.editable {v : Vol} (h : Workable v) {sb : Superblock} {name : Option (List UInt8)} {idx : UInt32}
    (htable : (viewOf v).table idx = createdEntry ⟨0, 0⟩ sb idx entryFile modeDefaultFile name 1 0 0 0) :
    Editable v ⟨0, 0⟩ ((viewOf v).table idx) := by
  rw [htable]
  refine ⟨rfl, h.writable, ?_, rfl⟩
  change (if sb.securityFlags &&& secEncrypted ≠ 0 then secEncrypted.toUInt8 else 0).toUInt32 &&& secReadonly = 0
  split <;> decide

/-- 作ったばかりのファイルへの一バイトの書き込みと、二ブロックへの引き伸ばし。 -/
theorem growth_decided_by_room_small : ∃ d' v held v₀, formatVolume ⟨0, 0⟩ 64 none (zeroDevice 0) = (.ok (), d') ∧
    Opened d' v ∧ DecidedByRoom (fileWrite ⟨0, 0⟩ 1 [0x62] 0 1) ⟨v₀, held⟩ (blocksFor 1) 1 ∧
    DecidedByRoom (fileTruncate ⟨0, 0⟩ 1 5000) ⟨v₀, held⟩ (blocksFor 5000) () := by
  obtain ⟨d', v, hfmt, hopen⟩ := exists_opened_zeroDevice ⟨0, 0⟩ (n := 0) (.inl rfl)
  obtain ⟨v₁, hrun, hwork, _, _, htotal, _, _, _, htable⟩ := first_file hfmt hopen
  have hfinal : final SessionOp.run [.entry (createFile 0x61 0)] v = v₁ := by
    change (EntryOp.run (createFile 0x61 0) v).2 = v₁
    rw [hrun]
  have hedit := hwork.editable htable
  obtain ⟨v₀, hread⟩ := entryRead_summed hwork.ready.stable (by rw [htotal]; decide : (1 : UInt32).toNat < _)
    (hwork.kept.summed 1 (Entry.live_of_file hedit.file).1)
  have hedit : Editable v₀ ⟨0, 0⟩ ((viewOf v₁).table 1) := by
    obtain ⟨_, c, rfl⟩ := entryRead_table hread
    exact ⟨hedit.file, hedit.writable, hedit.notReadonly, hedit.access⟩
  have hsize : ((viewOf v₁).table 1).sizeBytes < 5000 := by
    rw [htable]
    exact (by decide : (0 : UInt32) < 5000)
  obtain ⟨hwrite, hextend⟩ := growth_decided_by_room (reliable_zeroDevice 0) layoutBitmapBlocks_small
    (.mk' (by decide) (by decide) (by decide)) (.inl rfl) hfmt hopen [.entry (createFile 0x61 0)] (fun e he => by
      rw [List.mem_singleton.mp (op_mem_of_mem_trace he)]
      trivial) (by rw [hfinal]; exact hread) hedit
  exact ⟨d', v, _, v₀, hfmt, hopen, hwrite [0x62] 0 1 length_byte (by decide), hextend 5000 hsize⟩

end OwStorage.Usfs
