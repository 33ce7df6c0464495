import OwStorage.Owfs.Lemmas.WriteCost
import OwStorage.Owfs.Theorems.Content
import OwStorage.Owfs.Lemmas.Check

/-!
# ファイルの終わりを越えた書き込み

終わりを越えて書くと、前の終わりと書き始めの間に隙間ができる。隙間のうち、前からあったブロックの部分には、切り詰める前のバイトが
残っている。新しいブロックは、暗号化する前に装置の上で 0 で埋めるので、暗号化したファイルでは鍵の列がそのまま読まれる。
-/

namespace OwStorage.Owfs

open Lib Prog

/-- 書く前の状態から決まる、書き込みの範囲の外で読まれるブロック。新しいブロックは空きの並びの先頭から取る。 -/
def gapBlock (v : Vol) (ino : Inode) (i : Nat) : Block :=
  if i < ino.blockCount.toNat then plainBlock v.dev.disk v.sb ino i
  else cryptoXform v.sb ino (Bytes.zero 4096) ((freeList v)[growCost ino.blockCount.toNat i]?.getD 0)

/-- 書く前の状態についての条件。持っているブロックの終わりより後ろは復号すると 0 で、暗号化するファイルなら、
これから取る空きブロックの鍵の列も、隙間では 0 である。 -/
structure GapClear (v : Vol) (ino : Inode) (offset : Nat) : Prop where
  tail : ∀ p, ino.sizeBytes.toNat ≤ p → p < offset → p / 4096 < ino.blockCount.toNat →
    paged (plainBlock v.dev.disk v.sb ino) p = 0
  fresh : isEncrypted v.sb ino = true → ∀ p, ino.sizeBytes.toNat ≤ p → p < offset → ino.blockCount.toNat ≤ p / 4096 →
    ∀ b, (freeList v)[growCost ino.blockCount.toNat (p / 4096)]? = some b →
      (keystreamBlock v.sb b)[p % 4096]?.getD 0 = 0

/-- 位置 `lo` から `hi` までを読んで、0 でないバイトが返ることはない。 -/
def GapZero (v : Vol) (ino : Inode) (lo hi : Nat) : Prop :=
  ∀ reader off cnt out v', fileRead reader ino off cnt v = (.ok out, v') →
    ∀ j b, out[j]? = some b → lo ≤ off.toNat + j → off.toNat + j < hi → b = 0

section

variable {v v₀ v₁ v₂ : Vol} {f : UInt32 → Inode} {n offset len w : UInt32} {ino ino' : Inode} {who : OwIdentity}
  {buf data : List UInt8} {s s₁ s' : FileState}

/-- ブロックを用意した後の内容。 -/
theorem Stages.plainBlock_eq (h : Stages f n s s₁ v₂ s' offset len data)
    (hs : Sound s.vol.dev.disk s.vol.sb (Function.update f n s.inode)) (hn : n.toNat < s.vol.sb.totalInodes.toNat)
    {i : Nat} (hi : i < s₁.inode.blockCount.toNat) :
    plainBlock s₁.vol.dev.disk s₁.vol.sb s₁.inode i = gapBlock s.vol s.inode i := by
  unfold gapBlock
  by_cases hold : i < s.inode.blockCount.toNat
  · rw [if_pos hold]
    exact h.ext.plainBlock_eq hs hn hold
  · rw [if_neg hold, h.supplied.taken i (Nat.not_lt.mp hold) hi]
    unfold plainBlock
    rw [h.supplied.zeroed i (Nat.not_lt.mp hold) hi]
    exact cryptoXform_congr h.ext.shape (by rw [h.ext.fields]) _ _

/-- 書いた後の、書き込みの前の部分のバイト。 -/
theorem Stages.gap_byte (h : Stages f n s s₁ v₂ s' offset len data)
    (hs : Sound s.vol.dev.disk s.vol.sb (Function.update f n s.inode)) (hn : n.toNat < s.vol.sb.totalInodes.toNat)
    (hsum : (offset + len).toNat = offset.toNat + len.toNat) {p : Nat} (hp : p < offset.toNat) :
    (fileContent s'.vol.dev.disk s'.vol.sb s'.inode)[p]? = some (paged (gapBlock s.vol s.inode) p) := by
  have hreach := h.reach
  rw [h.inode, h.wrote.recorded_content h.ext hn hsum h.reach h.recorded, getElem?_pages (by decide),
    if_pos ⟨by omega, by omega⟩, h.wrote.bytes p (by omega), if_neg (by omega)]
  unfold paged
  rw [h.plainBlock_eq hs hn (Nat.div_lt_of_lt_mul (by omega))]

/-- 通った書き込みは、空であるか、検査を通っている。 -/
theorem permits_of_fileWrite (hrun : fileWrite who n buf offset len s = (.ok w, s')) :
    len = 0 ∧ s' = s ∨ Permits who s offset len := by
  have hwp : wp (fileWrite who n buf offset len) (fun _ s' => len = 0 ∧ s' = s ∨ Permits who s offset len)
      (fun _ _ => True) s := by
    unfold fileWrite
    rw [wp_bind, wp_get, wp_bind, wp_failIf]
    refine ⟨fun _ => trivial, fun hfile => ?_⟩
    rw [wp_ite]
    refine ⟨fun hz => .inl ⟨hz, rfl⟩, fun hlen => ?_⟩
    rw [wp_bind, wp_ofExcept]
    refine ⟨fun _ hw => ?_, fun _ _ => trivial⟩
    rw [wp_bind, wp_failIf]
    refine ⟨fun _ => trivial, fun hro => ?_⟩
    rw [wp_bind, wp_ofExcept]
    refine ⟨fun _ hacc => ?_, fun _ _ => trivial⟩
    rw [wp_bind, wp_failIf]
    refine ⟨fun _ => trivial, fun hbig => ?_⟩
    have hok : Permits who s offset len :=
      ⟨hfile, hlen, hw, fun hno => hno.elim hro fun h => h hacc, Nat.not_lt.mp hbig⟩
    exact wp_trivial.mono (fun _ _ _ => .inr hok) (fun _ _ _ => trivial)
  exact hwp.ok hrun

/-- 読み直した inode への、終わりを越えた書き込みの後の内容。新しいブロックは空きの並びにある。 -/
theorem Ready.gap_byte (hr : Ready v) (hread : inodeRead n v = (.ok ino, v₀)) (hbuf : len.toNat ≤ buf.length)
    (hok : Permits who ⟨v₀, ino⟩ offset len)
    (hwrite : fileWrite who n buf offset len ⟨v₀, ino⟩ = (.ok w, ⟨v₁, ino'⟩)) {p : Nat} (hp : p < offset.toNat) :
    (fileContent v₁.dev.disk v₁.sb ino')[p]? = some (paged (gapBlock v ino) p) ∧
      (ino.blockCount.toNat ≤ p / 4096 → ∃ b, (freeList v)[growCost ino.blockCount.toNat (p / 4096)]? = some b) := by
  obtain ⟨⟨c, rfl⟩, hn, hinode, hsound⟩ := hr.freshRead hread (live_of_file hok.file)
  have hstages := fileWrite_stages (s := ⟨v.atClock c, ino⟩) hsound hn hinode hr.faultFree hr.serves hbuf hok
  obtain ⟨_, s₁, v₂, hst⟩ := hstages.ok hwrite
  have hfit := hok.fits
  have hreach := hst.reach
  refine ⟨hst.gap_byte hsound hn (toNat_add_lt (by omega)) hp, fun hnew => ⟨_, hst.supplied.taken _ hnew ?_⟩⟩
  exact Nat.div_lt_of_lt_mul (by omega)

/-- 書いた後の読み取りは、内容の一部を返す。 -/
theorem wp_read_written (hr : Ready v) (hread : inodeRead n v = (.ok ino, v₀)) (hbuf : len.toNat ≤ buf.length)
    (hwrite : fileWrite who n buf offset len ⟨v₀, ino⟩ = (.ok w, ⟨v₁, ino'⟩)) (reader : OwIdentity) (off cnt : UInt32) :
    wp (fileRead reader ino' off cnt)
      (fun out _ => out = ((fileContent v₁.dev.disk v₁.sb ino').drop off.toNat).take cnt.toNat)
      (fun _ _ => inodeAccessCheck reader ino' accessRead ≠ .ok ()) v₁ := by
  obtain ⟨hn, _, hover⟩ := overwritten_of_fileWrite hr.sound hread hbuf hwrite
  have hset := hover.settled
  have hn₁ : n.toNat < v₁.sb.totalInodes.toNat := by
    rw [hset.shape.totalInodes]
    exact hn
  have hreads : ReadsData v₁.dev.toHtlConfig v₁.sb := by
    rw [hset.dev.config]
    exact (hset.shape.serves hr.serves).readsData
  refine (fileRead_spec hset.sound hn₁ reader off cnt).mono (fun _ _ h => h.2) ?_
  rintro e v' ⟨_, hbad⟩
  refine (hbad ⟨hset.dev.faultFree hr.faultFree, hreads⟩).resolve_left fun hno => ?_
  have htype : ino'.entryType = ino.entryType := hover.entryType_eq
  rw [htype] at hno
  exact isFile_of_fileWrite hwrite hno

theorem paged_gapBlock_old {p : Nat} (h : p / 4096 < ino.blockCount.toNat) :
    paged (gapBlock v ino) p = paged (plainBlock v.dev.disk v.sb ino) p := by
  unfold paged gapBlock
  rw [if_pos h]

theorem paged_gapBlock_clear {p : Nat} (h : ino.blockCount.toNat ≤ p / 4096) (hno : isEncrypted v.sb ino = false) :
    paged (gapBlock v ino) p = 0 := by
  unfold paged gapBlock cryptoXform
  rw [if_neg (Nat.not_lt.mpr h), hno]
  change (Bytes.zero 4096)[p % 4096]?.getD 0 = 0
  rw [getElem?_pos (Bytes.zero 4096) (p % 4096) (Nat.mod_lt _ (by decide)), Bytes.getElem_zero]
  rfl

theorem paged_gapBlock_enciphered {p : Nat} {b : UInt32} (h : ino.blockCount.toNat ≤ p / 4096)
    (henc : isEncrypted v.sb ino = true) (hb : (freeList v)[growCost ino.blockCount.toNat (p / 4096)]? = some b) :
    paged (gapBlock v ino) p = (keystreamBlock v.sb b)[p % 4096]?.getD 0 := by
  unfold paged gapBlock cryptoXform keystreamBlock
  rw [if_neg (Nat.not_lt.mpr h), hb, henc]
  rfl

theorem getElem?_of_read {l : List UInt8} {off cnt j : Nat} {b : UInt8} (h : ((l.drop off).take cnt)[j]? = some b) :
    l[off + j]? = some b := by
  rw [List.getElem?_take] at h
  split at h
  · rwa [List.getElem?_drop] at h
  · cases h

/-- 隙間のバイトを一つ読む。 -/
theorem Ready.gap_read (hr : Ready v) (hread : inodeRead n v = (.ok ino, v₀)) (hbuf : len.toNat ≤ buf.length)
    (hok : Permits who ⟨v₀, ino⟩ offset len)
    (hwrite : fileWrite who n buf offset len ⟨v₀, ino⟩ = (.ok w, ⟨v₁, ino'⟩)) {p : Nat} (hp : p < offset.toNat) :
    ∃ out v', fileRead ⟨0, 0⟩ ino' (UInt32.ofNat p) 1 v₁ = (.ok out, v') ∧
      out[0]? = some (paged (gapBlock v ino) p) := by
  have hwp := wp_read_written hr hread hbuf hwrite ⟨0, 0⟩ (UInt32.ofNat p) 1
  obtain ⟨out, v', hrun, hout⟩ := (hwp.mono (fun _ _ h => h) fun _ _ h => h rfl).exists_ok
  refine ⟨out, v', hrun, ?_⟩
  rw [hout, List.getElem?_take, if_pos (by decide), List.getElem?_drop, toNat_ofNat_lt (hp.trans offset.toNat_lt)]
  exact (hr.gap_byte hread hbuf hok hwrite hp).1

/-- 隙間が 0 と読まれるのは、空の書き込みか、隙間になるバイトが書く前から 0 と読まれることに決まっている場合に限る。 -/
theorem gap_reads_zero_iff (hr : Ready v) (hread : inodeRead n v = (.ok ino, v₀)) (hbuf : len.toNat ≤ buf.length)
    (hwrite : fileWrite who n buf offset len ⟨v₀, ino⟩ = (.ok w, ⟨v₁, ino'⟩)) :
    GapZero v₁ ino' ino.sizeBytes.toNat offset.toNat ↔
      len = 0 ∨ GapClear v ino offset.toNat := by
  have hreads := wp_read_written hr hread hbuf hwrite
  constructor
  · intro hzero
    rcases permits_of_fileWrite hwrite with ⟨hempty, _⟩ | hok
    · exact .inl hempty
    · have hgap : ∀ p, ino.sizeBytes.toNat ≤ p → p < offset.toNat → paged (gapBlock v ino) p = 0 := ?_
      · refine .inr ⟨fun p hlo hhi hold => ?_, fun henc p hlo hhi hnew b hb => ?_⟩
        · rw [← paged_gapBlock_old hold]
          exact hgap p hlo hhi
        · rw [← paged_gapBlock_enciphered hnew henc hb]
          exact hgap p hlo hhi
      intro p hlo hhi
      have hp : (UInt32.ofNat p).toNat = p := toNat_ofNat_lt (hhi.trans offset.toNat_lt)
      obtain ⟨out, v', hrun, hfirst⟩ := hr.gap_read hread hbuf hok hwrite hhi
      exact hzero ⟨0, 0⟩ (UInt32.ofNat p) 1 out v' hrun 0 _ hfirst (by rw [hp]; exact hlo) (by rw [hp]; exact hhi)
  · intro hcond reader off cnt out v' hrun j b hb hlo hhi
    have hout := (hreads reader off cnt).ok hrun
    rw [hout] at hb
    have hbyte := getElem?_of_read hb
    rcases permits_of_fileWrite hwrite with ⟨_, hsame⟩ | hok
    · obtain ⟨rfl, rfl⟩ := FileState.mk.inj hsame
      unfold fileContent at hbyte
      rw [getElem?_pages (by decide)] at hbyte
      split at hbyte
      · omega
      · cases hbyte
    · obtain ⟨hgap, hsupply⟩ := hr.gap_byte hread hbuf hok hwrite hhi
      rw [hgap] at hbyte
      rw [← Option.some.inj hbyte]
      have hclear := hcond.resolve_left hok.nonempty
      by_cases hold : (off.toNat + j) / 4096 < ino.blockCount.toNat
      · rw [paged_gapBlock_old hold]
        exact hclear.tail _ hlo hhi hold
      · rw [Nat.not_lt] at hold
        cases henc : isEncrypted v.sb ino with
        | false => exact paged_gapBlock_clear hold henc
        | true =>
            obtain ⟨b', hb'⟩ := hsupply hold
            rw [paged_gapBlock_enciphered hold henc hb']
            exact hclear.fresh henc _ hlo hhi hold b' hb'

end

/-! ## 切り詰めたファイルの例 -/

/-- ファイル `n` への書き込みと切り詰めだけの列。 -/
def FileOps (n : UInt32) (ops : List DataOp) : Prop :=
  ∀ op ∈ ops, (∃ who buf offset len h, op = .fileWrite who n buf offset len h) ∨
    ∃ who newSize, op = .fileTruncate who n newSize

/-- 作ったばかりのファイル。 -/
@[irreducible] def madeFile : Vol := (inodeAlloc ⟨0, 0⟩ entryFile none 0 0 mountedVolume).2

/-- 二バイトを書き、一バイトに切り詰める。 -/
def writeCut : List DataOp := [.fileWrite ⟨0, 0⟩ 1 [7, 9] 0 2 (by decide), .fileTruncate ⟨0, 0⟩ 1 1]

/-- 読み直しの検査値の確認を省いて求めた、切り詰めた後のボリューム。 -/
@[irreducible] def cutFile (v : Vol) : Vol :=
  let v₁ := (fileWrite ⟨0, 0⟩ 1 [7, 9] 0 2 ⟨(inodeLoad 1 v).2, inodeAt v.dev.disk v.sb 1⟩).2.vol
  (fileTruncate ⟨0, 0⟩ 1 1 ⟨(inodeLoad 1 v₁).2, inodeAt v₁.dev.disk v₁.sb 1⟩).2.vol

theorem final_writeCut {v : Vol} (hr : Ready v) (hs : Summed v) (hn : (1 : UInt32).toNat < v.sb.totalInodes.toNat) :
    final DataOp.run writeCut v = cutFile v := by
  have hfits : (2 : UInt32).toNat ≤ [(7 : UInt8), 9].length := by decide
  have hups : Preserves (Upholds {1}) (withFresh 1 (fileWrite ⟨0, 0⟩ 1 [7, 9] 0 2)) := upholds_fileWrite ⟨0, 0⟩ 1 hfits
  obtain ⟨hr₁, hc₁, _⟩ := hr.after hups
  have hn₁ := hn
  rw [← hc₁.shape.totalInodes] at hn₁
  have hsecond := withFresh_state (p := fileTruncate ⟨0, 0⟩ 1 1) hr₁ (hc₁.sums hs) hn₁
  rw [withFresh_state (p := fileWrite ⟨0, 0⟩ 1 [7, 9] 0 2) hr hs hn] at hsecond
  unfold cutFile
  change (withFresh 1 (fileTruncate ⟨0, 0⟩ 1 1) (withFresh 1 (fileWrite ⟨0, 0⟩ 1 [7, 9] 0 2) v).2).2 = _
  rw [withFresh_state (p := fileWrite ⟨0, 0⟩ 1 [7, 9] 0 2) hr hs hn]
  exact hsecond

theorem ready_madeFile : Ready madeFile ∧ Summed madeFile := by
  unfold madeFile
  obtain ⟨hr, hc, _⟩ := inSession_mountedVolume.toReady.after (upholds_inodeAlloc ⟨0, 0⟩ entryFile none 0 0)
  exact ⟨hr, hc.sums inSession_mountedVolume.sums⟩

/-- 作って、書いて、切り詰めたボリューム。 -/
@[irreducible] def stale : Vol := cutFile madeFile

theorem final_madeFile : final DataOp.run writeCut madeFile = stale := by
  unfold stale
  exact final_writeCut ready_madeFile.1 ready_madeFile.2 (by decide +kernel)

theorem read_stale : inodeRead 1 stale = (.ok (inodeAt stale.dev.disk stale.sb 1), (inodeLoad 1 stale).2) := by
  have hkeep : ∀ (op : DataOp) v, Ready v ∧ Summed v → Ready (op.run v).2 ∧ Summed (op.run v).2 := fun op v h => by
    obtain ⟨hr', hc', _⟩ := h.1.after (upholds_dataOp op)
    exact ⟨hr', hc'.sums h.2⟩
  have hmoved := final_invariant hkeep writeCut ready_madeFile
  rw [final_madeFile] at hmoved
  exact hmoved.1.inodeRead_eq hmoved.2 (by decide +kernel)

theorem stale_state : (inodeAt stale.dev.disk stale.sb 1).sizeBytes = 1 ∧
    (inodeAt stale.dev.disk stale.sb 1).blockCount = 1 ∧
    paged (plainBlock stale.dev.disk stale.sb (inodeAt stale.dev.disk stale.sb 1)) 1 = 9 := by
  decide +kernel

theorem ready_stale : Ready stale := by
  have hr := (final_invariant (I := Ready) (fun (op : DataOp) v h => (h.after (upholds_dataOp op)).ready) writeCut
    ready_madeFile.1)
  rwa [final_madeFile] at hr

/-- 切り詰めで切ったバイトが、終わりを越えた書き込みの後に読まれる。 -/
theorem gap_reads_stale : ¬ ∀ (v v₀ v₁ : Vol) (n offset len w : UInt32) (ino ino' : Inode) (who : OwIdentity)
    (buf : List UInt8) (ops : List DataOp), Ready v → FileOps n ops →
    inodeRead n (final DataOp.run ops v) = (.ok ino, v₀) → len.toNat ≤ buf.length → ino.sizeBytes < offset →
    fileWrite who n buf offset len ⟨v₀, ino⟩ = (.ok w, ⟨v₁, ino'⟩) →
      GapZero v₁ ino' ino.sizeBytes.toNat offset.toNat := by
  intro hclaim
  have hops : FileOps 1 writeCut := by
    intro op hop
    rcases List.mem_pair.mp hop with rfl | rfl
    · exact .inl ⟨_, _, _, _, _, rfl⟩
    · exact .inr ⟨_, _, rfl⟩
  obtain ⟨hsize, hcount, hbyte⟩ := stale_state
  have hwrite := run_eq (p := fileWrite ⟨0, 0⟩ 1 [5] 2 1) (r := .ok 1)
    (s := ⟨(inodeLoad 1 stale).2, inodeAt stale.dev.disk stale.sb 1⟩) (by decide +kernel)
  have hzero := hclaim madeFile _ _ 1 2 1 1 _ _ ⟨0, 0⟩ [5] writeCut ready_madeFile.1 hops
    (by rw [final_madeFile]; exact read_stale) (by decide) (by rw [hsize]; decide) hwrite
  have hok := (permits_of_fileWrite hwrite).resolve_left fun h => absurd h.1 (by decide)
  obtain ⟨out, v', hrun, hfirst⟩ := ready_stale.gap_read (p := 1) read_stale (by decide) hok hwrite (by decide)
  rw [paged_gapBlock_old (by rw [hcount]; decide), hbyte] at hfirst
  rw [hsize] at hzero
  exact absurd (hzero ⟨0, 0⟩ _ 1 out v' hrun 0 9 hfirst (by decide) (by decide)) (by decide)

/-- 一バイトのファイルの、0 で埋めたブロックの隙間は 0 と読まれる。 -/
theorem gap_zero_on_wrote : ∃ v₁ ino', fileWrite ⟨0, 0⟩ 1 [5] 2 1 ⟨(inodeLoad 1 (wrote mountedVolume)).2,
      inodeAt (wrote mountedVolume).dev.disk (wrote mountedVolume).sb 1⟩ = (.ok 1, ⟨v₁, ino'⟩) ∧
        GapZero v₁ ino' 1 2 := by
  have hwrite := run_eq (p := fileWrite ⟨0, 0⟩ 1 [5] 2 1) (r := .ok 1) (s := ⟨(inodeLoad 1 (wrote mountedVolume)).2,
      inodeAt (wrote mountedVolume).dev.disk (wrote mountedVolume).sb 1⟩) (by decide +kernel)
  have hstate : (inodeAt (wrote mountedVolume).dev.disk (wrote mountedVolume).sb 1).sizeBytes = 1 ∧
      (inodeAt (wrote mountedVolume).dev.disk (wrote mountedVolume).sb 1).blockCount = 1 ∧
      isEncrypted (wrote mountedVolume).sb (inodeAt (wrote mountedVolume).dev.disk (wrote mountedVolume).sb 1) = false ∧
      paged (plainBlock (wrote mountedVolume).dev.disk (wrote mountedVolume).sb
        (inodeAt (wrote mountedVolume).dev.disk (wrote mountedVolume).sb 1)) 1 = 0 := by
    decide +kernel
  obtain ⟨hsize, hcount, henc, hbyte⟩ := hstate
  have hzero := (gap_reads_zero_iff inSession_wrote.toReady read_wrote (by decide) hwrite).mpr (.inr
    ⟨fun p hlo hhi _ => ?_, fun h => absurd h (by rw [henc]; exact Bool.false_ne_true)⟩)
  · rw [hsize] at hzero
    exact ⟨_, _, hwrite, hzero⟩
  · rw [hsize] at hlo
    change 1 ≤ p at hlo
    change p < 2 at hhi
    obtain rfl : p = 1 := by omega
    exact hbyte

end OwStorage.Owfs
