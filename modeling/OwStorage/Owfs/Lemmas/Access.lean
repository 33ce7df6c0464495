import OwStorage.Owfs.Access
import OwStorage.Owfs.Lemmas.Blockmap

/-!
# 触れる先の記録の性質

記録を除くと元の関数になる。記録にあるポインタの番号とブロックの範囲を、inode の中身から述べる。
-/

namespace OwStorage.Owfs

open Lib Prog

/-! ## 記録の消去 -/

section

variable {α : Type} {ino : Inode}

theorem erases_onVol {q : TrackedVolM α} {p : OwfsM α} (h : Erases q p) : Erases (Tracked.onVol q) (onVol p) := h.under

theorem erases_blockmapGet (ino : Inode) (idx : UInt32) :
    Erases (Tracked.blockmapGet ino idx) (blockmapGet ino idx) := by
  unfold Tracked.blockmapGet blockmapGet
  refine .bind (.failIf _ _) fun _ => ?_
  split
  · exact .bind (.failIf _ _) fun _ => .pure _
  · exact .bind (.failIf _ _) fun _ => .bind (.silent _) fun buf => .note_bind (.bind (.failIf _ _) fun _ => .pure _)

theorem erases_allocAndZero : Erases Tracked.allocAndZero allocAndZero := by
  unfold Tracked.allocAndZero allocAndZero
  refine .bind (.silent _) fun b => .note_bind (.bind (.attempt (.silent _)) fun r => ?_)
  cases r with
  | ok _ => exact .pure _
  | error e => exact .bind (.attempt (.silent _)) fun _ => .throw _

theorem erases_ensureIndirect (idx b : UInt32) : Erases (Tracked.ensureIndirect idx b) (ensureIndirect idx b) := by
  unfold Tracked.ensureIndirect Tracked.storePointer ensureIndirect
  refine .bind (.silent _) fun s => .bind (.ite ?_ ?_) fun ibuf => .note_bind (.bind (.silent _) fun s' =>
    .bind (.attempt (.silent _)) fun r => ?_)
  · refine .bind (.attempt (.silent _)) fun r => ?_
    cases r with
    | error e => exact .bind (.attempt (.silent _)) fun _ => .throw _
    | ok ind => exact .bind (.silent _) fun _ => .pure _
  · refine .bind (.attempt (.silent _)) fun r => ?_
    cases r with
    | error _ => exact .bind (.attempt (.silent _)) fun _ => .throw _
    | ok buf => exact .pure _
  · cases r with
    | ok _ => exact .pure _
    | error e =>
        exact .bind (.attempt (.silent _)) fun _ =>
          .ite (.bind (.attempt (.silent _)) fun _ => .bind (.silent _) fun _ =>
          .throw _) (.throw _)

theorem erases_blockmapEnsure (idx : UInt32) : Erases (Tracked.blockmapEnsure idx) (blockmapEnsure idx) := by
  unfold Tracked.blockmapEnsure blockmapEnsure
  exact .bind (.silent _) fun s => .bind (.failIf _ _) fun _ => .bind (.ofExcept _) fun _ =>
    .ite (erases_onVol (erases_blockmapGet _ _)) (.bind (.failIf _ _) fun _ => .bind (erases_onVol erases_allocAndZero)
      fun b => .bind (.ite (.silent _) (erases_ensureIndirect _ _)) fun _ => .bind (.silent _) fun _ => .pure _)

theorem erases_ensureBlocks (last : UInt32) : Erases (Tracked.ensureBlocks last) (ensureBlocks last) := by
  unfold Tracked.ensureBlocks ensureBlocks
  exact .bind (.silent _) fun s => .bind (.loop fun _ _ => .bind (.silent _) fun s' =>
    .ite (.bind (erases_blockmapEnsure _) fun _ => .pure _) (.pure _)) fun _ => .pure _

theorem erases_releaseTarget (idx : UInt32) (ibuf : Option Block) :
    Erases (Tracked.releaseTarget ino idx ibuf) (releaseTarget ino idx ibuf) := by
  unfold Tracked.releaseTarget releaseTarget
  refine .ite (.pure _) (.ite (.bind ?_ fun buf => .note_bind (.pure _)) (.pure _))
  cases ibuf with
  | some buf => exact .pure _
  | none => exact .silent _

theorem erases_blockmapRelease (fromIdx : UInt32) :
    Erases (Tracked.blockmapRelease fromIdx) (blockmapRelease fromIdx) := by
  unfold Tracked.blockmapRelease blockmapRelease
  exact .bind (.silent _) fun s => .bind (.ofExcept _) fun _ => .ite (.pure _) (.bind (.loop fun i ibuf =>
    .bind (erases_releaseTarget _ _) fun r => .bind (.whenever (.silent _)) fun _ => .pure _) fun _ => .silent _)

/-- 読み取りの記録を除くと、`owfs_file_read` になる。 -/
theorem erases_fileRead (who : OwIdentity) (ino : Inode) (offset len : UInt32) :
    Erases (Tracked.fileRead who ino offset len) (fileRead who ino offset len) := by
  unfold Tracked.fileRead fileRead
  refine .bind (.failIf _ _) fun _ => .bind (.ofExcept _) fun _ => .ite (.pure _) (.bind (.silent _) fun v => ?_)
  unfold Tracked.readLoop readLoop
  refine .bind (.loop fun _ acc =>
    .ite (.bind (erases_blockmapGet _ _) fun bnum => .note_bind (.bind (.silent _) fun buf =>
    .pure _)) (.pure _)) fun r => ?_
  cases r with
  | inl acc => exact .pure _
  | inr out => exact .pure _

theorem erases_writeLoop (sb : Superblock) (ino : Inode) (buf : List UInt8) (offset len : UInt32) :
    Erases (Tracked.writeLoop sb ino buf offset len) (writeLoop sb ino buf offset len) := by
  have hchunk : ∀ pos chunk bytes, Erases (Tracked.writeChunk sb ino pos chunk bytes)
    (writeChunk sb ino pos chunk bytes) := by
    intro pos chunk bytes
    unfold Tracked.writeChunk writeChunk
    exact .bind (erases_blockmapGet _ _) fun bnum => .note_bind (.silent _)
  unfold Tracked.writeLoop writeLoop
  refine .bind (.loop fun _ written => .ite (.bind (.attempt (hchunk _ _ _)) fun r => ?_) (.pure _)) fun r => ?_
  · cases r with
    | ok _ => exact .pure _
    | error e => exact .pure _
  · cases r with
    | inl written => exact .pure _
    | inr res => exact .pure _

/-- 書き込みの記録を除くと、`owfs_file_write` になる。 -/
theorem erases_fileWrite (who : OwIdentity) (n : UInt32) (buf : List UInt8) (offset len : UInt32) :
    Erases (Tracked.fileWrite who n buf offset len) (fileWrite who n buf offset len) := by
  unfold Tracked.fileWrite fileWrite
  refine .bind (.silent _) fun s => .bind (.failIf _ _) fun _ => .ite (.pure _) (.bind (.ofExcept _) fun _ =>
    .bind (.failIf _ _) fun _ => .bind (.ofExcept _) fun _ => .bind (.failIf _ _) fun _ => .bind (.failIf _ _) fun _ =>
    .bind (erases_ensureBlocks _) fun _ => .bind (.silent _) fun s' => .bind (erases_onVol (erases_writeLoop _ _ _ _ _))
    fun r => .bind (.silent _) fun _ => .bind (.silent _) fun _ => ?_)
  cases r.2 with
  | some e => exact .ite (.throw _) (.pure _)
  | none => exact .pure _

/-- 切り詰めの記録を除くと、`owfs_file_truncate` になる。 -/
theorem erases_fileTruncate (who : OwIdentity) (n size : UInt32) :
    Erases (Tracked.fileTruncate who n size) (fileTruncate who n size) := by
  unfold Tracked.fileTruncate fileTruncate
  exact .bind (.silent _) fun s => .bind (.failIf _ _) fun _ => .bind (.ofExcept _) fun _ =>
    .bind (.failIf _ _) fun _ =>
    .bind (.ofExcept _) fun _ => .ite (.pure _) (.bind (.failIf _ _) fun _ =>
    .bind (.whenever (erases_blockmapRelease _)) fun _ => .bind (.silent _) fun _ => .silent _)

end

end OwStorage.Owfs
