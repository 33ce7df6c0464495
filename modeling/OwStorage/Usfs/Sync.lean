import OwStorage.Usfs.Entry

/-!
# 同期と、マウントから検査までの状態（`usfs_sync.c`）
-/

namespace OwStorage.Usfs

open Lib

def isDirty (sb : Superblock) : Bool := sb.stateFlags &&& (stateDirty ||| stateLocked ||| stateError) != 0

def setFlags (mask : UInt32) (sb : Superblock) : Superblock :=
  { sb with stateFlags := sb.stateFlags ||| mask }

def clearFlags (mask : UInt32) (sb : Superblock) : Superblock :=
  { sb with stateFlags := sb.stateFlags &&& ~~~ mask }

def markDirty : UsfsM Unit := do
  modifySb (setFlags stateDirty)
  superblockWrite

def markClean : UsfsM Unit := do
  let v ← Prog.get
  Prog.failIf (v.sb.stateFlags &&& stateError ≠ 0) .checksumMismatch
  modifySb (clearFlags (stateDirty ||| stateLocked))
  superblockWrite
  flushBlk

def flushDirty : UsfsM Unit := do
  let sum ← bitmapComputeFletcher64
  modifySb fun sb => { sb with fletcher64Bitmap := sum }
  modifySb (clearFlags (stateDirty ||| stateLocked))
  superblockWrite
  flushBlk

/-- ボリュームと、検査の数える誤りの数 `*out_corrupt_count`。 -/
structure CheckState where
  vol : Vol
  corruptCount : UInt32

def CheckState.volLens : Lens CheckState Vol where
  get s := s.vol
  set v s := { s with vol := v }
  get_set _ _ := rfl
  set_get _ := rfl
  set_set _ _ _ := rfl

abbrev CheckM (α : Type) : Type := Prog CheckState UsfsErr α

def checkVol {α : Type} (p : UsfsM α) : CheckM α := Prog.within CheckState.volLens id p

def countCorrupt : CheckM Unit := Prog.modify fun s => { s with corruptCount := s.corruptCount + 1 }

/-- 項目の表の全体を読み、検査値の合わない記録を数える。 -/
def checkEntries : CheckM Unit := do
  let s ← Prog.get
  Prog.forUpto s.vol.sb.totalEntries.toNat fun i => do
    match ← Prog.attempt (checkVol (entryRead (UInt32.ofNat i))) with
    | .ok _ => pure ()
    | .error .checksumMismatch => countCorrupt
    | .error .notFound => pure ()
    | .error e => Prog.throw e

/-- 署名のあるボリュームだけ、項目の表の署名を調べる。 -/
def checkSignature : CheckM Unit := do
  let s ← Prog.get
  Prog.whenever (s.vol.sb.securityFlags &&& secSigned ≠ 0) do
    let sig ← checkVol signatureCompute
    Prog.whenever (s.vol.sb.signature ≠ sig) countCorrupt

/-- 結果を問わずにスーパーブロックを書いて、装置に送る。 -/
def persist : UsfsM Unit := do
  let _ ← Prog.attempt (ε := UsfsErr) superblockWrite
  let _ ← Prog.attempt (ε := UsfsErr) flushBlk
  pure ()

/-- 表と要約を調べ、合わないものを数える。 -/
def scanVolume : CheckM Unit := do
  checkEntries
  let current ← checkVol bitmapComputeFletcher64
  let s ← Prog.get
  Prog.whenever (s.vol.sb.fletcher64Bitmap ≠ 0 ∧ current ≠ s.vol.sb.fletcher64Bitmap) countCorrupt
  let countedFree ← checkVol bitmapCountFree
  Prog.whenever (countedFree ≠ s.vol.sb.freeBlocks) countCorrupt
  checkSignature

/-- 数えた結果を旗に書く。 -/
def concludeCheck : CheckM Unit := do
  let s ← Prog.get
  if s.corruptCount = 0 then do
    checkVol (modifySb (clearFlags (stateDirty ||| stateLocked ||| stateError)))
    checkVol superblockWrite
    let _ ← Prog.attempt (ε := UsfsErr) (checkVol flushBlk)
    pure ()
  else do
    checkVol (modifySb (setFlags stateError))
    checkVol persist
    Prog.throw .checksumMismatch

def consistencyCheck : CheckM Unit := do
  Prog.modify fun s => { s with corruptCount := 0 }
  let s ← Prog.get
  if ! superblockValidate s.vol.sb then do
    checkVol (modifySb (setFlags (stateError ||| stateLocked)))
    countCorrupt
    checkVol persist
    Prog.throw .corruptSuperblock
  else do
    -- 検査の途中で落ちてもロックが残るように、先に書く。
    checkVol (modifySb (setFlags stateLocked))
    checkVol superblockWrite
    scanVolume
    concludeCheck

def mount : UsfsM Unit := do
  superblockRead
  let v ← Prog.get
  Prog.failIf (v.sb.stateFlags &&& stateError ≠ 0) .volumeDirty
  if v.sb.stateFlags &&& (stateDirty ||| stateLocked) ≠ 0 then do
    modifySb (setFlags stateLocked)
    superblockWrite
    Prog.throw .volumeDirty
  else do
    modifySb fun sb => { sb with mountCount := sb.mountCount + 1 }
    modifySb (setFlags stateDirty)
    superblockWrite

def unmount : UsfsM Unit := do
  let v ← Prog.get
  Prog.failIf (v.sb.stateFlags &&& stateError ≠ 0) .checksumMismatch
  modifySb (clearFlags (stateDirty ||| stateLocked))
  superblockWrite
  flushBlk

end OwStorage.Usfs
