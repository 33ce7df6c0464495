import OwStorage.Owfs.File
import OwStorage.Lib.Log

/-!
# ファイルの操作が触れる先

`owfs_blockmap.c` と `owfs_file.c` の関数に、間接ブロックのポインタの番号と、ファイルのデータとして読み書きするブロックの記録を
付けたもの。記録のほかは元の関数と同じである。
-/

namespace OwStorage.Owfs

open Lib

/-- ファイルの操作が触れるもの。 -/
inductive Access where
  /-- 間接ブロックの `entry` 番目のポインタを読み書きする。 -/
  | pointer (entry : UInt32)
  /-- ブロック `b` をファイルのデータとして読み書きする。 -/
  | data (b : UInt32)

abbrev TrackedVolM (α : Type) : Type := Prog (Logged Vol Access) OwfsErr α

abbrev TrackedFileM (α : Type) : Type := Prog (Logged FileState Access) OwfsErr α

namespace Tracked

def onVol {α : Type} (p : TrackedVolM α) : TrackedFileM α := Prog.within (Logged.under FileState.volLens) id p

def blockmapGet (ino : Inode) (idx : UInt32) : TrackedVolM UInt32 := do
  Prog.failIf (idx ≥ ino.blockCount) .invalidParam
  if h : idx.toNat < 10 then do
    Prog.failIf (ino.directBlocks[idx.toNat] = 0) .invalidParam
    pure ino.directBlocks[idx.toNat]
  else do
    Prog.failIf (ino.indirectBlock = 0) .invalidParam
    let buf ← Prog.silent (readBlk ino.indirectBlock)
    Prog.note (.pointer (idx - 10))
    let b := ptrLoad buf (idx - 10).toNat
    Prog.failIf (b = 0) .invalidParam
    pure b

/-- ファイルのデータのブロックを取り、0 で埋める。 -/
def allocAndZero : TrackedVolM UInt32 := do
  let b ← Prog.silent bitmapAlloc
  Prog.note (.data b)
  match ← Prog.attempt (Prog.silent (zeroBlk b)) with
  | .ok _ => pure b
  | .error e => do
      let _ ← Prog.attempt (ε := OwfsErr) (Prog.silent (bitmapFree b))
      Prog.throw e

/-- `ensureIndirect` の後半。読んだか作った間接ブロック `ibuf` にポインタを書く。 -/
def storePointer (entry dataBlock : UInt32) (ibuf : Block) : TrackedFileM Unit := do
  Prog.note (.pointer entry)
  let s ← Prog.silent Prog.get
  match ← Prog.attempt (Prog.silent (Owfs.onVol
      (writeBlk s.inode.indirectBlock (ptrStore ibuf entry.toNat dataBlock)))) with
  | .ok _ => pure ()
  | .error e => do
      let _ ← Prog.attempt (ε := OwfsErr) (Prog.silent (Owfs.onVol (bitmapFree dataBlock)))
      if s.inode.blockCount = 10 ∧ entry = 0 then do
        let _ ← Prog.attempt (ε := OwfsErr) (Prog.silent (Owfs.onVol (bitmapFree s.inode.indirectBlock)))
        Prog.silent (modifyInode fun ino => { ino with indirectBlock := 0 })
        Prog.throw e
      else Prog.throw e

def ensureIndirect (idx dataBlock : UInt32) : TrackedFileM Unit := do
  let s ← Prog.silent Prog.get
  let ibuf ← (if s.inode.indirectBlock = 0 then do
      match ← Prog.attempt (Prog.silent (Owfs.onVol Owfs.allocAndZero)) with
      | .error e => do
          let _ ← Prog.attempt (ε := OwfsErr) (Prog.silent (Owfs.onVol (bitmapFree dataBlock)))
          Prog.throw e
      | .ok ind => do
          Prog.silent (modifyInode fun ino => { ino with indirectBlock := ind })
          pure (Bytes.zero 4096)
    else do
      match ← Prog.attempt (ε := OwfsErr) (Prog.silent (Owfs.onVol (readBlk s.inode.indirectBlock))) with
      | .error _ => do
          let _ ← Prog.attempt (ε := OwfsErr) (Prog.silent (Owfs.onVol (bitmapFree dataBlock)))
          Prog.throw .io
      | .ok buf => pure buf : TrackedFileM Block)
  storePointer (idx - 10) dataBlock ibuf

def blockmapEnsure (idx : UInt32) : TrackedFileM UInt32 := do
  let s ← Prog.silent Prog.get
  Prog.failIf (idx ≥ 1034) .noFreeBlocks
  Prog.ofExcept (volumeWritable s.vol.sb)
  if idx < s.inode.blockCount then onVol (blockmapGet s.inode idx)
  else do
    Prog.failIf (idx ≠ s.inode.blockCount) .invalidParam
    let dataBlock ← onVol allocAndZero
    (if idx < 10 then
      Prog.silent (modifyInode fun ino =>
        { ino with directBlocks := ino.directBlocks.setIfInBounds idx.toNat dataBlock })
    else ensureIndirect idx dataBlock : TrackedFileM Unit)
    Prog.silent (modifyInode fun ino => { ino with blockCount := ino.blockCount + 1 })
    pure dataBlock

def releaseTarget (ino : Inode) (idx : UInt32) (ibuf : Option Block) : TrackedFileM (UInt32 × Option Block) :=
  if idx < 10 then pure (ino.directBlocks[idx.toNat]?.getD 0, ibuf)
  else if ino.indirectBlock ≠ 0 then do
    let buf ← (match ibuf with
      | some buf => pure buf
      | none => Prog.silent (Owfs.onVol (readBlk ino.indirectBlock)) : TrackedFileM Block)
    Prog.note (.pointer (idx - 10))
    pure (ptrLoad buf (idx - 10).toNat, some buf)
  else pure (0, ibuf)

def blockmapRelease (fromIdx : UInt32) : TrackedFileM Unit := do
  let s ← Prog.silent Prog.get
  Prog.ofExcept (volumeWritable s.vol.sb)
  if fromIdx ≥ s.inode.blockCount then pure ()
  else do
    let ino := s.inode
    let _ ← Prog.loop (γ := Empty) (ino.blockCount - fromIdx).toNat (none : Option Block) fun i ibuf => do
      let (b, ibuf) ← releaseTarget ino (fromIdx + UInt32.ofNat i) ibuf
      Prog.whenever (b ≠ 0) (Prog.silent (Owfs.onVol (bitmapFree b)))
      pure (.inl ibuf)
    Prog.silent do
      modifyInode fun ino => ino.cleared fromIdx
      Prog.whenever (¬ fromIdx > 10 ∧ ino.indirectBlock ≠ 0) do
        Owfs.onVol (bitmapFree ino.indirectBlock)
        modifyInode fun ino => { ino with indirectBlock := 0 }
      modifyInode fun ino => { ino with blockCount := fromIdx }

def ensureBlocks (lastBlock : UInt32) : TrackedFileM Unit := do
  let s ← Prog.silent Prog.get
  let _ ← Prog.loop (γ := Unit) (lastBlock.toNat + 1 - s.inode.blockCount.toNat) () fun _ _ => do
    let s ← Prog.silent Prog.get
    if s.inode.blockCount ≤ lastBlock then do
      let _ ← blockmapEnsure s.inode.blockCount
      pure (.inl ())
    else pure (.inr ())
  pure ()

def readLoop (sb : Superblock) (ino : Inode) (offset len : UInt32) : TrackedVolM (List UInt8) := do
  let r ← Prog.loop (γ := List UInt8) len.toNat ((0 : UInt32), ([] : List UInt8)) fun _ acc => do
    if acc.1 < len then do
      let pos := offset + acc.1
      let chunk := chunkLen pos (len - acc.1)
      let bnum ← blockmapGet ino (pos >>> 12)
      Prog.note (.data bnum)
      let buf ← Prog.silent (readBlk bnum)
      let plain := cryptoXform sb ino buf bnum
      pure (.inl (acc.1 + chunk, acc.2 ++ plain.slice (pos &&& 4095).toNat chunk.toNat))
    else pure (.inr acc.2)
  match r with
  | .inl acc => pure acc.2
  | .inr out => pure out

def fileRead (who : OwIdentity) (ino : Inode) (offset len : UInt32) : TrackedVolM (List UInt8) := do
  Prog.failIf (ino.entryType &&& entryFile = 0) .notFile
  Prog.ofExcept (inodeAccessCheck who ino accessRead)
  if offset ≥ ino.sizeBytes ∨ len = 0 then pure []
  else do
    let v ← Prog.silent Prog.get
    readLoop v.sb ino offset (if len > ino.sizeBytes - offset then ino.sizeBytes - offset else len)

def writeChunk (sb : Superblock) (ino : Inode) (pos chunk : UInt32) (bytes : List UInt8) : TrackedVolM Unit := do
  let off := pos &&& 4095
  let bnum ← blockmapGet ino (pos >>> 12)
  Prog.note (.data bnum)
  Prog.silent do
    let out ← (if off = 0 ∧ chunk = 4096 then
        pure (cryptoXform sb ino (Bytes.ofList 4096 bytes) bnum)
      else do
        let buf ← readBlk bnum
        pure (cryptoXform sb ino ((cryptoXform sb ino buf bnum).patch off.toNat bytes) bnum) : OwfsM Block)
    writeBlk bnum out

def writeLoop (sb : Superblock) (ino : Inode) (buf : List UInt8) (offset len : UInt32) :
    TrackedVolM (UInt32 × Option OwfsErr) := do
  let r ← Prog.loop (γ := UInt32 × Option OwfsErr) len.toNat (0 : UInt32) fun _ written => do
    if written < len then do
      let pos := offset + written
      let chunk := chunkLen pos (len - written)
      match ← Prog.attempt (writeChunk sb ino pos chunk ((buf.drop written.toNat).take chunk.toNat)) with
      | .ok _ => pure (.inl (written + chunk))
      | .error e => pure (.inr (written, some e))
    else pure (.inr (written, none))
  match r with
  | .inl written => pure (written, none)
  | .inr res => pure res

def fileWrite (who : OwIdentity) (n : UInt32) (buf : List UInt8) (offset len : UInt32) : TrackedFileM UInt32 := do
  let s ← Prog.silent Prog.get
  Prog.failIf (s.inode.entryType &&& entryFile = 0) .notFile
  if len = 0 then pure 0
  else do
    Prog.ofExcept (volumeWritable s.vol.sb)
    Prog.failIf (s.inode.securityFlags.toUInt32 &&& secReadonly ≠ 0) .writeProtected
    Prog.ofExcept (inodeAccessCheck who s.inode accessWrite)
    Prog.failIf (offset.toNat + len.toNat > 1034 * 4096) .bufferTooSmall
    Prog.failIf (n ≥ s.vol.sb.totalInodes) .notFound
    ensureBlocks ((offset + len - 1) >>> 12)
    let s ← Prog.silent Prog.get
    let (written, failure) ← onVol (writeLoop s.vol.sb s.inode buf offset len)
    Prog.silent (modifyInode fun ino =>
      if offset + written > ino.sizeBytes then { ino with sizeBytes := offset + written } else ino)
    Prog.silent (inodeWrite n)
    match failure with
    | some e => if written = 0 then Prog.throw e else pure written
    | none => pure written

def fileTruncate (who : OwIdentity) (n newSize : UInt32) : TrackedFileM Unit := do
  let s ← Prog.silent Prog.get
  Prog.failIf (s.inode.entryType &&& entryFile = 0) .notFile
  Prog.ofExcept (volumeWritable s.vol.sb)
  Prog.failIf (s.inode.securityFlags.toUInt32 &&& secReadonly ≠ 0) .writeProtected
  Prog.ofExcept (inodeAccessCheck who s.inode accessWrite)
  if newSize ≥ s.inode.sizeBytes then pure ()
  else do
    Prog.failIf (n ≥ s.vol.sb.totalInodes) .notFound
    Prog.whenever (blocksFor newSize < s.inode.blockCount) (blockmapRelease (blocksFor newSize))
    Prog.silent (modifyInode fun ino => { ino with sizeBytes := newSize })
    Prog.silent (inodeWrite n)

end Tracked

end OwStorage.Owfs
