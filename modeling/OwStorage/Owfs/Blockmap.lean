import OwStorage.Owfs.Bitmap
import OwStorage.Owfs.Inode

/-!
# ブロック表（`owfs_blockmap.c`）

inode は、直接の 10 個と、間接ブロックの中の 1024 個のポインタで、論理番号を物理ブロックに対応させる。
-/

namespace OwStorage.Owfs

open Lib

/-- 間接ブロックの `entry` 番目のポインタ。 -/
def ptrLoad (buf : Block) (entry : Nat) : UInt32 :=
  leWord (buf[entry * 4]?.getD 0) (buf[entry * 4 + 1]?.getD 0) (buf[entry * 4 + 2]?.getD 0)
    (buf[entry * 4 + 3]?.getD 0)

def ptrStore (buf : Block) (entry : Nat) (v : UInt32) : Block :=
  buf.patch (entry * 4)
    [(v &&& 0xFF).toUInt8, ((v >>> 8) &&& 0xFF).toUInt8, ((v >>> 16) &&& 0xFF).toUInt8,
      ((v >>> 24) &&& 0xFF).toUInt8]

def blockmapGet (ino : Inode) (idx : UInt32) : OwfsM UInt32 := do
  Prog.failIf (idx ≥ ino.blockCount) .invalidParam
  if h : idx.toNat < 10 then do
    Prog.failIf (ino.directBlocks[idx.toNat] = 0) .invalidParam
    pure ino.directBlocks[idx.toNat]
  else do
    Prog.failIf (ino.indirectBlock = 0) .invalidParam
    let buf ← readBlk ino.indirectBlock
    let b := ptrLoad buf (idx - 10).toNat
    Prog.failIf (b = 0) .invalidParam
    pure b

/-- 空きブロックを一つ取り、0 で埋める。埋められなければ、ビットを戻す。 -/
def allocAndZero : OwfsM UInt32 := do
  let b ← bitmapAlloc
  match ← Prog.attempt (zeroBlk b) with
  | .ok _ => pure b
  | .error e => do
      let _ ← Prog.attempt (ε := OwfsErr) (bitmapFree b)
      Prog.throw e

/-- 直接の範囲を越えた番号 `idx` のポインタを、間接ブロックに書く。 -/
def ensureIndirect (idx dataBlock : UInt32) : FileM Unit := do
  let s ← Prog.get
  let ibuf ← (if s.inode.indirectBlock = 0 then do
      match ← Prog.attempt (onVol allocAndZero) with
      | .error e => do
          let _ ← Prog.attempt (ε := OwfsErr) (onVol (bitmapFree dataBlock))
          Prog.throw e
      | .ok ind => do
          modifyInode fun ino => { ino with indirectBlock := ind }
          pure (Bytes.zero 4096)
    else do
      match ← Prog.attempt (ε := OwfsErr) (onVol (readBlk s.inode.indirectBlock)) with
      | .error _ => do
          let _ ← Prog.attempt (ε := OwfsErr) (onVol (bitmapFree dataBlock))
          Prog.throw .io
      | .ok buf => pure buf : FileM Block)
  let entry := idx - 10
  let s ← Prog.get
  match ← Prog.attempt (onVol (writeBlk s.inode.indirectBlock (ptrStore ibuf entry.toNat dataBlock))) with
  | .ok _ => pure ()
  | .error e => do
      let _ ← Prog.attempt (ε := OwfsErr) (onVol (bitmapFree dataBlock))
      if s.inode.blockCount = 10 ∧ entry = 0 then do
        -- いま作った間接ブロックはポインタを一つも持たないので、返す。
        let _ ← Prog.attempt (ε := OwfsErr) (onVol (bitmapFree s.inode.indirectBlock))
        modifyInode fun ino => { ino with indirectBlock := 0 }
        Prog.throw e
      else Prog.throw e

/-- 論理番号 `idx` の物理ブロックを用意する。途中を空けた割り当てはしない。 -/
def blockmapEnsure (idx : UInt32) : FileM UInt32 := do
  let s ← Prog.get
  Prog.failIf (idx ≥ 1034) .noFreeBlocks
  Prog.ofExcept (volumeWritable s.vol.sb)
  if idx < s.inode.blockCount then onVol (blockmapGet s.inode idx)
  else do
    Prog.failIf (idx ≠ s.inode.blockCount) .invalidParam
    let dataBlock ← onVol allocAndZero
    (if idx < 10 then
      modifyInode fun ino => { ino with directBlocks := ino.directBlocks.setIfInBounds idx.toNat dataBlock }
    else ensureIndirect idx dataBlock : FileM Unit)
    modifyInode fun ino => { ino with blockCount := ino.blockCount + 1 }
    pure dataBlock

/-- 解放する番号 `idx` の物理ブロックと、読み込んだ間接ブロック。対応がなければ 0。 -/
def releaseTarget (ino : Inode) (idx : UInt32) (ibuf : Option Block) : FileM (UInt32 × Option Block) :=
  if idx < 10 then pure (ino.directBlocks[idx.toNat]?.getD 0, ibuf)
  else if ino.indirectBlock ≠ 0 then do
    let buf ← (match ibuf with
      | some buf => pure buf
      | none => onVol (readBlk ino.indirectBlock) : FileM Block)
    pure (ptrLoad buf (idx - 10).toNat, some buf)
  else pure (0, ibuf)

/-- 番号 `fromIdx` からの直接のポインタを消した inode。 -/
def Inode.cleared (ino : Inode) (fromIdx : UInt32) : Inode :=
  { ino with
    directBlocks := Vector.ofFn fun k : Fin 10 =>
      if fromIdx.toNat ≤ k.val ∧ k.val < ino.blockCount.toNat then 0 else ino.directBlocks[k] }

/-- 論理番号 `[fromIdx, blockCount)` のブロックと、要らなくなった間接ブロックを解放する。 -/
def blockmapRelease (fromIdx : UInt32) : FileM Unit := do
  let s ← Prog.get
  Prog.ofExcept (volumeWritable s.vol.sb)
  if fromIdx ≥ s.inode.blockCount then pure ()
  else do
    let ino := s.inode
    let _ ← Prog.loop (γ := Empty) (ino.blockCount - fromIdx).toNat (none : Option Block) fun i ibuf => do
      let (b, ibuf) ← releaseTarget ino (fromIdx + UInt32.ofNat i) ibuf
      Prog.whenever (b ≠ 0) (onVol (bitmapFree b))
      pure (.inl ibuf)
    modifyInode fun ino => ino.cleared fromIdx
    Prog.whenever (¬ fromIdx > 10 ∧ ino.indirectBlock ≠ 0) do
      onVol (bitmapFree ino.indirectBlock)
      modifyInode fun ino => { ino with indirectBlock := 0 }
    modifyInode fun ino => { ino with blockCount := fromIdx }

end OwStorage.Owfs
