import OwStorage.Owfs.Types
import OwStorage.Common.Checksum

/-!
# OWFS のスーパーブロック（`owfs_superblock.c`）
-/

namespace OwStorage.Owfs

open Lib

/-- `owfs_superblock_t`。4096 バイトに詰めて並ぶ。 -/
structure Superblock where
  magic : UInt32
  versionMajor : UInt16
  versionMinor : UInt16
  blockSize : UInt32
  totalBlocks : UInt32
  freeBlocks : UInt32
  totalInodes : UInt32
  freeInodes : UInt32
  bitmapStartBlock : UInt32
  bitmapBlockCount : UInt32
  inodeTableStart : UInt32
  inodeTableBlocks : UInt32
  dataRegionStart : UInt32
  rootInode : UInt32
  mountCount : UInt32
  stateFlags : UInt32
  fletcher64Bitmap : UInt64
  volumeLabel : Bytes 64
  checksum : UInt32
  securityFlags : UInt32
  keySlot1 : Bytes 256
  keySlot2 : Bytes 256
  cryptoNonce : Bytes 12
  reserved : Bytes 3432
  deriving DecidableEq

namespace Superblock

/-- 検査値の欄より前の 0x84 バイト。 -/
abbrev Front : Type :=
  UInt32 × UInt16 × UInt16 × UInt32 × UInt32 × UInt32 × UInt32 × UInt32 × UInt32 × UInt32 ×
    UInt32 × UInt32 × UInt32 × UInt32 × UInt32 × UInt32 × UInt64 × Bytes 64

/-- 検査値の欄より後。 -/
abbrev Back : Type := UInt32 × Bytes 256 × Bytes 256 × Bytes 12 × Bytes 3432

def front : Codec Front :=
  .pair .u32 <| .pair .u16 <| .pair .u16 <| .pair .u32 <| .pair .u32 <| .pair .u32 <|
  .pair .u32 <| .pair .u32 <| .pair .u32 <| .pair .u32 <| .pair .u32 <| .pair .u32 <|
  .pair .u32 <| .pair .u32 <| .pair .u32 <| .pair .u32 <| .pair .u64 (.raw 64)

def back : Codec Back :=
  .pair .u32 <| .pair (.raw 256) <| .pair (.raw 256) <| .pair (.raw 12) (.raw 3432)

def fields : Superblock ≃ Front × UInt32 × Back where
  toFun sb :=
    ((sb.magic, sb.versionMajor, sb.versionMinor, sb.blockSize, sb.totalBlocks, sb.freeBlocks,
      sb.totalInodes, sb.freeInodes, sb.bitmapStartBlock, sb.bitmapBlockCount, sb.inodeTableStart,
      sb.inodeTableBlocks, sb.dataRegionStart, sb.rootInode, sb.mountCount, sb.stateFlags,
      sb.fletcher64Bitmap, sb.volumeLabel), sb.checksum,
      (sb.securityFlags, sb.keySlot1, sb.keySlot2, sb.cryptoNonce, sb.reserved))
  invFun := fun ((a, b, c, d, e, f, g, h, i, j, k, l, m, n, o, p, q, r), x, (s, t, u, v, w)) =>
    ⟨a, b, c, d, e, f, g, h, i, j, k, l, m, n, o, p, q, r, x, s, t, u, v, w⟩
  left_inv _ := rfl
  right_inv _ := rfl

def codec : Codec Superblock := .iso fields (.pair front (.pair .u32 back))

@[irreducible] def toBlock (sb : Superblock) : Block := Bytes.ofList 4096 (codec.enc sb)

@[irreducible] def ofBlock (blk : Block) : Superblock := codec.dec blk.toList

/-- `memset(&sb, 0, sizeof sb)` の結果。 -/
def zero : Superblock :=
  ⟨0, 0, 0, 0, 0, 0, 0, 0, 0, 0, 0, 0, 0, 0, 0, 0, 0, Bytes.zero 64, 0, 0, Bytes.zero 256, Bytes.zero 256,
    Bytes.zero 12, Bytes.zero 3432⟩

end Superblock

/-- 装置と、メモリ上のスーパーブロック。 -/
structure Vol where
  dev : HtlDevice
  sb : Superblock

def Vol.devLens : Lens Vol HtlDevice where
  get v := v.dev
  set d v := { v with dev := d }
  get_set _ _ := rfl
  set_get _ := rfl
  set_set _ _ _ := rfl

abbrev OwfsM (α : Type) : Type := Prog Vol OwfsErr α

/-- 書き込みの失敗を OWFS の状態コードに直す（`map_htl`）。 -/
def mapHtl : HtlErr → OwfsErr
  | .writeProtect => .writeProtected
  | _ => .io

def readBlk (b : UInt32) : OwfsM Block := Prog.within Vol.devLens (fun _ => .io) (htlReadBlock b)

def writeBlk (b : UInt32) (buf : Block) : OwfsM Unit :=
  Prog.within Vol.devLens mapHtl (htlWriteBlock b buf)

def zeroBlk (b : UInt32) : OwfsM Unit := Prog.within Vol.devLens mapHtl (htlZeroBlock b)

def flushBlk : OwfsM Unit := Prog.within Vol.devLens (fun _ => .io) htlFlushCache

def modifySb (f : Superblock → Superblock) : OwfsM Unit := Prog.modify fun v => { v with sb := f v.sb }

def superblockComputeChecksum (sb : Superblock) : UInt32 :=
  owCrc32cStruct (Superblock.codec.enc sb) 0x84

def superblockValidate (sb : Superblock) : Bool :=
  sb.magic == owfsMagic && sb.blockSize == 0x1000 && sb.checksum == superblockComputeChecksum sb

/-- 読んだ内容は、検査に落ちてもメモリ上のスーパーブロックに残る。 -/
def superblockRead : OwfsM Unit := do
  let blk ← readBlk superblockBlock
  modifySb fun _ => Superblock.ofBlock blk
  let v ← Prog.get
  Prog.failIf (! superblockValidate v.sb) .corruptSuperblock

def superblockWrite : OwfsM Unit := do
  modifySb fun sb => { sb with checksum := superblockComputeChecksum sb }
  let v ← Prog.get
  writeBlk superblockBlock v.sb.toBlock

/-- 書き込みの可否（`owfs_sync.c`）。 -/
def volumeWritable (sb : Superblock) : Except OwfsErr Unit :=
  if sb.stateFlags &&& (stateLocked ||| stateError) ≠ 0 then .error .volumeDirty
  else if sb.securityFlags &&& secReadonly ≠ 0 then .error .writeProtected
  else .ok ()

end OwStorage.Owfs
