import OwStorage.Usfs.Types
import OwStorage.Common.Checksum

/-!
# USFS のスーパーブロック（`usfs_superblock.c`）
-/

namespace OwStorage.Usfs

open Lib

/-- `usfs_superblock_t`。4096 バイトに詰めて並ぶ。 -/
structure Superblock where
  magic : UInt32
  versionMajor : UInt16
  versionMinor : UInt16
  blockSize : UInt32
  totalBlocks : UInt32
  freeBlocks : UInt32
  totalEntries : UInt32
  usedEntries : UInt32
  entryTableStart : UInt32
  entryTableBlocks : UInt32
  bitmapStartBlock : UInt32
  bitmapBlockCount : UInt32
  dataRegionStart : UInt32
  securityFlags : UInt32
  stateFlags : UInt32
  mountCount : UInt32
  signature : UInt32
  fletcher64Bitmap : UInt64
  volumeLabel : Bytes 64
  keySlot1 : Bytes 256
  keySlot2 : Bytes 256
  checksum : UInt32
  cryptoNonce : Bytes 12
  reserved : Bytes 3432
  deriving DecidableEq

namespace Superblock

/-- 検査値の欄より前の 0x288 バイト。 -/
abbrev Front : Type :=
  UInt32 × UInt16 × UInt16 × UInt32 × UInt32 × UInt32 × UInt32 × UInt32 × UInt32 × UInt32 ×
    UInt32 × UInt32 × UInt32 × UInt32 × UInt32 × UInt32 × UInt32 × UInt64 × Bytes 64 × Bytes 256 × Bytes 256

abbrev Back : Type := Bytes 12 × Bytes 3432

def front : Codec Front :=
  .pair .u32 <| .pair .u16 <| .pair .u16 <| .pair .u32 <| .pair .u32 <| .pair .u32 <|
  .pair .u32 <| .pair .u32 <| .pair .u32 <| .pair .u32 <| .pair .u32 <| .pair .u32 <|
  .pair .u32 <| .pair .u32 <| .pair .u32 <| .pair .u32 <| .pair .u32 <| .pair .u64 <|
  .pair (.raw 64) <| .pair (.raw 256) (.raw 256)

def back : Codec Back := .pair (.raw 12) (.raw 3432)

def fields : Superblock ≃ Front × UInt32 × Back where
  toFun sb :=
    ((sb.magic, sb.versionMajor, sb.versionMinor, sb.blockSize, sb.totalBlocks, sb.freeBlocks,
      sb.totalEntries, sb.usedEntries, sb.entryTableStart, sb.entryTableBlocks, sb.bitmapStartBlock,
      sb.bitmapBlockCount, sb.dataRegionStart, sb.securityFlags, sb.stateFlags, sb.mountCount,
      sb.signature, sb.fletcher64Bitmap, sb.volumeLabel, sb.keySlot1, sb.keySlot2), sb.checksum,
      (sb.cryptoNonce, sb.reserved))
  invFun := fun ((a, b, c, d, e, f, g, h, i, j, k, l, m, n, o, p, q, r, s, t, u), x, (v, w)) =>
    ⟨a, b, c, d, e, f, g, h, i, j, k, l, m, n, o, p, q, r, s, t, u, x, v, w⟩
  left_inv _ := rfl
  right_inv _ := rfl

def codec : Codec Superblock := .iso fields (.pair front (.pair .u32 back))

@[irreducible] def toBlock (sb : Superblock) : Block := Bytes.ofList 4096 (codec.enc sb)

@[irreducible] def ofBlock (blk : Block) : Superblock := codec.dec blk.toList

/-- `memset(&sb, 0, sizeof sb)` の結果。 -/
def zero : Superblock :=
  ⟨0, 0, 0, 0, 0, 0, 0, 0, 0, 0, 0, 0, 0, 0, 0, 0, 0, 0, Bytes.zero 64, Bytes.zero 256, Bytes.zero 256, 0,
    Bytes.zero 12, Bytes.zero 3432⟩

end Superblock

/-- 装置と、メモリ上のスーパーブロック。 -/
structure Vol where
  dev : HtlDevice
  sb : Superblock

def Vol.devLens : Lens Vol HtlDevice where
  get v := v.dev
  set d v := { v with dev := d }
  get_set _ _ := rfl
  set_get _ := rfl
  set_set _ _ _ := rfl

abbrev UsfsM (α : Type) : Type := Prog Vol UsfsErr α

/-- 書き込みの失敗を USFS の状態コードに直す。 -/
def mapHtl : HtlErr → UsfsErr
  | .writeProtect => .writeProtected
  | _ => .io

def readBlk (b : UInt32) : UsfsM Block := Prog.within Vol.devLens (fun _ => .io) (htlReadBlock b)

def writeBlk (b : UInt32) (buf : Block) : UsfsM Unit :=
  Prog.within Vol.devLens mapHtl (htlWriteBlock b buf)

def flushBlk : UsfsM Unit := Prog.within Vol.devLens (fun _ => .io) htlFlushCache

def modifySb (f : Superblock → Superblock) : UsfsM Unit := Prog.modify fun v => { v with sb := f v.sb }

def superblockComputeChecksum (sb : Superblock) : UInt32 :=
  owCrc32cStruct (Superblock.codec.enc sb) 0x288

def superblockValidate (sb : Superblock) : Bool :=
  sb.magic == usfsMagic && sb.blockSize == 0x1000 && sb.checksum == superblockComputeChecksum sb

/-- 読んだ内容は、検査に落ちてもメモリ上のスーパーブロックに残る。 -/
def superblockRead : UsfsM Unit := do
  let blk ← readBlk 0
  modifySb fun _ => Superblock.ofBlock blk
  let v ← Prog.get
  Prog.failIf (! superblockValidate v.sb) .corruptSuperblock

def superblockWrite : UsfsM Unit := do
  modifySb fun sb => { sb with checksum := superblockComputeChecksum sb }
  let v ← Prog.get
  writeBlk 0 v.sb.toBlock

/-- 項目の表の CRC32c。読み取りに失敗すると 0 を返す。 -/
def signatureCompute : UsfsM UInt32 := do
  let v ← Prog.get
  let r ← Prog.loop (γ := Unit) v.sb.entryTableBlocks.toNat (0 : UInt32) fun i crc => do
    match ← Prog.attempt (readBlk (v.sb.entryTableStart + UInt32.ofNat i)) with
    | .error (_ : UsfsErr) => pure (.inr ())
    | .ok buf => pure (.inl (owCrc32c crc buf.toList))
  match r with
  | .inl crc => pure crc
  | .inr _ => pure 0

def signatureUpdate : UsfsM Unit := do
  let sig ← signatureCompute
  modifySb fun sb => { sb with signature := sig }
  superblockWrite

/-- 書き込みの可否（`usfs_sync.c`）。 -/
def volumeWritable (sb : Superblock) : Except UsfsErr Unit :=
  if sb.stateFlags &&& (stateLocked ||| stateError) ≠ 0 then .error .volumeDirty
  else if sb.securityFlags &&& secReadonly ≠ 0 then .error .writeProtected
  else .ok ()

end OwStorage.Usfs
