import OwStorage.Owfs.Superblock
import OwStorage.Common.Sec

/-!
# inode の記録と読み書き（`owfs_inode.c`）

割り当てと解放は、ブロック表を使うので `OwStorage.Owfs.InodeTable` に置く。
-/

namespace OwStorage.Owfs

open Lib

/-- `owfs_inode_t`。256 バイトに詰めて並ぶ。 -/
structure Inode where
  inodeNumber : UInt32
  entryType : UInt8
  nameLength : UInt8
  permissions : UInt16
  flags : UInt16
  sizeBytes : UInt32
  blockCount : UInt32
  createdTimestamp : UInt32
  modifiedTimestamp : UInt32
  parentInode : UInt32
  directBlocks : Vector UInt32 10
  indirectBlock : UInt32
  name : Bytes 128
  ownerUid : UInt16
  ownerGid : UInt16
  securityFlags : UInt8
  reserved : Bytes 45
  checksum : UInt32
  deriving DecidableEq

namespace Inode

/-- 検査値の欄より前の 0xFC バイト。 -/
abbrev Front : Type :=
  UInt32 × UInt8 × UInt8 × UInt16 × UInt16 × UInt32 × UInt32 × UInt32 × UInt32 × UInt32 ×
    Vector UInt32 10 × UInt32 × Bytes 128 × UInt16 × UInt16 × UInt8 × Bytes 45

def front : Codec Front :=
  .pair .u32 <| .pair .u8 <| .pair .u8 <| .pair .u16 <| .pair .u16 <| .pair .u32 <| .pair .u32 <|
  .pair .u32 <| .pair .u32 <| .pair .u32 <| .pair (.vec .u32 10) <| .pair .u32 <|
  .pair (.raw 128) <| .pair .u16 <| .pair .u16 <| .pair .u8 (.raw 45)

def fields : Inode ≃ Front × UInt32 where
  toFun i :=
    ((i.inodeNumber, i.entryType, i.nameLength, i.permissions, i.flags, i.sizeBytes, i.blockCount,
      i.createdTimestamp, i.modifiedTimestamp, i.parentInode, i.directBlocks, i.indirectBlock, i.name,
      i.ownerUid, i.ownerGid, i.securityFlags, i.reserved), i.checksum)
  invFun := fun ((a, b, c, d, e, f, g, h, i, j, k, l, m, n, o, p, q), x) =>
    ⟨a, b, c, d, e, f, g, h, i, j, k, l, m, n, o, p, q, x⟩
  left_inv _ := rfl
  right_inv _ := rfl

def codec : Codec Inode := .iso fields (.pair front .u32)

/-- `memset(&inode, 0, sizeof inode)` の結果。 -/
def zero : Inode :=
  ⟨0, 0, 0, 0, 0, 0, 0, 0, 0, 0, Vector.replicate 10 0, 0, Bytes.zero 128, 0, 0, 0, Bytes.zero 45, 0⟩

end Inode

def inodeIsHidden (ino : Inode) : Bool := ino.securityFlags.toUInt32 &&& secHidden != 0

def inodeAccessCheck (who : OwIdentity) (ino : Inode) (want : UInt8) : Except OwfsErr Unit :=
  if ! owSecAccess who ino.permissions ino.ownerUid ino.ownerGid want then .error .accessDenied
  else .ok ()

def inodeComputeChecksum (ino : Inode) : UInt32 := owCrc32cStruct (Inode.codec.enc ino) 0xFC

def inodeVerifyChecksum (ino : Inode) : Bool := ino.checksum == inodeComputeChecksum ino

def inodeBlockOffset (sb : Superblock) (n : UInt32) : UInt32 := sb.inodeTableStart + (n >>> 4)

def inodeEntryIndex (n : UInt32) : UInt32 := n &&& 0x0F

/-- 表のブロック `blk` の中の、inode `n` の記録。 -/
@[irreducible] def inodeIn (blk : Block) (n : UInt32) : Inode :=
  Inode.codec.dec (blk.slice ((inodeEntryIndex n).toNat * 256) 256)

/-- 記録を読む。`owfs_inode_read` のうち、検査値を確かめる前まで。 -/
def inodeLoad (n : UInt32) : OwfsM Inode := do
  let v ← Prog.get
  Prog.failIf (n ≥ v.sb.totalInodes) .notFound
  let blk ← readBlk (inodeBlockOffset v.sb n)
  pure (inodeIn blk n)

def inodeRead (n : UInt32) : OwfsM Inode := do
  let ino ← inodeLoad n
  Prog.failIf (ino.entryType ≠ 0 ∧ ! inodeVerifyChecksum ino) .checksumMismatch
  pure ino

/-- ボリュームと、呼び出し側の持つ inode。関数が書き換えた inode は、誤りを返すときも残る。 -/
structure FileState where
  vol : Vol
  inode : Inode

def FileState.volLens : Lens FileState Vol where
  get s := s.vol
  set v s := { s with vol := v }
  get_set _ _ := rfl
  set_get _ := rfl
  set_set _ _ _ := rfl

abbrev FileM (α : Type) : Type := Prog FileState OwfsErr α

def onVol {α : Type} (p : OwfsM α) : FileM α := Prog.within FileState.volLens id p

def modifyInode (f : Inode → Inode) : FileM Unit := Prog.modify fun s => { s with inode := f s.inode }

/-- 局所変数の inode `ino` で `p` を行い、結果と書き換えた inode を返す。 -/
def withInode {α : Type} (ino : Inode) (p : FileM α) : OwfsM (α × Inode) := fun v =>
  match p ⟨v, ino⟩ with
  | (.ok a, s) => (.ok (a, s.inode), s.vol)
  | (.error e, s) => (.error e, s.vol)

def inodeWrite (n : UInt32) : FileM Unit := do
  let s ← Prog.get
  Prog.failIf (n ≥ s.vol.sb.totalInodes) .notFound
  Prog.ofExcept (volumeWritable s.vol.sb)
  let blockNum := inodeBlockOffset s.vol.sb n
  let blk ← onVol (readBlk blockNum)
  modifyInode fun ino => { ino with checksum := inodeComputeChecksum ino }
  let s ← Prog.get
  onVol (writeBlk blockNum (blk.patch ((inodeEntryIndex n).toNat * 256) (Inode.codec.enc s.inode)))

end OwStorage.Owfs
