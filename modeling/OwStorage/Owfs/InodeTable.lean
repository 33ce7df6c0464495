import OwStorage.Owfs.Blockmap
import OwStorage.Common.String

/-!
# inode の割り当てと解放（`owfs_inode.c`）
-/

namespace OwStorage.Owfs

open Lib

/-- 名前の引数。`none` は空のポインタで、長さは別に渡す。 -/
def nameBytes (name : Option (List UInt8)) (nameLen : Nat) : List UInt8 := (name.getD []).take nameLen

/-- スロット `i` に作る新しい inode。 -/
def freshInode (who : OwIdentity) (sb : Superblock) (i : UInt32) (entryType : UInt8)
    (name : Option (List UInt8)) (nameLen : Nat) (parent : UInt32) : Inode :=
  { Inode.zero with
    inodeNumber := i
    entryType := entryType
    permissions := if entryType = entryCatalog then modeDefaultDir else modeDefaultFile
    ownerUid := who.uid.toUInt16
    ownerGid := who.gid.toUInt16
    securityFlags := if sb.securityFlags &&& secEncrypted ≠ 0 then secEncrypted.toUInt8 else 0
    parentInode := parent
    nameLength := UInt8.ofNat nameLen
    name := (Bytes.zero 128).patch 0 (nameBytes name nameLen) }

/-- 空いているか、消された印のあるスロット。 -/
def slotVacant (ino : Inode) : Bool := ino.entryType == 0 || ino.entryType &&& entryDeleted != 0

/-- `owfs_inode_read` の検査値の誤りは無視するので、記録を読むだけでよい。 -/
def inodeAlloc (who : OwIdentity) (entryType : UInt8) (name : Option (List UInt8)) (nameLen : Nat)
    (parent : UInt32) : OwfsM UInt32 := do
  Prog.failIf (entryType ≠ entryFile ∧ entryType ≠ entryCatalog) .invalidParam
  Prog.failIf (nameLen ≥ nameMaxBytes) .nameTooLong
  Prog.failIf (name.isSome ∧ nameLen > 0 ∧ ! owSutf8Validate (nameBytes name nameLen)) .invalidParam
  let v ← Prog.get
  Prog.ofExcept (volumeWritable v.sb)
  Prog.failIf (v.sb.freeInodes = 0) .noFreeInodes
  let r ← Prog.loop v.sb.totalInodes.toNat () fun i _ => do
    let slot := UInt32.ofNat i
    let temp ← inodeLoad slot
    if slotVacant temp then do
      let fresh := freshInode who v.sb slot entryType name nameLen parent
      let _ ← withInode { fresh with checksum := inodeComputeChecksum fresh } (inodeWrite slot)
      modifySb fun sb => { sb with freeInodes := sb.freeInodes - 1 }
      pure (.inr slot)
    else pure (.inl ())
  match r with
  | .inr slot => pure slot
  | .inl _ => Prog.throw .noFreeInodes

/-- 解放した inode に付ける印。 -/
def markDeleted (ino : Inode) : Inode :=
  { ino with entryType := ino.entryType ||| entryDeleted, sizeBytes := 0, blockCount := 0 }

def inodeFree (who : OwIdentity) (n : UInt32) : OwfsM Unit := do
  let v ← Prog.get
  Prog.ofExcept (volumeWritable v.sb)
  let temp ← inodeRead n
  Prog.failIf (temp.entryType = 0) .notFound
  if temp.entryType &&& entryDeleted ≠ 0 then pure ()
  else do
    Prog.failIf (temp.securityFlags.toUInt32 &&& secReadonly ≠ 0) .writeProtected
    Prog.ofExcept (inodeAccessCheck who temp accessWrite)
    let _ ← withInode temp do
      blockmapRelease 0
      modifyInode markDeleted
      inodeWrite n
    modifySb fun sb => { sb with freeInodes := sb.freeInodes + 1 }

end OwStorage.Owfs
