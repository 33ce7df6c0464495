import OwStorage.Common.Htl

/-!
# OWFS の定数と状態コード（`owfs_types.h`）
-/

namespace OwStorage.Owfs

/-- `owfs_status_t` のうち `OWFS_OK` でないもの。 -/
inductive OwfsErr where
  | invalidMagic
  | corruptSuperblock
  | checksumMismatch
  | noFreeBlocks
  | noFreeInodes
  | nameTooLong
  | notFound
  | alreadyExists
  | notCatalog
  | notFile
  | io
  | bufferTooSmall
  | catalogFull
  | volumeDirty
  | writeProtected
  | invalidParam
  | accessDenied
  | keyInvalid
  deriving DecidableEq, Repr

def owfsMagic : UInt32 := 0x4F574653

/-- 先頭の 64 KiB（ブロック 0 から 15）はブートローダのために空けておく。 -/
def superblockBlock : UInt32 := 16

def nameMaxBytes : Nat := 128

def entryFile : UInt8 := 0x01
def entryCatalog : UInt8 := 0x02
def entryDeleted : UInt8 := 0x80

def secEncrypted : UInt32 := 1
def secReadonly : UInt32 := 2
def secHidden : UInt32 := 4

/-- 0644 -/
def modeDefaultFile : UInt16 := 0x1A4
/-- 0755 -/
def modeDefaultDir : UInt16 := 0x1ED

def stateDirty : UInt32 := 1
def stateError : UInt32 := 2
def stateLocked : UInt32 := 4

end OwStorage.Owfs
