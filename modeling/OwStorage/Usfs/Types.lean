import OwStorage.Common.Htl

/-!
# USFS の定数と状態コード（`usfs_types.h`）
-/

namespace OwStorage.Usfs

/-- `usfs_status_t` のうち `USFS_OK` でないもの。 -/
inductive UsfsErr where
  | invalidMagic
  | corruptSuperblock
  | checksumMismatch
  | noFreeBlocks
  | noFreeEntries
  | nameTooLong
  | notFound
  | alreadyExists
  | io
  | bufferTooSmall
  | volumeDirty
  | writeProtected
  | encrypted
  | keyInvalid
  | invalidParam
  | notCatalog
  | notFile
  | accessDenied
  deriving DecidableEq, Repr

def usfsMagic : UInt32 := 0x55534653

def nameMaxBytes : Nat := 128

/-- ビットマップの一ブロックが表すブロックの数。 -/
def bitsPerBlock : UInt32 := 32768

def entryFile : UInt8 := 0x01
def entryCatalog : UInt8 := 0x02
def entryDeleted : UInt8 := 0x80

def secEncrypted : UInt32 := 1
def secReadonly : UInt32 := 2
def secHidden : UInt32 := 4
def secSigned : UInt32 := 8

/-- 0644 -/
def modeDefaultFile : UInt16 := 0x1A4
/-- 0755 -/
def modeDefaultDir : UInt16 := 0x1ED

def stateDirty : UInt32 := 1
def stateError : UInt32 := 2
def stateLocked : UInt32 := 4

end OwStorage.Usfs
