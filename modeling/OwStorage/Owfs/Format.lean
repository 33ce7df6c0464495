import OwStorage.Owfs.InodeTable
import OwStorage.Owfs.Sync

/-!
# フォーマットと鍵（`owfs_format.c`）
-/

namespace OwStorage.Owfs

open Lib

/-- 固定の部分（スーパーブロックまでの 17 と、inode の表の 256）。 -/
def fixedOverhead : UInt32 := 273

def layoutBitmapBlocks (totalBlocks : UInt32) : UInt32 := (totalBlocks - fixedOverhead + 32768) / 32769

/-- フォーマットが書くスーパーブロック。 -/
def freshSuperblock (totalBlocks : UInt32) (label : Option (List UInt8)) (nonce : Bytes 12) :
    Superblock :=
  let bitmapBlocks := layoutBitmapBlocks totalBlocks
  let inodeTableStart := 17 + bitmapBlocks
  let dataRegionStart := inodeTableStart + 256
  { Superblock.zero with
    magic := owfsMagic
    versionMajor := 1
    versionMinor := 2
    blockSize := 0x1000
    totalBlocks := totalBlocks
    bitmapStartBlock := 17
    bitmapBlockCount := bitmapBlocks
    inodeTableStart := inodeTableStart
    inodeTableBlocks := 256
    totalInodes := 0x1000
    freeInodes := 0x1000
    dataRegionStart := dataRegionStart
    freeBlocks := totalBlocks - dataRegionStart
    volumeLabel := match label with
      | some s => if s.length > 0 then (owSutf8NameCopy (Bytes.zero 64) s).1 else Bytes.zero 64
      | none => Bytes.zero 64
    cryptoNonce := nonce }

/-- 根のカタログ。 -/
def rootInode : Inode :=
  { Inode.zero with
    entryType := entryCatalog
    permissions := modeDefaultDir
    nameLength := 1
    name := (Bytes.zero 128).patch 0 [0x2F] }

/-- 根のカタログを作る。 -/
def formatRoot : OwfsM Unit := do
  let rootBlock ← bitmapAlloc
  let zeroed ← Prog.attempt (zeroBlk rootBlock)
  (match zeroed with
  | .error e => do
      let _ ← Prog.attempt (ε := OwfsErr) (bitmapFree rootBlock)
      Prog.throw e
  | .ok _ => pure () : OwfsM Unit)
  let root := { rootInode with
    directBlocks := rootInode.directBlocks.setIfInBounds 0 rootBlock, blockCount := 1 }
  let _ ← withInode root (inodeWrite 0)
  pure ()

/-- 表を 0 で埋め、根のカタログを作り、スーパーブロックを書く。 -/
def formatBody : OwfsM Unit := do
  bitmapInit
  let v ← Prog.get
  Prog.forUpto v.sb.inodeTableBlocks.toNat fun i =>
    writeBlk (v.sb.inodeTableStart + UInt32.ofNat i) (Bytes.zero 4096)
  formatRoot
  syncChanges

/-- 関数の中だけで使うスーパーブロック `sb` で `p` を行う。 -/
def withSuperblock {α : Type} (sb : Superblock) (p : OwfsM α) : Prog HtlDevice OwfsErr α := fun d =>
  match p ⟨d, sb⟩ with
  | (r, v) => (r, v.dev)

def formatVolume (totalBlocks : UInt32) (label : Option (List UInt8)) : Prog HtlDevice OwfsErr Unit := do
  let d ← Prog.get
  Prog.failIf (d.blockSize ≠ 0x1000) .invalidParam
  Prog.failIf (d.totalBlocks > 0 ∧ totalBlocks > d.totalBlocks) .invalidParam
  Prog.failIf (totalBlocks < 275) .invalidParam
  Prog.failIf (totalBlocks ≤ 17 + layoutBitmapBlocks totalBlocks + 256) .invalidParam
  let entropy ← Prog.attempt (ε := HtlErr) (htlGetEntropy 12)
  let nonce := match entropy with
    | .ok nonce => nonce
    | .error _ => Bytes.zero 12
  withSuperblock (freshSuperblock totalBlocks label nonce) formatBody

def quickFormat (totalBlocks : UInt32) (label : Option (List UInt8)) : Prog HtlDevice OwfsErr Unit :=
  formatVolume totalBlocks label

def fullScrub (totalBlocks : UInt32) (label : Option (List UInt8)) : Prog HtlDevice OwfsErr Unit := do
  let d ← Prog.get
  Prog.failIf (d.blockSize ≠ 0x1000) .invalidParam
  Prog.forUpto totalBlocks.toNat fun b => do
    match ← Prog.attempt (htlZeroBlock (UInt32.ofNat b)) with
    | .ok _ => pure ()
    | .error e => Prog.throw (mapHtl e)
  formatVolume totalBlocks label

def cryptoSetKey (key : List UInt8) : OwfsM Unit := do
  Prog.failIf (key.length ≠ 32) .keyInvalid
  let v ← Prog.get
  Prog.ofExcept (volumeWritable v.sb)
  modifySb fun sb =>
    { sb with
      keySlot1 := (Bytes.zero 256).patch 0 key
      securityFlags := sb.securityFlags ||| secEncrypted }
  superblockWrite
  let _ ← Prog.attempt (ε := OwfsErr) flushBlk
  pure ()

/-- 二つの鍵の欄を同じ値で上書きして、装置に送る。 -/
def purgePass (fill : UInt8) : OwfsM Unit := do
  modifySb fun sb =>
    { sb with keySlot1 := Vector.replicate 256 fill, keySlot2 := Vector.replicate 256 fill }
  superblockWrite
  let _ ← Prog.attempt (ε := OwfsErr) flushBlk
  pure ()

def cryptoPurge : OwfsM Unit := do
  purgePass 0xFF
  purgePass 0x00
  purgePass 0xAA
  modifySb fun sb => { sb with securityFlags := sb.securityFlags &&& ~~~ secEncrypted }
  syncChanges

end OwStorage.Owfs
