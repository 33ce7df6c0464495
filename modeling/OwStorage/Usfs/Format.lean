import OwStorage.Usfs.Sync

/-!
# フォーマットと鍵（`usfs_format.c`）
-/

namespace OwStorage.Usfs

open Lib

/-- データ領域の残りを表すのに要るビットマップのブロックの数。 -/
def bitmapBlocksNeeded (totalBlocks b : UInt32) : UInt32 := (totalBlocks - 17 - b + 32768 - 1) / 32768

/-- `for (;;)` の繰り返し。一回ごとに `b` が増える。`none` は置く場所がないことを表す。 -/
def layoutFrom (totalBlocks b : UInt32) : Option UInt32 :=
  if totalBlocks ≤ 17 + b then none
  else if b < bitmapBlocksNeeded totalBlocks b then layoutFrom totalBlocks (bitmapBlocksNeeded totalBlocks b)
  else some b
termination_by 2 ^ 32 - b.toNat
decreasing_by
  rename_i h
  have hlt := UInt32.lt_iff_toNat_lt.mp h
  have hmax := (bitmapBlocksNeeded totalBlocks b).toNat_lt
  omega

/-- ビットマップのブロックの数。データ領域はその次から始まる。 -/
def layoutBitmapBlocks (totalBlocks : UInt32) : Option UInt32 := layoutFrom totalBlocks 1

/-- フォーマットが書くスーパーブロック。 -/
def freshSuperblock (totalBlocks bitmapBlocks : UInt32) (label : Option (List UInt8)) (nonce : Bytes 12) :
    Superblock :=
  { Superblock.zero with
    magic := usfsMagic
    versionMajor := 1
    versionMinor := 2
    blockSize := 0x1000
    totalBlocks := totalBlocks
    entryTableStart := 1
    entryTableBlocks := 16
    totalEntries := 256
    bitmapStartBlock := 17
    bitmapBlockCount := bitmapBlocks
    dataRegionStart := 17 + bitmapBlocks
    freeBlocks := totalBlocks - (17 + bitmapBlocks)
    volumeLabel := match label with
      | some s => if s.length > 0 then (owSutf8NameCopy (Bytes.zero 64) s).1 else Bytes.zero 64
      | none => Bytes.zero 64
    cryptoNonce := nonce }

/-- 表を 0 で埋め、根の項目を作り、スーパーブロックを書く。 -/
def formatBody (who : OwIdentity) : UsfsM Unit := do
  let v ← Prog.get
  Prog.forUpto v.sb.entryTableBlocks.toNat fun i => do
    match ← Prog.attempt (writeBlk (v.sb.entryTableStart + UInt32.ofNat i) (Bytes.zero 4096)) with
    | .ok _ => pure ()
    | .error (_ : UsfsErr) => Prog.throw .io
  bitmapInit
  let _ ← entryAlloc who entryCatalog (some [0x2F]) 1 0
  modifySb fun sb => { sb with usedEntries := 1 }
  let sum ← bitmapComputeFletcher64
  modifySb fun sb => { sb with fletcher64Bitmap := sum }
  let sig ← signatureCompute
  modifySb fun sb => { sb with signature := sig }
  flushDirty

/-- メモリ上のスーパーブロックはフォーマットの中だけで使う。 -/
def formatVolume (who : OwIdentity) (totalBlocks : UInt32) (label : Option (List UInt8)) :
    Prog HtlDevice UsfsErr Unit := do
  Prog.failIf (totalBlocks < 19) .invalidParam
  match layoutBitmapBlocks totalBlocks with
  | none => Prog.throw .invalidParam
  | some bitmapBlocks => do
      let entropy ← Prog.attempt (ε := HtlErr) (htlGetEntropy 12)
      let nonce := match entropy with
        | .ok nonce => nonce
        | .error _ => Bytes.zero 12
      fun d => match formatBody who ⟨d, freshSuperblock totalBlocks bitmapBlocks label nonce⟩ with
        | (r, v) => (r, v.dev)

def quickFormat (who : OwIdentity) (totalBlocks : UInt32) (label : Option (List UInt8)) :
    Prog HtlDevice UsfsErr Unit := formatVolume who totalBlocks label

def fullScrub (who : OwIdentity) (totalBlocks : UInt32) (label : Option (List UInt8)) :
    Prog HtlDevice UsfsErr Unit := do
  Prog.failIf (totalBlocks < 19) .invalidParam
  Prog.forUpto totalBlocks.toNat fun b => do
    match ← Prog.attempt (htlZeroBlock (UInt32.ofNat b)) with
    | .ok _ => pure ()
    | .error e => Prog.throw (mapHtl e)
  formatVolume who totalBlocks label

def cryptoSetKey (key : List UInt8) : UsfsM Unit := do
  Prog.failIf (key.length ≠ 32) .keyInvalid
  let v ← Prog.get
  Prog.ofExcept (volumeWritable v.sb)
  modifySb fun sb =>
    { sb with
      keySlot1 := (Bytes.zero 256).patch 0 key
      securityFlags := sb.securityFlags ||| secEncrypted }
  superblockWrite
  let _ ← Prog.attempt (ε := UsfsErr) flushBlk
  pure ()

/-- 二つの鍵の欄を同じ値で上書きして、装置に送る。 -/
def purgePass (fill : UInt8) : UsfsM Unit := do
  modifySb fun sb =>
    { sb with keySlot1 := Vector.replicate 256 fill, keySlot2 := Vector.replicate 256 fill }
  superblockWrite
  let _ ← Prog.attempt (ε := UsfsErr) flushBlk
  pure ()

def cryptoPurge : UsfsM Unit := do
  purgePass 0xFF
  purgePass 0x00
  purgePass 0xAA
  modifySb fun sb => { sb with securityFlags := sb.securityFlags &&& ~~~ secEncrypted }
  flushDirty

end OwStorage.Usfs
