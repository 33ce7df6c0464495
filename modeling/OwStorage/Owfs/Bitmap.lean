import OwStorage.Owfs.Superblock
import OwStorage.Lib.Bits

/-!
# 割り当てビットマップ（`owfs_bitmap.c`）

データ領域の `rel` 番目のブロックは、ビットマップの第 `rel` ビットで表す。
-/

namespace OwStorage.Owfs

open Lib

def bitmapBoundsOk (sb : Superblock) (relBlock : UInt32) : Bool :=
  decide (relBlock ≤ sb.totalBlocks - 1 - sb.dataRegionStart)

def bitmapInit : OwfsM Unit := do
  let v ← Prog.get
  Prog.failIf (v.sb.bitmapStartBlock = 0 ∨ v.sb.bitmapBlockCount = 0) .invalidParam
  Prog.forUpto v.sb.bitmapBlockCount.toNat fun i => do
    let bnum := v.sb.bitmapStartBlock + UInt32.ofNat i
    Prog.failIf (bnum ≥ v.sb.dataRegionStart) .invalidParam
    writeBlk bnum (Bytes.zero 4096)

/-- 読み取りに失敗すると 0 を返す。 -/
def bitmapComputeFletcher64 : OwfsM UInt64 := do
  let v ← Prog.get
  let r ← Prog.loop (γ := Unit) v.sb.bitmapBlockCount.toNat ((0, 0) : UInt64 × UInt64) fun b s => do
    match ← Prog.attempt (readBlk (v.sb.bitmapStartBlock + UInt32.ofNat b)) with
    | .error (_ : OwfsErr) => pure (.inr ())
    | .ok buf => pure (.inl (fletcherWords buf.toList s).2)
  match r with
  | .inl s => pure (fletcherResult s)
  | .inr _ => pure 0

/-- ビットマップの `b` 番目のブロックの、第 `byteIdx` バイト第 `bit` ビットの通し番号。 -/
def relIndex (b byteIdx bit : Nat) : UInt32 :=
  (UInt32.ofNat b * 4096 + UInt32.ofNat byteIdx) * 8 + UInt32.ofNat bit

/-- 一ブロック分の空きの数。データ領域の終わりを越えると、そのバイトの残りを読み飛ばす。 -/
def countFreeIn (dataBlocks : UInt32) (b : Nat) (buf : Block) : Nat :=
  ((List.range 4096).map fun byteIdx =>
    ((List.range 8).takeWhile fun bit => ! decide (relIndex b byteIdx bit ≥ dataBlocks)).countP
      fun bit => ! buf.testBit byteIdx bit).sum

/-- 読み取りに失敗すると 0 を返す。 -/
def bitmapCountFree : OwfsM UInt32 := do
  let v ← Prog.get
  let dataBlocks := v.sb.totalBlocks - v.sb.dataRegionStart
  let r ← Prog.loop (γ := Unit) v.sb.bitmapBlockCount.toNat (0 : UInt32) fun b freeCount => do
    match ← Prog.attempt (readBlk (v.sb.bitmapStartBlock + UInt32.ofNat b)) with
    | .error (_ : OwfsErr) => pure (.inr ())
    | .ok buf => pure (.inl (freeCount + UInt32.ofNat (countFreeIn dataBlocks b buf)))
  match r with
  | .inl freeCount => pure freeCount
  | .inr _ => pure 0

/-- 最初に見つかる 0 のビットの、バイトの番号とその中の位置。 -/
def findClear (buf : Block) : Option (Nat × Nat) :=
  (List.range 4096).findSome? fun byteIdx =>
    if buf[byteIdx]?.getD 0 ≠ 0xFF then
      (List.range 8).findSome? fun bit =>
        if ! buf.testBit byteIdx bit then some (byteIdx, bit) else none
    else none

/-- 見つけた 0 のビットを立てる。データ領域の終わりを越えたビットは使わない。 -/
def takeBit (sb : Superblock) (b : Nat) (buf : Block) (byteIdx bit : Nat) : OwfsM UInt32 := do
  let rel := relIndex b byteIdx bit
  Prog.failIf (rel > sb.totalBlocks - 1 - sb.dataRegionStart) .noFreeBlocks
  writeBlk (sb.bitmapStartBlock + UInt32.ofNat b) (buf.setBit byteIdx bit true)
  modifySb fun sb => { sb with freeBlocks := sb.freeBlocks - 1 }
  pure (sb.dataRegionStart + rel)

def bitmapAlloc : OwfsM UInt32 := do
  let v ← Prog.get
  Prog.failIf (v.sb.freeBlocks = 0) .noFreeBlocks
  let r ← Prog.loop v.sb.bitmapBlockCount.toNat () fun b _ => do
    let buf ← readBlk (v.sb.bitmapStartBlock + UInt32.ofNat b)
    match findClear buf with
    | none => pure (.inl ())
    | some (byteIdx, bit) => do
        let block ← takeBit v.sb b buf byteIdx bit
        pure (.inr block)
  match r with
  | .inr block => pure block
  | .inl _ => Prog.throw .noFreeBlocks

def bitmapFree (block : UInt32) : OwfsM Unit := do
  let v ← Prog.get
  Prog.failIf (block < v.sb.dataRegionStart ∨ block ≥ v.sb.totalBlocks) .invalidParam
  let relBlock := block - v.sb.dataRegionStart
  let bitIndex := relBlock &&& 0x07
  let byteOffset := relBlock >>> 3
  let bitmapBlock := v.sb.bitmapStartBlock + (byteOffset >>> 12)
  Prog.failIf (! bitmapBoundsOk v.sb relBlock) .invalidParam
  let buf ← readBlk bitmapBlock
  let inBlock := byteOffset &&& 4095
  Prog.whenever (buf.testBit inBlock.toNat bitIndex.toNat) do
    writeBlk bitmapBlock (buf.setBit inBlock.toNat bitIndex.toNat false)
    modifySb fun sb => { sb with freeBlocks := sb.freeBlocks + 1 }

/-- 範囲の外と、読み取りの失敗は「使っていない」とする。 -/
def bitmapIsUsed (block : UInt32) : OwfsM Bool := do
  let v ← Prog.get
  if block < v.sb.dataRegionStart ∨ block ≥ v.sb.totalBlocks then pure false
  else do
    let relBlock := block - v.sb.dataRegionStart
    let bitIndex := relBlock &&& 0x07
    let byteOffset := relBlock >>> 3
    match ← Prog.attempt (readBlk (v.sb.bitmapStartBlock + (byteOffset >>> 12))) with
    | .error (_ : OwfsErr) => pure false
    | .ok buf => pure (buf.testBit (byteOffset &&& 4095).toNat bitIndex.toNat)

end OwStorage.Owfs
