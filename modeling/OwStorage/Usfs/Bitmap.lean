import OwStorage.Usfs.Superblock
import OwStorage.Lib.Bits

/-!
# 連続したブロックの割り当て（`usfs_bitmap.c`）
-/

namespace OwStorage.Usfs

open Lib

def dataBlockCount (sb : Superblock) : UInt32 := sb.totalBlocks - sb.dataRegionStart

def bitIsSet (buf : Block) (rel : UInt32) : Bool := buf.testBit (rel >>> 3).toNat (rel &&& 7).toNat

/-- `bit_set` -/
def bitStore (buf : Block) (rel : UInt32) (used : Bool) : Block :=
  buf.setBit (rel >>> 3).toNat (rel &&& 7).toNat used

def bitmapInit : UsfsM Unit := do
  let v ← Prog.get
  Prog.failIf (v.sb.bitmapStartBlock = 0 ∨ v.sb.bitmapBlockCount = 0) .invalidParam
  Prog.forUpto v.sb.bitmapBlockCount.toNat fun i => do
    let bnum := v.sb.bitmapStartBlock + UInt32.ofNat i
    Prog.failIf (bnum ≥ v.sb.dataRegionStart) .invalidParam
    writeBlk bnum (Bytes.zero 4096)

/-- 走査の途中で持つ、最後に読んだビットマップのブロック。 -/
abbrev Cached : Type := Option (UInt32 × Block)

/-- `rel` 番目のビットを含むブロック。前に読んだものと同じなら読み直さない。 -/
def fetchFor (rel : UInt32) (cached : Cached) : UsfsM (UInt32 × Block) := do
  let v ← Prog.get
  let blk := rel / bitsPerBlock
  match cached with
  | some (cur, buf) =>
      if blk = cur then pure (cur, buf)
      else do
        let buf ← readBlk (v.sb.bitmapStartBlock + blk)
        pure (blk, buf)
  | none => do
      let buf ← readBlk (v.sb.bitmapStartBlock + blk)
      pure (blk, buf)

/-- 長さ `count` の空きの並びを前から探し、その先頭を返す。 -/
def findRun (count : UInt32) : UsfsM UInt32 := do
  let v ← Prog.get
  let r ← Prog.loop (dataBlockCount v.sb).toNat ((0, 0, none) : UInt32 × UInt32 × Cached) fun i acc => do
    let rel := UInt32.ofNat i
    let (runStart, runLen, cached) := acc
    let (cur, buf) ← fetchFor rel cached
    if ! bitIsSet buf (rel % bitsPerBlock) then
      let runStart := if runLen = 0 then rel else runStart
      if runLen + 1 = count then pure (.inr runStart)
      else pure (.inl (runStart, runLen + 1, some (cur, buf)))
    else pure (.inl (runStart, 0, some (cur, buf)))
  match r with
  | .inr runStart => pure runStart
  | .inl _ => Prog.throw .noFreeBlocks

/-- 一つのブロックの中の `[first, last]` のビットを `used` にする。 -/
def fillBits (buf : Block) (first last : UInt32) (used : Bool) : Block :=
  (List.range (last.toNat + 1 - first.toNat)).foldl
    (fun buf i => bitStore buf (first + UInt32.ofNat i) used) buf

/-- データ領域の `relStart` 番目から `count` 個のビットを、ブロックごとに一度ずつ書く。 -/
def markRun (relStart count : UInt32) (used : Bool) : UsfsM Unit := do
  let v ← Prog.get
  let firstBlk := relStart / bitsPerBlock
  let lastBlk := (relStart + count - 1) / bitsPerBlock
  Prog.forUpto (lastBlk.toNat + 1 - firstBlk.toNat) fun i => do
    let blk := firstBlk + UInt32.ofNat i
    let bnum := v.sb.bitmapStartBlock + blk
    let buf ← readBlk bnum
    let first := if blk = firstBlk then relStart % bitsPerBlock else 0
    let last := if blk = lastBlk then (relStart + count - 1) % bitsPerBlock else bitsPerBlock - 1
    writeBlk bnum (fillBits buf first last used)

def blockAlloc (count : UInt32) : UsfsM UInt32 := do
  let v ← Prog.get
  Prog.failIf (count = 0 ∨ count > v.sb.freeBlocks) .noFreeBlocks
  Prog.failIf (v.sb.totalBlocks ≤ v.sb.dataRegionStart) .noFreeBlocks
  Prog.ofExcept (volumeWritable v.sb)
  let runStart ← findRun count
  markRun runStart count true
  modifySb fun sb => { sb with freeBlocks := sb.freeBlocks - count }
  pure (v.sb.dataRegionStart + runStart)

def blockFree (first count : UInt32) : UsfsM Unit := do
  let v ← Prog.get
  if count = 0 then pure ()
  else do
    Prog.failIf (first < v.sb.dataRegionStart ∨ first.toNat + count.toNat > v.sb.totalBlocks.toNat)
      .invalidParam
    Prog.ofExcept (volumeWritable v.sb)
    markRun (first - v.sb.dataRegionStart) count false
    modifySb fun sb => { sb with freeBlocks := sb.freeBlocks + count }

/-- 範囲の外と、読み取りの失敗は「使っていない」とする。 -/
def blockIsUsed (block : UInt32) : UsfsM Bool := do
  let v ← Prog.get
  if block < v.sb.dataRegionStart ∨ block ≥ v.sb.totalBlocks then pure false
  else do
    let rel := block - v.sb.dataRegionStart
    match ← Prog.attempt (readBlk (v.sb.bitmapStartBlock + rel / bitsPerBlock)) with
    | .error (_ : UsfsErr) => pure false
    | .ok buf => pure (bitIsSet buf (rel % bitsPerBlock))

/-- 読み取りに失敗すると 0 を返す。 -/
def bitmapComputeFletcher64 : UsfsM UInt64 := do
  let v ← Prog.get
  let r ← Prog.loop (γ := Unit) v.sb.bitmapBlockCount.toNat ((0, 0) : UInt64 × UInt64) fun b s => do
    match ← Prog.attempt (readBlk (v.sb.bitmapStartBlock + UInt32.ofNat b)) with
    | .error (_ : UsfsErr) => pure (.inr ())
    | .ok buf => pure (.inl (fletcherWords buf.toList s).2)
  match r with
  | .inl s => pure (fletcherResult s)
  | .inr _ => pure 0

/-- 読み取りに失敗すると 0 を返す。 -/
def bitmapCountFree : UsfsM UInt32 := do
  let v ← Prog.get
  if v.sb.totalBlocks ≤ v.sb.dataRegionStart then pure 0
  else do
    let r ← Prog.loop (γ := Unit) (dataBlockCount v.sb).toNat ((0, none) : UInt32 × Cached) fun i acc => do
      let rel := UInt32.ofNat i
      match ← Prog.attempt (fetchFor rel acc.2) with
      | .error (_ : UsfsErr) => pure (.inr ())
      | .ok (cur, buf) =>
          let freeCount := if ! bitIsSet buf (rel % bitsPerBlock) then acc.1 + 1 else acc.1
          pure (.inl (freeCount, some (cur, buf)))
    match r with
    | .inl acc => pure acc.1
    | .inr _ => pure 0

end OwStorage.Usfs
