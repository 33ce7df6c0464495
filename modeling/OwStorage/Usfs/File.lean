import OwStorage.Usfs.Entry
import OwStorage.Common.Crypto

/-!
# ファイルの読み書き（`usfs_file.c`）

ファイルのデータは一続きのブロックに置く。伸ばすときは、新しい並びを取って古い並びを写し、古い並びを返す。
-/

namespace OwStorage.Usfs

open Lib

def isEncrypted (sb : Superblock) (e : Entry) : Bool :=
  sb.securityFlags &&& secEncrypted != 0 && e.securityFlags.toUInt32 &&& secEncrypted != 0

def entryAccessCheck (who : OwIdentity) (e : Entry) (want : UInt8) : Except UsfsErr Unit :=
  if ! owSecAccess who e.permissions e.ownerUid e.ownerGid want then .error .accessDenied
  else .ok ()

/-- 暗号化と復号は同じ変換で、カウンタは物理ブロックの番号から始める。 -/
def cryptoXform (sb : Superblock) (e : Entry) (buf : Block) (absBlock : UInt32) : Block :=
  if isEncrypted sb e then
    Bytes.ofList 4096 (owChacha20Xor absBlock sb.keySlot1.toList sb.cryptoNonce.toList buf.toList)
  else buf

/-- `cryptoXform` が `ow_chacha20_block` へ渡させるカウンタの値。 -/
def cryptoCounters (sb : Superblock) (e : Entry) (buf : Block) (absBlock : UInt32) : List UInt32 :=
  if isEncrypted sb e then
    owChacha20Counters absBlock sb.keySlot1.toList sb.cryptoNonce.toList buf.toList
  else []

/-- 古い並びの第 `i` ブロックを、暗号を掛け直して新しい並びに写す。 -/
def copyBlock (sb : Superblock) (e : Entry) (oldFirst newFirst i : UInt32) : UsfsM Unit := do
  let buf ← readBlk (oldFirst + i)
  let plain := cryptoXform sb e buf (oldFirst + i)
  writeBlk (newFirst + i) (cryptoXform sb e plain (newFirst + i))

/-- `p` が失敗したら、並び `[first, first + count)` を返してから、同じ誤りで終わる。 -/
def orRelease (first count : UInt32) (p : UsfsM Unit) : UsfsM Unit := do
  match ← Prog.attempt p with
  | .ok _ => pure ()
  | .error err => do
      let _ ← Prog.attempt (ε := UsfsErr) (blockFree first count)
      Prog.throw err

/-- 並びを `needBlocks` ブロックまで伸ばす。新しいブロックの残りの内容は、前のままである。 -/
def growFile (idx needBlocks : UInt32) : EntryM Unit := do
  let s ← Prog.get
  if s.entry.blockCount ≥ needBlocks then pure ()
  else do
    let newFirst ← onVol (blockAlloc needBlocks)
    let s ← Prog.get
    let oldFirst := s.entry.firstBlock
    let oldCount := s.entry.blockCount
    Prog.forUpto oldCount.toNat fun i =>
      onVol (orRelease newFirst needBlocks
        (copyBlock s.vol.sb s.entry oldFirst newFirst (UInt32.ofNat i)))
    Prog.whenever (oldCount > 0) (onVol (orRelease newFirst needBlocks (blockFree oldFirst oldCount)))
    modifyEntry fun e => { e with firstBlock := newFirst, blockCount := needBlocks }
    entryWrite idx

/-- 一つのブロックに収まる長さ。 -/
def chunkLen (off rest : UInt32) : UInt32 :=
  let inBlk := off &&& 4095
  if rest > 4096 - inBlk then 4096 - inBlk else rest

/-- 読んだバイトの並びを返す。その長さが `*out_read` である。 -/
def fileRead (who : OwIdentity) (e : Entry) (offset len : UInt32) : UsfsM (List UInt8) := do
  Prog.failIf (e.entryType ≠ entryFile) .notFile
  Prog.ofExcept (entryAccessCheck who e accessRead)
  if e.blockCount = 0 ∨ offset ≥ e.sizeBytes then pure []
  else do
    let len := if len > e.sizeBytes - offset then e.sizeBytes - offset else len
    let v ← Prog.get
    let r ← Prog.loop (γ := List UInt8) len.toNat ((0 : UInt32), ([] : List UInt8)) fun _ acc => do
      if acc.1 < len then do
        let off := offset + acc.1
        let chunk := chunkLen off (len - acc.1)
        let blkAbs := e.firstBlock + (off >>> 12)
        let buf ← readBlk blkAbs
        let plain := cryptoXform v.sb e buf blkAbs
        pure (.inl (acc.1 + chunk, acc.2 ++ plain.slice (off &&& 4095).toNat chunk.toNat))
      else pure (.inr acc.2)
    match r with
    | .inl acc => pure acc.2
    | .inr out => pure out

/-- 一つのブロックに収まる分を、読んで直してから書き戻す。 -/
def writeChunk (sb : Superblock) (e : Entry) (off : UInt32) (bytes : List UInt8) : UsfsM Unit := do
  let blkAbs := e.firstBlock + (off >>> 12)
  let buf ← readBlk blkAbs
  let plain := cryptoXform sb e buf blkAbs
  writeBlk blkAbs (cryptoXform sb e (plain.patch (off &&& 4095).toNat bytes) blkAbs)

/-- 書き込みの繰り返し。位置は 32 ビットで回る。 -/
def writeLoop (sb : Superblock) (e : Entry) (buf : List UInt8) (offset len : UInt32) : UsfsM UInt32 := do
  let r ← Prog.loop (γ := UInt32) len.toNat (0 : UInt32) fun _ done => do
    if done < len then do
      let off := offset + done
      let chunk := chunkLen off (len - done)
      writeChunk sb e off ((buf.drop done.toNat).take chunk.toNat)
      pure (.inl (done + chunk))
    else pure (.inr done)
  match r with
  | .inl done => pure done
  | .inr done => pure done

/-- `size` バイトを置くのに要るブロックの数。 -/
def blocksFor (size : Nat) : UInt32 := UInt32.ofNat ((size + 4095) / 4096)

/-- `len` バイトを書き、書いたバイト数 `*out_written` を返す。 -/
def fileWrite (who : OwIdentity) (idx : UInt32) (buf : List UInt8) (offset len : UInt32) :
    EntryM UInt32 := do
  let s ← Prog.get
  Prog.failIf (s.entry.entryType ≠ entryFile) .notFile
  Prog.ofExcept (volumeWritable s.vol.sb)
  Prog.failIf (s.entry.securityFlags.toUInt32 &&& secReadonly ≠ 0) .writeProtected
  Prog.ofExcept (entryAccessCheck who s.entry accessWrite)
  if len = 0 then pure 0
  else do
    let fin := offset.toNat + len.toNat
    growFile idx (blocksFor fin)
    let s ← Prog.get
    let done ← onVol (writeLoop s.vol.sb s.entry buf offset len)
    modifyEntry fun e => { e with sizeBytes := UInt32.ofNat fin }
    entryWrite idx
    pure done

def fileTruncate (who : OwIdentity) (idx newSize : UInt32) : EntryM Unit := do
  let s ← Prog.get
  Prog.failIf (s.entry.entryType ≠ entryFile) .notFile
  Prog.ofExcept (volumeWritable s.vol.sb)
  Prog.failIf (s.entry.securityFlags.toUInt32 &&& secReadonly ≠ 0) .writeProtected
  Prog.ofExcept (entryAccessCheck who s.entry accessWrite)
  if newSize = s.entry.sizeBytes then pure ()
  else if newSize > s.entry.sizeBytes then do
    growFile idx (blocksFor newSize.toNat)
    modifyEntry fun e => { e with sizeBytes := newSize }
    entryWrite idx
  else do
    let newBlocks := if newSize = 0 then 0 else blocksFor newSize.toNat
    Prog.whenever (newBlocks < s.entry.blockCount) do
      onVol (blockFree (s.entry.firstBlock + newBlocks) (s.entry.blockCount - newBlocks))
      modifyEntry fun e => { e with blockCount := newBlocks }
    modifyEntry fun e => { e with sizeBytes := newSize }
    entryWrite idx

end OwStorage.Usfs
