import OwStorage.Owfs.Blockmap
import OwStorage.Common.Crypto

/-!
# ファイルの読み書き（`owfs_file.c`）
-/

namespace OwStorage.Owfs

open Lib

def isEncrypted (sb : Superblock) (ino : Inode) : Bool :=
  sb.securityFlags &&& secEncrypted != 0 && ino.securityFlags.toUInt32 &&& secEncrypted != 0

/-- 暗号化と復号は同じ変換で、カウンタは物理ブロックの番号から始める。 -/
def cryptoXform (sb : Superblock) (ino : Inode) (buf : Block) (blockNum : UInt32) : Block :=
  if isEncrypted sb ino then
    Bytes.ofList 4096 (owChacha20Xor blockNum sb.keySlot1.toList sb.cryptoNonce.toList buf.toList)
  else buf

/-- `cryptoXform` が `ow_chacha20_block` へ渡させるカウンタの値。 -/
def cryptoCounters (sb : Superblock) (ino : Inode) (buf : Block) (blockNum : UInt32) : List UInt32 :=
  if isEncrypted sb ino then
    owChacha20Counters blockNum sb.keySlot1.toList sb.cryptoNonce.toList buf.toList
  else []

/-- 最後の番号 `lastBlock` までのブロックを用意する。一回ごとに `blockCount` が 1 増える。 -/
def ensureBlocks (lastBlock : UInt32) : FileM Unit := do
  let s ← Prog.get
  let _ ← Prog.loop (γ := Unit) (lastBlock.toNat + 1 - s.inode.blockCount.toNat) () fun _ _ => do
    let s ← Prog.get
    if s.inode.blockCount ≤ lastBlock then do
      let _ ← blockmapEnsure s.inode.blockCount
      pure (.inl ())
    else pure (.inr ())
  pure ()

/-- 位置 `pos` から、残り `rest` バイトのうち一つのブロックに収まる長さ。 -/
def chunkLen (pos rest : UInt32) : UInt32 :=
  let off := pos &&& 4095
  if rest > 4096 - off then 4096 - off else rest

/-- 読み取りの繰り返し。 -/
def readLoop (sb : Superblock) (ino : Inode) (offset len : UInt32) : OwfsM (List UInt8) := do
  let r ← Prog.loop (γ := List UInt8) len.toNat ((0 : UInt32), ([] : List UInt8)) fun _ acc => do
    if acc.1 < len then do
      let pos := offset + acc.1
      let chunk := chunkLen pos (len - acc.1)
      let bnum ← blockmapGet ino (pos >>> 12)
      let buf ← readBlk bnum
      let plain := cryptoXform sb ino buf bnum
      pure (.inl (acc.1 + chunk, acc.2 ++ plain.slice (pos &&& 4095).toNat chunk.toNat))
    else pure (.inr acc.2)
  match r with
  | .inl acc => pure acc.2
  | .inr out => pure out

/-- 読んだバイトの並びを返す。その長さが `*out_read` である。 -/
def fileRead (who : OwIdentity) (ino : Inode) (offset len : UInt32) : OwfsM (List UInt8) := do
  Prog.failIf (ino.entryType &&& entryFile = 0) .notFile
  Prog.ofExcept (inodeAccessCheck who ino accessRead)
  if offset ≥ ino.sizeBytes ∨ len = 0 then pure []
  else do
    let v ← Prog.get
    readLoop v.sb ino offset (if len > ino.sizeBytes - offset then ino.sizeBytes - offset else len)

/-- 一つのブロックに収まる分を書く。ブロック全体を書くときは、前の内容を読まない。 -/
def writeChunk (sb : Superblock) (ino : Inode) (pos chunk : UInt32) (bytes : List UInt8) :
    OwfsM Unit := do
  let off := pos &&& 4095
  let bnum ← blockmapGet ino (pos >>> 12)
  let out ← (if off = 0 ∧ chunk = 4096 then
      pure (cryptoXform sb ino (Bytes.ofList 4096 bytes) bnum)
    else do
      let buf ← readBlk bnum
      pure (cryptoXform sb ino ((cryptoXform sb ino buf bnum).patch off.toNat bytes) bnum) : OwfsM Block)
  writeBlk bnum out

/-- 書き込みの繰り返し。書いたバイト数と、途中で止まったときの誤りを返す。 -/
def writeLoop (sb : Superblock) (ino : Inode) (buf : List UInt8) (offset len : UInt32) :
    OwfsM (UInt32 × Option OwfsErr) := do
  let r ← Prog.loop (γ := UInt32 × Option OwfsErr) len.toNat (0 : UInt32) fun _ written => do
    if written < len then do
      let pos := offset + written
      let chunk := chunkLen pos (len - written)
      match ← Prog.attempt (writeChunk sb ino pos chunk ((buf.drop written.toNat).take chunk.toNat)) with
      | .ok _ => pure (.inl (written + chunk))
      | .error e => pure (.inr (written, some e))
    else pure (.inr (written, none))
  match r with
  | .inl written => pure (written, none)
  | .inr res => pure res

/-- `len` バイトを書き、書いたバイト数 `*out_written` を返す。 -/
def fileWrite (who : OwIdentity) (n : UInt32) (buf : List UInt8) (offset len : UInt32) :
    FileM UInt32 := do
  let s ← Prog.get
  Prog.failIf (s.inode.entryType &&& entryFile = 0) .notFile
  if len = 0 then pure 0
  else do
    Prog.ofExcept (volumeWritable s.vol.sb)
    Prog.failIf (s.inode.securityFlags.toUInt32 &&& secReadonly ≠ 0) .writeProtected
    Prog.ofExcept (inodeAccessCheck who s.inode accessWrite)
    Prog.failIf (offset.toNat + len.toNat > 1034 * 4096) .bufferTooSmall
    Prog.failIf (n ≥ s.vol.sb.totalInodes) .notFound
    ensureBlocks ((offset + len - 1) >>> 12)
    let s ← Prog.get
    let (written, failure) ← onVol (writeLoop s.vol.sb s.inode buf offset len)
    modifyInode fun ino =>
      if offset + written > ino.sizeBytes then { ino with sizeBytes := offset + written } else ino
    inodeWrite n
    match failure with
    | some e => if written = 0 then Prog.throw e else pure written
    | none => pure written

/-- 切り詰めた大きさに要るブロックの数。 -/
def blocksFor (size : UInt32) : UInt32 :=
  if size &&& 4095 ≠ 0 then (size >>> 12) + 1 else size >>> 12

def fileTruncate (who : OwIdentity) (n newSize : UInt32) : FileM Unit := do
  let s ← Prog.get
  Prog.failIf (s.inode.entryType &&& entryFile = 0) .notFile
  Prog.ofExcept (volumeWritable s.vol.sb)
  Prog.failIf (s.inode.securityFlags.toUInt32 &&& secReadonly ≠ 0) .writeProtected
  Prog.ofExcept (inodeAccessCheck who s.inode accessWrite)
  if newSize ≥ s.inode.sizeBytes then pure ()
  else do
    Prog.failIf (n ≥ s.vol.sb.totalInodes) .notFound
    Prog.whenever (blocksFor newSize < s.inode.blockCount) (blockmapRelease (blocksFor newSize))
    modifyInode fun ino => { ino with sizeBytes := newSize }
    inodeWrite n

end OwStorage.Owfs
