import OwStorage.Owfs.Catalog
import OwStorage.Owfs.File
import OwStorage.Owfs.Format
import OwStorage.Lib.Run

/-!
# 呼び出しの列

ボリュームの利用者が行う呼び出しを、データの操作とマウントの操作に分けて並べる。ファイルの操作は、
その番号の inode を読み直してから行う。
-/

namespace OwStorage.Owfs

open Lib

/-- ファイルとカタログと inode の操作。`who` は操作を行う主体で、書き込みの緩衝域は `len` バイトを持つ。 -/
inductive DataOp where
  | inodeAlloc (who : OwIdentity) (entryType : UInt8) (name : Option (List UInt8)) (nameLen : Nat)
      (parent : UInt32)
  | inodeFree (who : OwIdentity) (n : UInt32)
  | inodeRead (n : UInt32)
  | catalogCreate (who : OwIdentity) (parent : UInt32) (name : Option (List UInt8)) (nameLen : Nat)
  | catalogMkdir (who : OwIdentity) (parent : UInt32) (name : Option (List UInt8)) (nameLen : Nat)
  | catalogInsert (who : OwIdentity) (catalog : UInt32) (name : Option (List UInt8)) (nameLen : Nat)
      (target : UInt32) (entryType : UInt8)
  | catalogRemove (who : OwIdentity) (catalog : UInt32) (name : Option (List UInt8)) (nameLen : Nat)
  | catalogLookup (who : OwIdentity) (catalog : UInt32) (name : Option (List UInt8)) (nameLen : Nat)
  | catalogList (who : OwIdentity) (catalog : UInt32) (maxEntries : UInt32)
  | fileRead (who : OwIdentity) (n : UInt32) (offset len : UInt32)
  | fileWrite (who : OwIdentity) (n : UInt32) (buf : List UInt8) (offset len : UInt32)
      (fits : len.toNat ≤ buf.length)
  | fileTruncate (who : OwIdentity) (n : UInt32) (newSize : UInt32)

/-- 結果の値を捨てる。 -/
def discard {α : Type} (p : OwfsM α) : OwfsM Unit := do
  let _ ← p
  pure ()

/-- 番号 `n` の inode を読み直してから、それを使う操作を行う。 -/
def withFresh {α : Type} (n : UInt32) (p : FileM α) : OwfsM Unit := do
  let ino ← inodeRead n
  discard (withInode ino p)

def DataOp.run : DataOp → OwfsM Unit
  | inodeAlloc who entryType name nameLen parent => discard (Owfs.inodeAlloc who entryType name nameLen parent)
  | inodeFree who n => Owfs.inodeFree who n
  | inodeRead n => discard (Owfs.inodeRead n)
  | catalogCreate who parent name nameLen => discard (Owfs.catalogCreate who parent name nameLen)
  | catalogMkdir who parent name nameLen => discard (Owfs.catalogMkdir who parent name nameLen)
  | catalogInsert who catalog name nameLen target entryType =>
      Owfs.catalogInsert who catalog name nameLen target entryType
  | catalogRemove who catalog name nameLen => Owfs.catalogRemove who catalog name nameLen
  | catalogLookup who catalog name nameLen => discard (Owfs.catalogLookup who catalog name nameLen)
  | catalogList who catalog maxEntries => discard (Owfs.catalogList who catalog maxEntries)
  | fileRead who n offset len => do
      let ino ← Owfs.inodeRead n
      discard (Owfs.fileRead who ino offset len)
  | fileWrite who n buf offset len _ => withFresh n (Owfs.fileWrite who n buf offset len)
  | fileTruncate who n newSize => withFresh n (Owfs.fileTruncate who n newSize)

/-- マウントから検査までの操作。 -/
inductive LifeOp where
  | mount
  | unmount
  | markDirty
  | markClean
  | syncChanges
  | consistencyCheck
  deriving DecidableEq

/-- 誤りの数を捨てた検査。 -/
def runCheck : OwfsM Unit := fun v =>
  match Owfs.consistencyCheck ⟨v, 0⟩ with
  | (r, s) => (r, s.vol)

def LifeOp.run : LifeOp → OwfsM Unit
  | mount => Owfs.mount
  | unmount => Owfs.unmount
  | markDirty => Owfs.markDirty
  | markClean => Owfs.markClean
  | syncChanges => Owfs.syncChanges
  | consistencyCheck => runCheck

/-- 壊れたスーパーブロックを調べる者の操作。`reread` は、スーパーブロックを装置から読み直す。 -/
inductive AuditOp where
  | check
  | reread
  | mount
  deriving DecidableEq

def AuditOp.run : AuditOp → OwfsM Unit
  | check => runCheck
  | reread => superblockRead
  | mount => Owfs.mount

/-- マウントしてからアンマウントするまでの操作。 -/
inductive SessionOp where
  | data (op : DataOp)
  | sync

def SessionOp.run : SessionOp → OwfsM Unit
  | data op => op.run
  | sync => Owfs.syncChanges

/-- 空きブロックの表への直接の操作。 -/
inductive BitmapOp where
  | alloc
  | free (block : UInt32)

def BitmapOp.run : BitmapOp → OwfsM (Option UInt32)
  | alloc => do
      let b ← bitmapAlloc
      pure (some b)
  | free block => do
      bitmapFree block
      pure none

end OwStorage.Owfs
