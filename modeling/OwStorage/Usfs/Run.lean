import OwStorage.Usfs.File
import OwStorage.Lib.Run

/-!
# 呼び出しの列
-/

namespace OwStorage.Usfs

open Lib

/-- 並びの操作。 -/
inductive RunOp where
  | alloc (count : UInt32)
  | free (first count : UInt32)

/-- 割り当ては、返した並びの先頭を結果に持つ。 -/
def RunOp.run : RunOp → UsfsM (Option UInt32)
  | alloc count => do
      let b ← blockAlloc count
      pure (some b)
  | free first count => do
      blockFree first count
      pure none

/-- 項目への操作。名前と書くデータは、渡す長さの分だけある。書き込みと切り詰めは、呼び出し側の持つ項目 `held` を渡す。 -/
inductive EntryOp where
  | alloc (who : OwIdentity) (entryType : UInt8) (name : Option (List UInt8)) (nameLen : Nat) (parent : UInt32)
      (hname : ∀ s, name = some s → nameLen ≤ s.length)
  | free (who : OwIdentity) (idx : UInt32)
  | write (who : OwIdentity) (idx : UInt32) (held : Entry) (buf : List UInt8) (offset len : UInt32)
      (hbuf : len.toNat ≤ buf.length)
  | truncate (who : OwIdentity) (idx : UInt32) (held : Entry) (size : UInt32)

def EntryOp.run : EntryOp → UsfsM Unit
  | alloc who entryType name nameLen parent _ => do
      let _ ← entryAlloc who entryType name nameLen parent
      pure ()
  | free who idx => entryFree who idx
  | write who idx held buf offset len _ => do
      let _ ← withEntry held (fileWrite who idx buf offset len)
      pure ()
  | truncate who idx held size => do
      let _ ← withEntry held (fileTruncate who idx size)
      pure ()

/-- 呼び出し側の持つ項目は、`usfs_entry_read` がいま返すものである。 -/
def EntryOp.FreshlyRead (v : Vol) : EntryOp → Prop
  | alloc .. => True
  | free .. => True
  | write _ idx held _ _ _ _ => (entryRead idx v).1 = .ok held
  | truncate _ idx held _ => (entryRead idx v).1 = .ok held

end OwStorage.Usfs
