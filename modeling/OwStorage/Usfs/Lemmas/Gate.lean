import OwStorage.Usfs.File
import OwStorage.Usfs.Format
import OwStorage.Lib.Words

/-!
# 閉じた書き込みの門

書く呼び出しはどれも、装置を触る前に `volumeWritable` を調べる。門が閉じていれば、そこで断られ、状態は何も変わらない。
-/

namespace OwStorage.Usfs

open Lib Prog

/-- 書き込みの許されないスーパーブロック。 -/
def Superblock.Shut (sb : Superblock) : Prop :=
  sb.stateFlags &&& stateLocked ≠ 0 ∨ sb.stateFlags &&& stateError ≠ 0 ∨ sb.securityFlags &&& secReadonly ≠ 0

/-- ボリュームを書き換える呼び出し。呼び出し側の持つ項目も引数とする。 -/
inductive MutateOp where
  | entryWrite (e : Entry) (idx : UInt32)
  | entryAlloc (who : OwIdentity) (entryType : UInt8) (name : Option (List UInt8)) (nameLen : Nat) (parent : UInt32)
  | entryFree (who : OwIdentity) (idx : UInt32)
  | blockAlloc (count : UInt32)
  | blockFree (first count : UInt32)
  | fileWrite (who : OwIdentity) (e : Entry) (idx : UInt32) (buf : List UInt8) (offset len : UInt32)
  | fileTruncate (who : OwIdentity) (e : Entry) (idx newSize : UInt32)
  | cryptoSetKey (key : List UInt8)

/-- 返る値は捨てる。 -/
def MutateOp.run : MutateOp → UsfsM Unit
  | entryWrite e idx => do let _ ← withEntry e (Usfs.entryWrite idx)
  | entryAlloc who entryType name nameLen parent => do let _ ← Usfs.entryAlloc who entryType name nameLen parent
  | entryFree who idx => Usfs.entryFree who idx
  | blockAlloc count => do let _ ← Usfs.blockAlloc count
  | blockFree first count => Usfs.blockFree first count
  | fileWrite who e idx buf offset len => do let _ ← withEntry e (Usfs.fileWrite who idx buf offset len)
  | fileTruncate who e idx newSize => do let _ ← withEntry e (Usfs.fileTruncate who idx newSize)
  | cryptoSetKey key => Usfs.cryptoSetKey key

section

variable {v : Vol} {s : EntryState}

theorem refused_of_shut {sb : Superblock} (h : sb.Shut) : ∀ a, volumeWritable sb ≠ .ok a := by
  intro a
  unfold volumeWritable
  split
  · exact fun he => by cases he
  · split
    · exact fun he => by cases he
    · rename_i hflags hread
      rw [and_or_ne_zero, not_or] at hflags
      rcases h with h | h | h
      · exact absurd h hflags.1
      · exact absurd h hflags.2
      · exact absurd h hread

theorem idle_withEntry {α : Type} {p : EntryM α} {e : Entry} (h : Idle p ⟨v, e⟩) : Idle (withEntry e p) v := by
  unfold Idle wp withEntry
  unfold Idle wp at h
  rcases hrun : p ⟨v, e⟩ with ⟨r, s'⟩
  rw [hrun] at h
  cases r with
  | ok a => exact congrArg EntryState.vol h
  | error err => exact congrArg EntryState.vol h

theorem idle_entryWrite (h : s.vol.sb.Shut) (idx : UInt32) : Idle (entryWrite idx) s :=
  .get_bind (.failIf_bind (.refused (refused_of_shut h)))

theorem idle_entryAlloc (h : v.sb.Shut) (who : OwIdentity) (entryType : UInt8) (name : Option (List UInt8))
    (nameLen : Nat) (parent : UInt32) : Idle (entryAlloc who entryType name nameLen parent) v :=
  .failIf_bind (.failIf_bind (.failIf_bind (.failIf_bind (.get_bind (.failIf_bind (.refused (refused_of_shut h)))))))

theorem idle_entryFree (h : v.sb.Shut) (who : OwIdentity) (idx : UInt32) : Idle (entryFree who idx) v :=
  .get_bind (.refused (refused_of_shut h))

theorem idle_blockAlloc (h : v.sb.Shut) (count : UInt32) : Idle (blockAlloc count) v :=
  .get_bind (.failIf_bind (.failIf_bind (.refused (refused_of_shut h))))

theorem idle_blockFree (h : v.sb.Shut) (first count : UInt32) : Idle (blockFree first count) v :=
  .get_bind (.ite (.pure ()) (.failIf_bind (.refused (refused_of_shut h))))

theorem idle_fileWrite (h : s.vol.sb.Shut) (who : OwIdentity) (idx : UInt32) (buf : List UInt8) (offset len : UInt32) :
    Idle (fileWrite who idx buf offset len) s :=
  .get_bind (.failIf_bind (.refused (refused_of_shut h)))

theorem idle_fileTruncate (h : s.vol.sb.Shut) (who : OwIdentity) (idx newSize : UInt32) :
    Idle (fileTruncate who idx newSize) s :=
  .get_bind (.failIf_bind (.refused (refused_of_shut h)))

theorem idle_cryptoSetKey (h : v.sb.Shut) (key : List UInt8) : Idle (cryptoSetKey key) v :=
  .failIf_bind (.get_bind (.refused (refused_of_shut h)))

theorem MutateOp.idle (op : MutateOp) (h : v.sb.Shut) : Idle op.run v := by
  have hdrop : ∀ {α : Type} {p : UsfsM α}, Idle p v → Idle (do let _ ← p) v := fun hp => .bind hp fun _ => .pure _
  cases op with
  | entryWrite e idx => exact hdrop (idle_withEntry (idle_entryWrite (s := ⟨v, e⟩) h idx))
  | entryAlloc who entryType name nameLen parent => exact hdrop (idle_entryAlloc h who entryType name nameLen parent)
  | entryFree who idx => exact idle_entryFree h who idx
  | blockAlloc count => exact hdrop (idle_blockAlloc h count)
  | blockFree first count => exact idle_blockFree h first count
  | fileWrite who e idx buf offset len =>
      exact hdrop (idle_withEntry (idle_fileWrite (s := ⟨v, e⟩) h who idx buf offset len))
  | fileTruncate who e idx newSize =>
      exact hdrop (idle_withEntry (idle_fileTruncate (s := ⟨v, e⟩) h who idx newSize))
  | cryptoSetKey key => exact idle_cryptoSetKey h key

end

end OwStorage.Usfs
