import OwStorage.Owfs.Run
import OwStorage.Lib.Words

/-!
# 閉じた書き込みの門

書く呼び出しはどれも、装置を触る前に `volumeWritable` を調べる。門が閉じていれば、そこで断られ、状態は何も変わらない。
-/

namespace OwStorage.Owfs

open Lib Prog

/-- 書き込みの許されないスーパーブロック。 -/
def Superblock.Shut (sb : Superblock) : Prop :=
  sb.stateFlags &&& stateLocked ≠ 0 ∨ sb.stateFlags &&& stateError ≠ 0 ∨ sb.securityFlags &&& secReadonly ≠ 0

/-- ボリュームを書き換える呼び出し。呼び出し側の持つ inode も引数とする。 -/
inductive MutateOp where
  | inodeWrite (ino : Inode) (n : UInt32)
  | inodeAlloc (who : OwIdentity) (entryType : UInt8) (name : Option (List UInt8)) (nameLen : Nat) (parent : UInt32)
  | inodeFree (who : OwIdentity) (n : UInt32)
  | blockmapEnsure (ino : Inode) (idx : UInt32)
  | blockmapRelease (ino : Inode) (fromIdx : UInt32)
  | catalogInsert (who : OwIdentity) (catalog : UInt32) (name : Option (List UInt8)) (nameLen : Nat)
      (target : UInt32) (entryType : UInt8)
  | catalogRemove (who : OwIdentity) (catalog : UInt32) (name : Option (List UInt8)) (nameLen : Nat)
  | catalogCreate (who : OwIdentity) (parent : UInt32) (name : Option (List UInt8)) (nameLen : Nat)
  | catalogMkdir (who : OwIdentity) (parent : UInt32) (name : Option (List UInt8)) (nameLen : Nat)
  | fileWrite (who : OwIdentity) (ino : Inode) (n : UInt32) (buf : List UInt8) (offset len : UInt32)
  | fileTruncate (who : OwIdentity) (ino : Inode) (n newSize : UInt32)
  | cryptoSetKey (key : List UInt8)

/-- 返る値は捨てる。 -/
def MutateOp.run : MutateOp → OwfsM Unit
  | inodeWrite ino n => do let _ ← withInode ino (Owfs.inodeWrite n)
  | inodeAlloc who entryType name nameLen parent => do let _ ← Owfs.inodeAlloc who entryType name nameLen parent
  | inodeFree who n => Owfs.inodeFree who n
  | blockmapEnsure ino idx => do let _ ← withInode ino (Owfs.blockmapEnsure idx)
  | blockmapRelease ino fromIdx => do let _ ← withInode ino (Owfs.blockmapRelease fromIdx)
  | catalogInsert who catalog name nameLen target entryType =>
      Owfs.catalogInsert who catalog name nameLen target entryType
  | catalogRemove who catalog name nameLen => Owfs.catalogRemove who catalog name nameLen
  | catalogCreate who parent name nameLen => do let _ ← Owfs.catalogCreate who parent name nameLen
  | catalogMkdir who parent name nameLen => do let _ ← Owfs.catalogMkdir who parent name nameLen
  | fileWrite who ino n buf offset len => do let _ ← withInode ino (Owfs.fileWrite who n buf offset len)
  | fileTruncate who ino n newSize => do let _ ← withInode ino (Owfs.fileTruncate who n newSize)
  | cryptoSetKey key => Owfs.cryptoSetKey key

section

variable {v : Vol} {s : FileState}

theorem refused_of_shut {sb : Superblock} (h : sb.Shut) : ∀ a, volumeWritable sb ≠ .ok a := by
  intro a
  unfold volumeWritable
  split
  · exact fun he => by cases he
  · split
    · exact fun he => by cases he
    · rename_i hflags hread
      rw [and_or_ne_zero, not_or] at hflags
      rcases h with h | h | h
      · exact absurd h hflags.1
      · exact absurd h hflags.2
      · exact absurd h hread

theorem idle_withInode {α : Type} {p : FileM α} {ino : Inode} (h : Idle p ⟨v, ino⟩) : Idle (withInode ino p) v := by
  unfold Idle wp withInode
  unfold Idle wp at h
  rcases hrun : p ⟨v, ino⟩ with ⟨r, s'⟩
  rw [hrun] at h
  cases r with
  | ok a => exact congrArg FileState.vol h
  | error e => exact congrArg FileState.vol h

theorem idle_inodeWrite (h : s.vol.sb.Shut) (n : UInt32) : Idle (inodeWrite n) s :=
  .get_bind (.failIf_bind (.refused (refused_of_shut h)))

theorem idle_inodeAlloc (h : v.sb.Shut) (who : OwIdentity) (entryType : UInt8) (name : Option (List UInt8))
    (nameLen : Nat) (parent : UInt32) : Idle (inodeAlloc who entryType name nameLen parent) v :=
  .failIf_bind (.failIf_bind (.failIf_bind (.get_bind (.refused (refused_of_shut h)))))

theorem idle_inodeFree (h : v.sb.Shut) (who : OwIdentity) (n : UInt32) : Idle (inodeFree who n) v :=
  .get_bind (.refused (refused_of_shut h))

theorem idle_blockmapEnsure (h : s.vol.sb.Shut) (idx : UInt32) : Idle (blockmapEnsure idx) s :=
  .get_bind (.failIf_bind (.refused (refused_of_shut h)))

theorem idle_blockmapRelease (h : s.vol.sb.Shut) (fromIdx : UInt32) : Idle (blockmapRelease fromIdx) s :=
  .get_bind (.refused (refused_of_shut h))

theorem idle_catalogInsert (h : v.sb.Shut) (who : OwIdentity) (catalog : UInt32) (name : Option (List UInt8))
    (nameLen : Nat) (target : UInt32) (entryType : UInt8) :
    Idle (catalogInsert who catalog name nameLen target entryType) v :=
  .failIf_bind (.failIf_bind (.failIf_bind (.failIf_bind (.get_bind (.refused (refused_of_shut h))))))

theorem idle_catalogRemove (h : v.sb.Shut) (who : OwIdentity) (catalog : UInt32) (name : Option (List UInt8))
    (nameLen : Nat) : Idle (catalogRemove who catalog name nameLen) v :=
  .failIf_bind (.failIf_bind (.get_bind (.refused (refused_of_shut h))))

theorem idle_catalogMake (h : v.sb.Shut) (who : OwIdentity) (entryType : UInt8) (parent : UInt32)
    (name : Option (List UInt8)) (nameLen : Nat) : Idle (catalogMake who entryType parent name nameLen) v := by
  refine .bind (idle_inodeAlloc h who entryType name nameLen parent) fun ino => ?_
  refine .bind (Idle.attempt (idle_catalogInsert h who parent name nameLen ino entryType)) fun r => ?_
  cases r with
  | ok _ => exact .pure ino
  | error e => exact .bind (Idle.attempt (idle_inodeFree h who ino)) fun _ => .throw e

theorem idle_fileWrite (h : s.vol.sb.Shut) (who : OwIdentity) (n : UInt32) (buf : List UInt8) (offset len : UInt32) :
    Idle (fileWrite who n buf offset len) s :=
  .get_bind (.failIf_bind (.ite (.pure 0) (.refused (refused_of_shut h))))

theorem idle_fileTruncate (h : s.vol.sb.Shut) (who : OwIdentity) (n newSize : UInt32) :
    Idle (fileTruncate who n newSize) s :=
  .get_bind (.failIf_bind (.refused (refused_of_shut h)))

theorem idle_cryptoSetKey (h : v.sb.Shut) (key : List UInt8) : Idle (cryptoSetKey key) v :=
  .failIf_bind (.get_bind (.refused (refused_of_shut h)))

theorem MutateOp.idle (op : MutateOp) (h : v.sb.Shut) : Idle op.run v := by
  have hdrop : ∀ {α : Type} {p : OwfsM α}, Idle p v → Idle (do let _ ← p) v := fun hp => .bind hp fun _ => .pure _
  cases op with
  | inodeWrite ino n => exact hdrop (idle_withInode (idle_inodeWrite (s := ⟨v, ino⟩) h n))
  | inodeAlloc who entryType name nameLen parent => exact hdrop (idle_inodeAlloc h who entryType name nameLen parent)
  | inodeFree who n => exact idle_inodeFree h who n
  | blockmapEnsure ino idx => exact hdrop (idle_withInode (idle_blockmapEnsure (s := ⟨v, ino⟩) h idx))
  | blockmapRelease ino fromIdx => exact hdrop (idle_withInode (idle_blockmapRelease (s := ⟨v, ino⟩) h fromIdx))
  | catalogInsert who catalog name nameLen target entryType =>
      exact idle_catalogInsert h who catalog name nameLen target entryType
  | catalogRemove who catalog name nameLen => exact idle_catalogRemove h who catalog name nameLen
  | catalogCreate who parent name nameLen => exact hdrop (idle_catalogMake h who entryFile parent name nameLen)
  | catalogMkdir who parent name nameLen => exact hdrop (idle_catalogMake h who entryCatalog parent name nameLen)
  | fileWrite who ino n buf offset len =>
      exact hdrop (idle_withInode (idle_fileWrite (s := ⟨v, ino⟩) h who n buf offset len))
  | fileTruncate who ino n newSize => exact hdrop (idle_withInode (idle_fileTruncate (s := ⟨v, ino⟩) h who n newSize))
  | cryptoSetKey key => exact idle_cryptoSetKey h key

end

end OwStorage.Owfs
