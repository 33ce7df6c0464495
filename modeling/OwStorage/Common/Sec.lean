import Mathlib.Tactic

/-!
# 主体と権限（`ow_sec.c`）

ソースの大域変数 `g_current` は、操作を行う主体 `who` として各関数に渡す。
-/

namespace OwStorage

/-- `ow_identity_t`。UID 0 は特権を持つ。 -/
structure OwIdentity where
  uid : UInt32
  gid : UInt32
  deriving DecidableEq, Repr

def accessRead : UInt8 := 1
def accessWrite : UInt8 := 2
def accessExec : UInt8 := 4

def owSecIsSuperuser (who : OwIdentity) : Bool := who.uid == 0

/-- 9 ビットの `mode` を主体に当てはめ、`want` のすべてが許されるかを返す。 -/
def owSecAccess (who : OwIdentity) (mode ownerUid ownerGid : UInt16) (want : UInt8) : Bool :=
  if who.uid == 0 then true
  else
    let bits : UInt16 :=
      if who.uid == ownerUid.toUInt32 then (mode >>> 6) &&& 0x7
      else if who.gid == ownerGid.toUInt32 then (mode >>> 3) &&& 0x7
      else mode &&& 0x7
    if want &&& accessRead != 0 && bits &&& 4 == 0 then false
    else if want &&& accessWrite != 0 && bits &&& 2 == 0 then false
    else if want &&& accessExec != 0 && bits &&& 1 == 0 then false
    else true

theorem owSecAccess_superuser {who : OwIdentity} (h : who.uid = 0) (mode uid gid : UInt16)
    (want : UInt8) : owSecAccess who mode uid gid want = true := by
  simp [owSecAccess, h]

/-- 所有者の書き込みは、所有者の書き込みの桁で決まる。 -/
theorem owSecAccess_owner_write {who : OwIdentity} {uid : UInt16} (h : who.uid = uid.toUInt32) {mode : UInt16}
    (hmode : (mode >>> 6) &&& 0x7 &&& 2 ≠ 0) (gid : UInt16) : owSecAccess who mode uid gid accessWrite = true := by
  have hread : (accessWrite &&& accessRead != 0) = false := by decide
  have hexec : (accessWrite &&& accessExec != 0) = false := by decide
  unfold owSecAccess
  rw [if_pos (beq_iff_eq.mpr h), hread, hexec]
  simp [hmode]

end OwStorage
