import OwStorage.Lib.Prog
import OwStorage.Lib.Bytes

/-!
# ハードウェア変換層（`ow_htl.c`）

装置は 4096 バイトのブロックの列である。ドライバの呼び出しには 0 から番号を付け、何番目の呼び出しが
失敗するかを `fault` で与える。失敗した呼び出しはブロックを変えない。`trail` は、成功した書き込みの直後の
ディスクを新しい順に並べた記録で、電源断の時点を述べるために使う。コードはこれを読まない。
-/

namespace OwStorage

open Lib

/-- `htl_status_t` のうち `HTL_OK` でないもの。 -/
inductive HtlErr where
  | io
  | timeout
  | invalidBlock
  | notReady
  | writeProtect
  | noDevice
  | invalidParam
  deriving DecidableEq, Repr

abbrev Block : Type := Bytes 4096

abbrev Disk : Type := UInt32 → Block

/-- 運転中に変わらない装置の性質。 -/
structure HtlConfig where
  blockSize : UInt32
  totalBlocks : UInt32
  writeProtect : UInt8
  hasFlush : Bool
  entropy : Option ((n : Nat) → Except HtlErr (Bytes n))
  fault : Nat → Option HtlErr

/-- `htl_device_t` と、ドライバの持つディスク。 -/
structure HtlDevice extends HtlConfig where
  disk : Disk
  clock : Nat
  trail : List Disk

/-- ドライバの呼び出し一回。 -/
def driverCall {α : Type} (act : HtlDevice → α × HtlDevice) : Prog HtlDevice HtlErr α := fun d =>
  match d.fault d.clock with
  | some e => (.error e, { d with clock := d.clock + 1 })
  | none => (.ok (act d).1, { (act d).2 with clock := d.clock + 1 })

def HtlDevice.store (d : HtlDevice) (b : UInt32) (blk : Block) : HtlDevice :=
  { d with disk := Function.update d.disk b blk, trail := Function.update d.disk b blk :: d.trail }

def htlDeviceValid (d : HtlDevice) : Bool := ! decide (d.blockSize < 0x200)

def htlReadBlock (b : UInt32) : Prog HtlDevice HtlErr Block := do
  let d ← Prog.get
  Prog.failIf (! htlDeviceValid d) .invalidParam
  Prog.failIf (d.totalBlocks > 0 ∧ b ≥ d.totalBlocks) .invalidBlock
  driverCall fun d => (d.disk b, d)

def htlWriteBlock (b : UInt32) (buf : Block) : Prog HtlDevice HtlErr Unit := do
  let d ← Prog.get
  Prog.failIf (! htlDeviceValid d) .invalidParam
  Prog.failIf (d.writeProtect ≠ 0) .writeProtect
  Prog.failIf (d.totalBlocks > 0 ∧ b ≥ d.totalBlocks) .invalidBlock
  driverCall fun d => ((), d.store b buf)

def htlFlushCache : Prog HtlDevice HtlErr Unit := do
  let d ← Prog.get
  Prog.failIf (! htlDeviceValid d) .invalidParam
  if d.hasFlush then driverCall fun d => ((), d) else pure ()

def htlGetEntropy (n : Nat) : Prog HtlDevice HtlErr (Bytes n) := do
  let d ← Prog.get
  Prog.failIf (! htlDeviceValid d ∨ n = 0) .invalidParam
  match d.entropy with
  | none => Prog.throw .notReady
  | some f => Prog.ofExcept (f n)

def htlZeroBlock (b : UInt32) : Prog HtlDevice HtlErr Unit := do
  let d ← Prog.get
  Prog.failIf (! htlDeviceValid d) .invalidParam
  if d.blockSize ≤ 4096 then htlWriteBlock b (Bytes.zero 4096) else Prog.throw .invalidParam

end OwStorage
