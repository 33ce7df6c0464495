import OwStorage.Owfs.Lemmas.Gate
import OwStorage.Usfs.Lemmas.Gate

/-!
# 書き込みの門

ロックか誤りの旗の立ったボリュームと、読み取り専用のボリュームでは、どの呼び出しの列も、装置とスーパーブロックを変えない。
-/

namespace OwStorage

open Lib

/-- 書き込みの門には穴がない。閉じている間は、どの呼び出しの列の後でも、装置もスーパーブロックも元のままである。 -/
theorem write_gate_has_no_hole :
    (∀ (v : Owfs.Vol) (ops : List Owfs.MutateOp), v.sb.Shut →
      final Owfs.MutateOp.run ops v = v ∧ ∀ e ∈ trace Owfs.MutateOp.run ops v, e.after = v) ∧
    (∀ (v : Usfs.Vol) (ops : List Usfs.MutateOp), v.sb.Shut →
      final Usfs.MutateOp.run ops v = v ∧ ∀ e ∈ trace Usfs.MutateOp.run ops v, e.after = v) := by
  constructor
  · intro v ops h
    exact final_fixed (fun op => (op.idle h).state) ops
  · intro v ops h
    exact final_fixed (fun op => (op.idle h).state) ops

/-- 何も書かれていない小さな装置。 -/
def plainDevice : HtlDevice where
  blockSize := 4096
  totalBlocks := 300
  writeProtect := 0
  hasFlush := true
  entropy := none
  fault := fun _ => none
  disk := fun _ => Bytes.zero 4096
  clock := 0
  trail := []

/-- ロックされた OWFS と、読み取り専用の USFS の例。 -/
theorem write_gate_holds_on_plainDevice :
    (final Owfs.MutateOp.run [.catalogMkdir ⟨0, 0⟩ 0 (some [97]) 1, .cryptoSetKey (List.replicate 32 7)]
        ⟨plainDevice, Owfs.setFlags Owfs.stateLocked Owfs.Superblock.zero⟩ =
      ⟨plainDevice, Owfs.setFlags Owfs.stateLocked Owfs.Superblock.zero⟩) ∧
    (final Usfs.MutateOp.run [.entryAlloc ⟨0, 0⟩ Usfs.entryFile (some [97]) 1 0, .blockAlloc 1]
        ⟨plainDevice, { Usfs.Superblock.zero with securityFlags := Usfs.secReadonly }⟩ =
      ⟨plainDevice, { Usfs.Superblock.zero with securityFlags := Usfs.secReadonly }⟩) :=
  ⟨(write_gate_has_no_hole.1 _ _ (.inl (by decide))).1, (write_gate_has_no_hole.2 _ _ (.inr (.inr (by decide)))).1⟩

end OwStorage
