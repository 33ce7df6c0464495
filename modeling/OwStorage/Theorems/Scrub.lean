import OwStorage.Owfs.Lemmas.Oblivious
import OwStorage.Usfs.Lemmas.Oblivious

/-!
# 消去の後に残るもの

フォーマットは、ディスクの前の中身に依らない。完全消去が通れば、対象のどのブロックにも、前の中身は何も残らない。装置の失敗の
起こり方は問わない。
-/

namespace OwStorage

open Lib Prog

/-- フォーマットの結果も書く内容も、ディスクの前の中身に依らない。通れば、管理用のブロックの内容は一通りに定まる。 -/
theorem format_oblivious (label : Option (List UInt8)) (totalBlocks : UInt32) :
    Oblivious (Owfs.formatVolume totalBlocks label) (Owfs.metadataBlocks totalBlocks) ∧
      ∀ who, Oblivious (Usfs.formatVolume who totalBlocks label) (Usfs.metadataBlocks totalBlocks) :=
  ⟨oblivious_of_coupled fun _ _ => Owfs.coupled_formatVolume totalBlocks label, fun who =>
    oblivious_of_coupled fun _ _ => Usfs.coupled_formatVolume who totalBlocks label⟩

/-- 通った完全消去の後では、対象の全ブロックの内容が、前の中身に依らずに定まる。 -/
theorem fullScrub_leaves_no_residue (label : Option (List UInt8)) (totalBlocks : UInt32) :
    Oblivious (Owfs.fullScrub totalBlocks label) (blocksIn 0 totalBlocks.toNat) ∧
      ∀ who, Oblivious (Usfs.fullScrub who totalBlocks label) (blocksIn 0 totalBlocks.toNat) :=
  ⟨oblivious_of_coupled fun _ _ => Owfs.coupled_fullScrub totalBlocks label, fun who =>
    oblivious_of_coupled fun _ _ => Usfs.coupled_fullScrub who totalBlocks label⟩

end OwStorage
