import OwStorage.Owfs.Lemmas.Catalog
import OwStorage.Owfs.Lemmas.Format

/-!
# ブロックの二重の割り当てがないこと

フォーマットしたボリュームからどんな操作の列を行っても、生きている inode の参照はどれも別の使用中のデータブロックを
指す。
-/

namespace OwStorage.Owfs

open Lib Prog

/-- 種類のある inode のスロット。 -/
def LiveSlot (v : Vol) (n : UInt32) : Prop :=
  n.toNat < v.sb.totalInodes.toNat ∧ (inodeAt v.dev.disk v.sb n).entryType ≠ 0

/-- inode `n` の参照 `r` の指すブロック。 -/
def slotBlock (v : Vol) (n : UInt32) (r : Option Nat) : UInt32 :=
  refBlock v.dev.disk (inodeAt v.dev.disk v.sb n) r

/-- 種類のあるどの inode の参照も、別々の使用中のデータブロックを指す。 -/
structure NoDoubleAllocation (v : Vol) : Prop where
  distinct : ∀ n r m q, LiveSlot v n → LiveSlot v m → (inodeAt v.dev.disk v.sb n).HasRef r →
    (inodeAt v.dev.disk v.sb m).HasRef q → (n, r) ≠ (m, q) → slotBlock v n r ≠ slotBlock v m q
  inData : ∀ n r, LiveSlot v n → (inodeAt v.dev.disk v.sb n).HasRef r → v.sb.IsData (slotBlock v n r)
  used : ∀ n r, LiveSlot v n → (inodeAt v.dev.disk v.sb n).HasRef r →
    bitOf v.dev.disk v.sb (v.sb.relOf (slotBlock v n r)) = true
  shaped : ∀ n, LiveSlot v n → (inodeAt v.dev.disk v.sb n).Shaped

theorem WellFormed.noDoubleAllocation {v : Vol} (h : WellFormed v) : NoDoubleAllocation v := by
  have hmem : ∀ n r, LiveSlot v n → (inodeAt v.dev.disk v.sb n).HasRef r →
      (n, r) ∈ refs v.sb (slotInode v.dev.disk v.sb) ∧
        target v.dev.disk (slotInode v.dev.disk v.sb) (n, r) = slotBlock v n r := by
    intro n r hn hr
    unfold target slotBlock
    rw [slotInode_of_live hn.2]
    refine ⟨⟨hn.1, ?_⟩, rfl⟩
    rw [slotInode_of_live hn.2]
    exact hr
  refine ⟨fun n r m q hn hm hr hq hne => ?_, fun n r hn hr => ?_, fun n r hn hr => ?_, fun n hn => ?_⟩
  · obtain ⟨hx, hxt⟩ := hmem n r hn hr
    obtain ⟨hy, hyt⟩ := hmem m q hm hq
    rw [← hxt, ← hyt]
    exact Owns.ne (Sound.owns h) hx hy hne
  · obtain ⟨hx, hxt⟩ := hmem n r hn hr
    rw [← hxt]
    exact Sound.isData h hx
  · obtain ⟨hx, hxt⟩ := hmem n r hn hr
    rw [← hxt]
    exact ((Sound.owns h).mapsTo hx).2
  · have hs := Sound.shaped h n hn.1
    rwa [slotInode_of_live hn.2] at hs

/-- どのデータの操作の列の後でも、ボリュームの条件は成り立つ。 -/
theorem ready_of_dataOps {v : Vol} (h : Ready v) (ops : List DataOp) : Ready (final DataOp.run ops v) :=
  final_invariant (I := Ready) (fun op _ hr => (hr.after (upholds_dataOp op)).1) ops h

/-- フォーマットしたボリュームでは、どんな操作の列の後でも、ブロックは二重に割り当てられていない。 -/
theorem no_double_allocation {d₀ d : HtlDevice} {totalBlocks : UInt32} {label : Option (List UInt8)} {v : Vol}
    (hff : d₀.FaultFree) (hformat : formatVolume totalBlocks label d₀ = (.ok (), d)) (hopen : Opened d v)
    (ops : List DataOp) : NoDoubleAllocation (final DataOp.run ops v) :=
  (ready_of_dataOps (ready_of_opened hff hformat hopen) ops).sound.noDoubleAllocation

/-- ファイルを作って書き、切り詰めて消した後の例。 -/
theorem no_double_allocation_on_blankDevice :
    ∃ v, Opened (formatVolume 280 none blankDevice).2 v ∧
      NoDoubleAllocation (final DataOp.run
        [.inodeAlloc ⟨0, 0⟩ entryFile none 0 0, .fileWrite ⟨0, 0⟩ 1 [1, 2, 3] 0 3 (by decide),
          .fileTruncate ⟨0, 0⟩ 1 1, .inodeFree ⟨0, 0⟩ 1] v) := by
  rw [snd_format_blankDevice]
  obtain ⟨v, hopen⟩ := opened_of_formatVolume faultFree_blankDevice format_blankDevice
  exact ⟨v, hopen, no_double_allocation faultFree_blankDevice format_blankDevice hopen _⟩

end OwStorage.Owfs
