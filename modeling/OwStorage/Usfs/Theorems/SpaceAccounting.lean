import OwStorage.Usfs.Lemmas.Balance
import OwStorage.Usfs.Lemmas.Directory
import OwStorage.Usfs.Theorems.LayoutCover

/-!
# ブロックの収支

ビットマップがデータ領域を覆うボリュームでは、割り当て、解放、書き込み、切り詰めのどの列でも、使用中のデータブロックは生きている
項目の並びに過不足なく分かれ、空きの数の欄は数え直した空きの数に等しい。
-/

namespace OwStorage.Usfs

open Lib Prog

/-- 生きている項目の並びと、印と、空きの数の欄と、ファイルの大きさとが合う。 -/
structure SpaceExact (v : Vol) : Prop where
  inside : ∀ i, ((viewOf v).table i).Live → v.sb.Houses ((viewOf v).table i)
  disjoint : ∀ i j, i ≠ j → ((viewOf v).table i).Live → ((viewOf v).table j).Live →
    Disjoint ((viewOf v).table i).run ((viewOf v).table j).run
  union : ∀ b, v.sb.IsData b → (isUsedNow v b = true ↔ ∃ i, ((viewOf v).table i).Live ∧ b ∈ ((viewOf v).table i).run)
  counted : (bitmapCountFree v).1 = .ok v.sb.freeBlocks
  sized : ∀ i, ((viewOf v).table i).entryType = entryFile →
    ((viewOf v).table i).sizeBytes.toNat ≤ ((viewOf v).table i).blockCount.toNat * 4096

section

variable {v : Vol} {b : UInt32}

/-- データブロックが並びにあるかどうかは、データ領域の中の番号で決まる。 -/
theorem Superblock.Houses.mem_run_iff {sb : Superblock} {e : Entry} (h : sb.Houses e) (hb : sb.IsData b) :
    b ∈ e.run ↔ sb.relOf b ∈ sb.extent e := by
  have hstart := hb.1
  by_cases hpos : 0 < e.blockCount.toNat
  · have hlow := (h hpos).low
    change (_ ∧ _) ↔ (_ ∧ _)
    unfold Superblock.relOf
    omega
  · change (_ ∧ _) ↔ (_ ∧ _)
    omega

theorem Balanced.spaceExact (h : Balanced v) : SpaceExact v := by
  have hwrites := h.ready.serves.bitmap h.ready.layout
  refine ⟨fun i _ => h.housed i, fun i j hij _ _ => ?_, fun b hb => ?_, ?_, fun i hfile =>
    h.sized i (Entry.live_of_file hfile)⟩
  · refine Set.disjoint_left.mpr fun b hbi hbj => hij ?_
    have hdata := (h.housed i).isData hbi
    exact h.allotted.unique (((h.housed i).mem_run_iff hdata).mp hbi) (((h.housed j).mem_run_iff hdata).mp hbj)
  · have hrel : v.sb.relOf b < v.sb.dataCount := by
      have hlow := hb.1
      have hhigh := hb.2
      unfold Superblock.relOf Superblock.dataCount
      omega
    have hbit : (viewOf v).used (v.sb.relOf b) = bitOf v.dev.disk v.sb (v.sb.relOf b) := bitsView_eq hrel
    rw [isUsedNow_iff h.ready.layout hwrites.reads, ← hbit, and_iff_right hb]
    constructor
    · intro hused
      obtain ⟨i, hi⟩ := h.allotted.mem_iff.mp hused
      refine ⟨i, ?_, ((h.housed i).mem_run_iff hb).mpr hi⟩
      by_contra hdead
      change v.sb.relOf b ∈ v.sb.extent ((viewOf v).table i) at hi
      rw [Superblock.extent_eq_empty (h.bare i hdead)] at hi
      exact hi
    · rintro ⟨i, _, hi⟩
      exact h.allotted.subset i (((h.housed i).mem_run_iff hb).mp hi)
  · obtain ⟨n, v', hrun, rfl, _⟩ := (bitmapCountFree_spec h.ready.layout h.ready.faultFree hwrites.reads).exists_ok
    have hcount : freeCount v.dev.disk v.sb = v.sb.freeBlocks.toNat := by
      rw [h.counted]
      exact vacancies_congr fun i hi => by
        rw [Nat.zero_add]
        exact (bitsView_eq hi).symm
    rw [hrun, hcount, UInt32.ofNat_toNat]

end

section

variable {who : OwIdentity} {totalBlocks b : UInt32} {label : Option (List UInt8)} {d d' : HtlDevice} {v : Vol}

/-- ビットマップがデータ領域を覆うように作られたボリュームでは、読み直した項目を渡すかぎり、どの呼び出しの列の後でも、
返した値を問わず、収支が合う。 -/
theorem space_accounting_exact (hf : d.Reliable) (hlayout : layoutBitmapBlocks totalBlocks = some b)
    (hcovers : CoversData totalBlocks b) (hfmt : formatVolume who totalBlocks label d = (.ok (), d'))
    (hopen : Opened d' v) (ops : List EntryOp)
    (hread : ∀ e ∈ trace EntryOp.run ops v, e.op.FreshlyRead e.before) : SpaceExact (final EntryOp.run ops v) := by
  obtain ⟨_, _, _, hunused, hfresh, _⟩ := fresh_of_format hf (hcovers.fit hlayout) hfmt hopen
  exact (trace_invariant (I := Balanced) (P := fun e => e.op.FreshlyRead e.before) (fun op _ h hP => h.step op hP) ops v
    (.of_fresh hunused hfresh) hread).1.spaceExact

end

/-- 一つのファイルを作り、一バイトを書く。 -/
theorem space_accounting_exact_small :
    ∃ d' v held, formatVolume ⟨0, 0⟩ 64 none (zeroDevice 0) = (.ok (), d') ∧ Opened d' v ∧
      SpaceExact (final EntryOp.run [createFile 0x61 0, writeByte held] v) := by
  obtain ⟨d', v, hfmt, hopen⟩ := exists_opened_zeroDevice ⟨0, 0⟩ (n := 0) (.inl rfl)
  obtain ⟨v₁, hrun₁, hwork₁, _, _, htotal₁, _⟩ := first_file hfmt hopen
  have hok : wp (entryRead 1) (fun _ _ => True) (fun _ _ => False) v₁ := by
    refine wp_entryRead_summed hwork₁.ready.stable (hwork₁.kept.summed 1) (fun _ _ _ => trivial) fun hout _ _ => hout ?_
    rw [htotal₁]
    decide
  obtain ⟨held, _, hread, _⟩ := hok.exists_ok
  refine ⟨d', v, held, hfmt, hopen, space_accounting_exact (reliable_zeroDevice 0) layoutBitmapBlocks_small
    (.mk' (by decide) (by decide) (by decide)) hfmt hopen _ fun e he => ?_⟩
  rcases List.mem_cons.mp he with rfl | he
  · exact trivial
  · obtain rfl := List.mem_singleton.mp he
    change (entryRead 1 (EntryOp.run (createFile 0x61 0) v).2).1 = .ok held
    rw [hrun₁, hread]

end OwStorage.Usfs
