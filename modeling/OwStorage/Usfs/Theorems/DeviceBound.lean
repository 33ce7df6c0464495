import OwStorage.Usfs.Lemmas.Extent

/-!
# 装置にないブロック

フォーマットは、引数の大きさを装置の大きさと比べない。引数が装置より大きければ、割り当てはいずれ装置にないブロックを返す。
-/

namespace OwStorage.Usfs

open Lib Prog

/-- 割り当てが返した並びのブロックの番号は、どれも `cap` より小さい。 -/
def WithinDevice (cap : UInt32) (e : Event Vol RunOp (Except UsfsErr (Option UInt32))) : Prop :=
  ∀ count b, e.op = .alloc count → e.result = .ok (some b) → ∀ i, i < count.toNat → b.toNat + i < cap.toNat

section

variable {v : Vol}

theorem extent_run (op : RunOp) (v : Vol) : SameExtent v (op.run v).2 := by
  cases op with
  | alloc count => exact ((extent_blockAlloc count).bind (fun b => .pure (some b)) v).state
  | free first count => exact ((extent_blockFree first count).bind (fun _ => .pure none) v).state

/-- どの割り当ても、ボリュームの大きさの欄の中に収まる。 -/
theorem alloc_fits (count b : UInt32) (h : (RunOp.run (.alloc count) v).1 = .ok (some b)) :
    b.toNat + count.toNat ≤ v.sb.totalBlocks.toNat := by
  have hspec := (wp_run_alloc (@blockAlloc_fits v count)).ok (run_eq h)
  obtain ⟨b', hb, hfit, _⟩ := hspec
  rw [Option.some.inj hb]
  exact hfit

end

section

variable {who : OwIdentity} {totalBlocks : UInt32} {label : Option (List UInt8)} {d d' : HtlDevice} {v : Vol}

/-- 装置に収まる大きさのボリュームでは、割り当てと解放の列のどこでも、装置にあるブロックだけが返る。 -/
theorem within_device_of_fit (hfmt : formatVolume who totalBlocks label d = (.ok (), d')) (hopen : Opened d' v)
    (hfit : totalBlocks ≤ d.totalBlocks) (ops : List RunOp) :
    ∀ e ∈ trace RunOp.run ops v, WithinDevice d.totalBlocks e := by
  intro e he
  obtain ⟨htotal, _⟩ := extent_of_opened hfmt hopen
  have hinv := trace_invariant (I := fun v => v.sb.totalBlocks = totalBlocks) (P := fun _ => True)
    (fun op s hs _ => (extent_run op s).totalBlocks.trans hs) ops v htotal (fun _ _ => trivial)
  obtain ⟨hbefore, heq⟩ := hinv.2 e he
  intro count b hop hres i hi
  have hcap := UInt32.le_iff_toNat_le.mp hfit
  rw [heq, hop] at hres
  have hend := alloc_fits count b hres
  rw [hbefore] at hend
  omega

/-- 根のブロックを返してから、データ領域の全体を一度に取る。 -/
theorem exists_whole_run {sb₀ : Superblock} (hfresh : Fresh who sb₀ v) (hunused : Unused sb₀) :
    ∃ b v' v'', RunOp.run (.free v.sb.dataRegionStart 1) v = (.ok none, v') ∧
      RunOp.run (.alloc (v.sb.totalBlocks - v.sb.dataRegionStart)) v' = (.ok (some b), v'') ∧
      b = v.sb.dataRegionStart := by
  have hr := hfresh.ready
  have hne := hr.nonempty
  have htot := v.sb.totalBlocks.toNat_lt
  have hlen : (v.sb.totalBlocks - v.sb.dataRegionStart).toNat = v.sb.dataCount := toNat_sub_le hne.le
  have hcount : v.sb.dataCount = v.sb.totalBlocks.toNat - v.sb.dataRegionStart.toNat := rfl
  have hrange : v.sb.InRange v.sb.dataRegionStart 1 := ⟨by decide, le_refl _, hne⟩
  obtain ⟨r, v', hfree, hafter⟩ := (wp_run_free (blockFree_ready hr v.sb.dataRegionStart 1)).exists_ok_of <| by
    rintro e v' ⟨_, ⟨_, hout⟩ | hshut⟩
    · exact hout hrange
    · rw [hfresh.writable] at hshut
      cases hshut
  have hnone : r = none := by
    have hres : wp (RunOp.run (.free v.sb.dataRegionStart 1)) (fun r _ => r = none) (fun _ _ => True) v := by
      unfold RunOp.run
      rw [wp_bind]
      exact wp_trivial.mono (fun _ _ _ => rfl) (fun _ _ _ => trivial)
    exact hres.ok hfree
  subst hnone
  rcases hafter with ⟨hz, _⟩ | ⟨_, hbecomes⟩
  · cases hz
  have hr' := hbecomes.ready hr
  -- 根のブロックを返した後は、データ領域のどのブロックも空いている。
  have hused : ∀ r, (viewOf v').used r = false := by
    intro r
    have hrel : v.sb.relOf v.sb.dataRegionStart = 0 := Nat.sub_self _
    rw [hbecomes.view, hrel, hfresh.view]
    change fill (fill (fun _ => false) 0 1 true) 0 1 false r = false
    by_cases hin : 0 ≤ r ∧ r < 0 + 1
    · rw [fill_of_mem hin]
    · rw [fill_of_notMem hin, fill_of_notMem hin]
  have hcount' : v'.sb.dataCount = v.sb.dataCount := hbecomes.shape.dataCount
  have hwhole : FirstFit (viewOf v').used v'.sb.dataCount (v.sb.totalBlocks - v.sb.dataRegionStart).toNat 0 :=
    ⟨by omega, fun i _ => hused _, fun s hs => absurd hs (Nat.not_lt_zero s)⟩
  have hfreeBlocks : v'.sb.freeBlocks = v.sb.totalBlocks - v.sb.dataRegionStart := by
    have hfield : v'.sb.freeBlocks = v.sb.freeBlocks + 1 := congrArg View.freeBlocks hbecomes.view
    have hold : v.sb.freeBlocks = sb₀.freeBlocks - 1 := congrArg View.freeBlocks hfresh.view
    rw [hfield, hold, UInt32.sub_add_cancel, hunused.free, hfresh.totalBlocks_eq, hfresh.dataRegionStart_eq]
  obtain ⟨r, v'', halloc, b, rfl, s, hs, _, _, hb, _⟩ := (wp_run_alloc (blockAlloc_ready hr'
      (v.sb.totalBlocks - v.sb.dataRegionStart))).exists_ok_of <| by
    rintro e v'' ⟨_, (⟨_, hz | hshort | hempty⟩ | hshut) | ⟨_, hno⟩⟩
    · rw [hz, UInt32.toNat_zero] at hlen
      omega
    · rw [hfreeBlocks] at hshort
      exact absurd (UInt32.lt_iff_toNat_lt.mp hshort) (Nat.lt_irrefl _)
    · exact absurd hr'.nonempty (Nat.not_lt.mpr (UInt32.le_iff_toNat_le.mp hempty))
    · rw [hbecomes.shape.writable, hfresh.writable] at hshut
      cases hshut
    · exact hno ⟨0, hwhole⟩
  refine ⟨b, v', v'', hfree, halloc, UInt32.toNat_inj.mp ?_⟩
  rw [hb, hs.unique hwhole, hbecomes.shape.dataRegionStart, Nat.add_zero]

/-- 引数が装置より大きければ、装置にないブロックを返す列がある。 -/
theorem fit_of_within_device (hf : d.Reliable) (hcovers : totalBlocks.toNat < 2 ^ 32 - 32749)
    (hfmt : formatVolume who totalBlocks label d = (.ok (), d')) (hopen : Opened d' v)
    (hall : ∀ ops, ∀ e ∈ trace RunOp.run ops v, WithinDevice d.totalBlocks e) : totalBlocks ≤ d.totalBlocks := by
  obtain ⟨b, nonce, _, hunused, hfresh, _⟩ := fresh_of_format hf hcovers hfmt hopen
  obtain ⟨first, v', v'', hfree, halloc, hfirst⟩ := exists_whole_run hfresh hunused
  obtain ⟨htotal, _⟩ := extent_of_opened hfmt hopen
  have hne := hfresh.ready.nonempty
  have hlen : (v.sb.totalBlocks - v.sb.dataRegionStart).toNat = v.sb.totalBlocks.toNat - v.sb.dataRegionStart.toNat :=
    toNat_sub_le hne.le
  have hmem : event RunOp.run (.alloc (v.sb.totalBlocks - v.sb.dataRegionStart)) v' ∈
      trace RunOp.run [.free v.sb.dataRegionStart 1, .alloc (v.sb.totalBlocks - v.sb.dataRegionStart)] v := by
    have hstate : (RunOp.run (.free v.sb.dataRegionStart 1) v).2 = v' := congrArg Prod.snd hfree
    simp only [trace, hstate]
    exact List.mem_cons_of_mem _ List.mem_cons_self
  have hlast := hall _ _ hmem _ first rfl (congrArg Prod.fst halloc) (v.sb.dataCount - 1) (by
    unfold Superblock.dataCount
    omega)
  rw [hfirst] at hlast
  unfold Superblock.dataCount at hlast
  rw [UInt32.le_iff_toNat_le, ← htotal]
  omega

/-- 装置にあるブロックだけが返るのは、フォーマットの引数が装置の大きさを越えないときである。 -/
theorem alloc_within_device (hfmt : formatVolume who totalBlocks label d = (.ok (), d')) (hopen : Opened d' v) :
    (d.WholeBlocks → totalBlocks ≤ d.totalBlocks →
        ∀ ops, ∀ e ∈ trace RunOp.run ops v, WithinDevice d.totalBlocks e) ∧
      (d.Reliable → totalBlocks.toNat < 2 ^ 32 - 32749 →
        (∀ ops, ∀ e ∈ trace RunOp.run ops v, WithinDevice d.totalBlocks e) → totalBlocks ≤ d.totalBlocks) :=
  ⟨fun _ hfit ops => within_device_of_fit hfmt hopen hfit ops,
    fun hf hcovers hall => fit_of_within_device hf hcovers hfmt hopen hall⟩

end

/-- 大きさの合った装置。 -/
theorem alloc_within_device_small :
    ∃ d' v, formatVolume ⟨0, 0⟩ 64 none (zeroDevice 64) = (.ok (), d') ∧ Opened d' v ∧
      ∀ ops, ∀ e ∈ trace RunOp.run ops v, WithinDevice 64 e := by
  obtain ⟨d', v, hfmt, hopen⟩ := exists_opened_zeroDevice ⟨0, 0⟩ (n := 64) (.inr (by decide))
  exact ⟨d', v, hfmt, hopen, (alloc_within_device hfmt hopen).1 rfl (UInt32.le_refl 64)⟩

/-- 30 ブロックの装置を、64 ブロックのボリュームとしてフォーマットできる。 -/
theorem alloc_outside_small_device :
    ¬ ∀ d' v, formatVolume ⟨0, 0⟩ 64 none (zeroDevice 30) = (.ok (), d') → Opened d' v →
      ∀ ops, ∀ e ∈ trace RunOp.run ops v, WithinDevice 30 e := by
  intro hclaim
  obtain ⟨d', v, hfmt, hopen⟩ := exists_opened_zeroDevice ⟨0, 0⟩ (n := 30) (.inr (by decide))
  have hle : (64 : UInt32) ≤ (zeroDevice 30).totalBlocks :=
    fit_of_within_device (reliable_zeroDevice 30) (by decide) hfmt hopen (hclaim d' v hfmt hopen)
  exact absurd hle (by change ¬ (64 : UInt32) ≤ 30; decide)

end OwStorage.Usfs
