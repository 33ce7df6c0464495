import OwStorage.Usfs.Theorems.FirstFit

/-!
# 空きの数の欄

解放は、消す印がもとから消えていたかを見ずに、範囲の長さを空きの数に足す。割り当てられた範囲だけを解放するかぎり、欄は
数え直した空きの数に等しい。
-/

namespace OwStorage.Usfs

open Lib Prog

/-- 欄は数え直した空きの数に等しく、データ領域の大きさを越えない。 -/
structure CounterAgrees (v : Vol) : Prop where
  counted : (bitmapCountFree v).1 = .ok v.sb.freeBlocks
  bounded : v.sb.freeBlocks.toNat ≤ v.sb.totalBlocks.toNat - v.sb.dataRegionStart.toNat

/-- 範囲のどのブロックも使用中である。 -/
def AllUsed (v : Vol) (first count : UInt32) : Prop :=
  ∀ x : UInt32, first.toNat ≤ x.toNat → x.toNat < first.toNat + count.toNat → isUsedNow v x = true

/-- 失敗のない装置の上の、数え直しの合うボリューム。 -/
structure Metered (v : Vol) : Prop where
  layout : Layout v.sb
  exact : FreeExact v.dev.disk v.sb
  faultFree : v.dev.FaultFree
  serves : WritesBitmap v.dev.toHtlConfig v.sb

section

variable {v v' : Vol} {first count : UInt32}

/-- 空きの数だけの違いは、配置に影響しない。 -/
theorem Layout.recount (h : Layout v.sb) {n : UInt32} : Layout { v.sb with freeBlocks := n } :=
  ⟨h.tableAfter, h.bitmapAfter, h.dataAfter, h.entriesFit, h.bitmapCovers⟩

theorem freeCount_le {disk : Disk} {sb : Superblock} : freeCount disk sb ≤ sb.dataCount := vacancies_le

theorem Metered.agrees (h : Metered v) : CounterAgrees v := by
  obtain ⟨n, v', hrun, rfl, _⟩ := (bitmapCountFree_spec h.layout h.faultFree h.serves.reads).exists_ok
  have hexact : v.sb.freeBlocks.toNat = freeCount v.dev.disk v.sb := h.exact
  refine ⟨?_, ?_⟩
  · rw [hrun, ← hexact, UInt32.ofNat_toNat]
  · rw [hexact]
    exact freeCount_le

theorem Metered.still (h : Metered v) (hs : Still v v') : Metered v' := by
  obtain ⟨c, rfl⟩ := hs
  exact ⟨h.layout, h.exact, h.faultFree, h.serves⟩

theorem Metered.marked (h : Metered v) {s len : Nat} {used : Bool} {n : UInt32} (hm : Marked v v' s len used)
    (hsb : v'.sb = { v.sb with freeBlocks := n }) (hn : n.toNat = freeCount v'.dev.disk v.sb) : Metered v' := by
  refine ⟨?_, ?_, hm.dev.faultFree h.faultFree, ?_⟩
  · rw [hsb]
    exact h.layout.recount
  · unfold FreeExact
    rw [hsb]
    exact hn
  · rw [hsb, hm.dev.config]
    exact ⟨h.serves.writes, h.serves.wholeBlocks⟩

theorem Metered.unprotected (h : Metered v) (hrange : v.sb.InRange first count) : v.dev.writeProtect = 0 := by
  have hfit := hrange.rel_le
  have hpos := hrange.pos
  exact h.serves.unprotected h.layout (by omega)

theorem Metered.allUsed_iff (h : Metered v) (hrange : v.sb.InRange first count) :
    AllUsed v first count ↔ vacancies (bitOf v.dev.disk v.sb) (v.sb.relOf first) count.toNat = 0 := by
  rw [vacancies_eq_zero]
  have hlow := hrange.low
  have hhigh := hrange.high
  have htot := v.sb.totalBlocks.toNat_lt
  have hrel : v.sb.relOf first = first.toNat - v.sb.dataRegionStart.toNat := rfl
  constructor
  · intro hall i hi
    have hx : (UInt32.ofNat (first.toNat + i)).toNat = first.toNat + i := toNat_ofNat_lt (by omega)
    have hused := (isUsedNow_iff h.layout h.serves.reads).mp (hall (.ofNat (first.toNat + i)) (by omega) (by omega))
    rw [← show v.sb.relOf (.ofNat (first.toNat + i)) = v.sb.relOf first + i by unfold Superblock.relOf; omega]
    exact hused.2
  · intro hall x hx hx'
    refine (isUsedNow_iff h.layout h.serves.reads).mpr ⟨⟨by omega, by omega⟩, ?_⟩
    rw [show v.sb.relOf x = v.sb.relOf first + (x.toNat - first.toNat) by unfold Superblock.relOf; omega]
    exact hall _ (by omega)

/-- 解放の後の欄と、数え直した空きの数。 -/
theorem Metered.freed (h : Metered v) (hrange : v.sb.InRange first count)
    (hm : Marked v v' (v.sb.relOf first) count.toNat false) (hused : AllUsed v first count) :
    (v.sb.freeBlocks + count).toNat = freeCount v'.dev.disk v.sb := by
  have hexact : v.sb.freeBlocks.toNat = freeCount v.dev.disk v.sb := h.exact
  have hcount := hm.freeCount h.layout hrange.rel_le
  have hle : freeCount v'.dev.disk v.sb ≤ v.sb.dataCount := freeCount_le
  have htot := v.sb.totalBlocks.toNat_lt
  rw [(h.allUsed_iff hrange).mp hused] at hcount
  simp only [Bool.false_eq_true, ↓reduceIte, Nat.add_zero] at hcount
  unfold Superblock.dataCount at hle
  rw [toNat_add_lt (by omega)]
  omega

theorem Metered.taken (h : Metered v) {s : Nat} (hs : FirstFit (bitOf v.dev.disk v.sb) v.sb.dataCount count.toNat s)
    (hm : Marked v v' s count.toNat true) : (v.sb.freeBlocks - count).toNat = freeCount v'.dev.disk v.sb := by
  have hexact : v.sb.freeBlocks.toNat = freeCount v.dev.disk v.sb := h.exact
  have hcount := hm.freeCount h.layout hs.fits
  have hle : count.toNat ≤ freeCount v.dev.disk v.sb := by
    have hvac : vacancies (bitOf v.dev.disk v.sb) s count.toNat ≤ freeCount v.dev.disk v.sb :=
      vacancies_le_total hs.fits
    rwa [hs.vacant.vacancies] at hvac
  rw [hs.vacant.vacancies] at hcount
  simp only [↓reduceIte, Nat.add_zero] at hcount
  rw [toNat_sub_le (by omega)]
  omega

end

/-- 解放は、断られるか、使用中のブロックだけを範囲とする。 -/
def FreesUsed (e : Event Vol RunOp (Except UsfsErr (Option UInt32))) : Prop :=
  ∀ first count, e.op = .free first count → e.before.sb.InRange first count → volumeWritable e.before.sb = .ok () →
    AllUsed e.before first count

section

variable {v v' : Vol} {first count : UInt32}

/-- 一回の呼び出し。失敗のない装置では、途中で止まることはない。 -/
theorem Metered.step (h : Metered v) (op : RunOp) (hused : FreesUsed (event RunOp.run op v)) :
    Metered (op.run v).2 := by
  have hcalm : ∀ c n, (v.atClock c).dev.Calm n := fun c n k _ => h.faultFree _
  cases op with
  | alloc count =>
      refine ((wp_run_alloc (blockAlloc_spec h.layout count h.serves.reads)).mono ?_ ?_).state
      · rintro r v' ⟨b, _, _, s, hs, _, hm, hsb, _⟩
        exact h.marked hm hsb (h.taken hs hm)
      · rintro e v' ⟨_, ⟨hstill, _⟩ | ⟨_, hopen, s, i, hs, _, htorn⟩⟩
        · exact h.still hstill
        · have hfits := hs.fits
          have hpos := count_pos_of_open hopen
          exact absurd ⟨hcalm _ _, h.serves.unprotected h.layout (by omega)⟩ htorn.cut
  | free first count =>
      refine ((wp_run_free (blockFree_spec h.layout first count h.serves.reads)).mono ?_ ?_).state
      · rintro r v' (⟨_, rfl⟩ | ⟨hrange, hw, hm, hsb, _⟩)
        · exact h
        · exact h.marked hm hsb (h.freed hrange hm (hused first count rfl hrange hw))
      · rintro e v' ⟨_, ⟨rfl, _⟩ | ⟨_, hrange, _, i, htorn⟩⟩
        · exact h
        · exact absurd ⟨hcalm v.dev.clock _, h.unprotected hrange⟩ htorn.cut

/-- 範囲に使われていないブロックがあれば、受け入れられた解放の後で欄は合わない。 -/
theorem Metered.not_agrees_after_free (h : Metered v) (hrange : v.sb.InRange first count)
    (hw : volumeWritable v.sb = .ok ()) (hno : ¬ AllUsed v first count) :
    ¬ CounterAgrees (RunOp.run (.free first count) v).2 := by
  have hspec := wp_run_free (blockFree_spec h.layout first count h.serves.reads)
  rcases hrun : RunOp.run (.free first count) v with ⟨r, v'⟩
  cases r with
  | ok r =>
      rcases hspec.ok hrun with ⟨hz, _⟩ | ⟨_, _, hm, hsb, _⟩
      · have hpos := hrange.pos
        rw [hz] at hpos
        exact absurd hpos (Nat.lt_irrefl 0)
      · intro hagrees
        have hlayout : Layout v'.sb := by
          rw [hsb]
          exact h.layout.recount
        have hreads : ReadsBitmap v'.dev.toHtlConfig v'.sb := by
          rw [hsb, hm.dev.config]
          exact ⟨h.serves.reads.reads, h.serves.wholeBlocks⟩
        obtain ⟨n, _, hcount, hn, _⟩ :=
          (bitmapCountFree_spec hlayout (hm.dev.faultFree h.faultFree) hreads).exists_ok
        have hsame := hagrees.counted
        rw [hcount, hn, hsb] at hsame
        have hfield := congrArg UInt32.toNat (Except.ok.inj hsame)
        have hle : freeCount v'.dev.disk v.sb ≤ v.sb.dataCount := freeCount_le
        have htot := v.sb.totalBlocks.toNat_lt
        have hexact : v.sb.freeBlocks.toNat = freeCount v.dev.disk v.sb := h.exact
        have hmarked := hm.freeCount h.layout hrange.rel_le
        have hvac : vacancies (bitOf v.dev.disk v.sb) (v.sb.relOf first) count.toNat ≤ count.toNat := vacancies_le
        have hpos := Nat.pos_of_ne_zero fun hz => hno ((h.allUsed_iff hrange).mpr hz)
        have hcount32 := count.toNat_lt
        -- 足しすぎた分は、範囲にあった空きの個数であり、2 の 32 乗より小さい。
        change (UInt32.ofNat (freeCount v'.dev.disk v.sb)).toNat = (v.sb.freeBlocks + count).toNat at hfield
        unfold Superblock.dataCount at hle
        rw [toNat_ofNat_lt (by omega), UInt32.toNat_add, hexact] at hfield
        simp only [Bool.false_eq_true, ↓reduceIte] at hmarked
        omega
  | error e =>
      obtain ⟨_, ⟨_, ⟨_, hout⟩ | hshut⟩ | ⟨_, _, _, i, htorn⟩⟩ := hspec.error hrun
      · exact absurd hrange hout
      · rw [hw] at hshut
        cases hshut
      · exact absurd ⟨fun k _ => h.faultFree _, h.unprotected hrange⟩ htorn.cut

end

section

variable {who : OwIdentity} {totalBlocks : UInt32} {label : Option (List UInt8)} {d d' : HtlDevice} {v : Vol}

theorem Metered.of_fresh {sb₀ : Superblock} (hu : Unused sb₀) (h : Fresh who sb₀ v) : Metered v where
  layout := h.ready.layout
  exact := h.freeExact hu
  faultFree := h.ready.faultFree
  serves := h.ready.serves.bitmap h.ready.layout

/-- フォーマットしたボリュームでは、割り当てと解放の列のどこでも、解放が使用中のブロックだけを範囲とするかぎり、欄は
数え直した空きの数に等しい。 -/
theorem free_counter_agrees (hf : d.Reliable) (hcovers : totalBlocks.toNat < 2 ^ 32 - 32749)
    (hfmt : formatVolume who totalBlocks label d = (.ok (), d')) (hopen : Opened d' v) (ops : List RunOp)
    (hused : ∀ e ∈ trace RunOp.run ops v, FreesUsed e) :
    CounterAgrees (final RunOp.run ops v) ∧ ∀ e ∈ trace RunOp.run ops v, CounterAgrees e.before ∧
      CounterAgrees e.after := by
  obtain ⟨b, nonce, _, hunused, hfresh, _⟩ := fresh_of_format hf hcovers hfmt hopen
  obtain ⟨hfin, hall⟩ := trace_invariant (I := Metered) (P := FreesUsed) (fun op _ h hP => h.step op hP) ops v
    (.of_fresh hunused hfresh) hused
  refine ⟨hfin.agrees, fun e he => ?_⟩
  obtain ⟨hbefore, heq⟩ := hall e he
  have hstep := hused e he
  rw [heq] at hstep ⊢
  exact ⟨hbefore.agrees, (hbefore.step e.op hstep).agrees⟩

end

/-- 割り当てた並びを解放し、多すぎる割り当てを断られる列。 -/
theorem free_counter_agrees_small :
    ∃ d' v b, formatVolume ⟨0, 0⟩ 64 none (zeroDevice 0) = (.ok (), d') ∧ Opened d' v ∧ (blockAlloc 3 v).1 = .ok b ∧
      CounterAgrees (final RunOp.run [.alloc 3, .free b 3, .alloc 100] v) := by
  obtain ⟨d', v, hfmt, hopen⟩ := exists_opened_zeroDevice ⟨0, 0⟩ (n := 0) (.inl rfl)
  obtain ⟨b₀, nonce, hb₀, hunused, hfresh, _⟩ := fresh_of_format (reliable_zeroDevice 0) (by decide) hfmt hopen
  obtain rfl : b₀ = 1 := Option.some.inj (hb₀.symm.trans layoutBitmapBlocks_small)
  have hmeter : Metered v := .of_fresh hunused hfresh
  have hdata : v.sb.dataCount = 46 := by
    unfold Superblock.dataCount
    rw [hfresh.totalBlocks_eq, hfresh.dataRegionStart_eq]
    rfl
  obtain ⟨s, hs⟩ := @FirstFit.of_vacant (bitOf v.dev.disk v.sb) v.sb.dataCount (3 : UInt32).toNat 1
    (by rw [hdata]; decide) fun i hi => by
      have hi : i < 3 := hi
      rw [hfresh.bit (by omega), fill_of_notMem (by omega)]
  obtain ⟨b, v₁, hrun, hstart, hmarked, hsb⟩ :=
    blockAlloc_ok hmeter.layout hfresh.writable hmeter.exact hmeter.faultFree hmeter.serves (by decide) hs
  have hfirst : (RunOp.run (.alloc 3) v).2 = v₁ := congrArg Prod.snd (run_bind hrun rfl)
  refine ⟨d', v, b, hfmt, hopen, congrArg Prod.fst hrun,
    (free_counter_agrees (reliable_zeroDevice 0) (by decide) hfmt hopen _ fun e he => ?_).1⟩
  rcases List.mem_cons.mp he with rfl | he
  · rintro first count ⟨⟩
  rw [hfirst] at he
  rcases List.mem_cons.mp he with rfl | he
  · rintro first count ⟨⟩ _ _ x hlow hhigh
    -- 割り当てが印を付けた並びなので、どのブロックも使用中である。
    refine (Marked.isUsedNow_eq hmarked hmeter.layout hmeter.serves.reads hs.fits (by rw [hsb]) x).mpr (.inr ?_)
    rw [← hstart]
    exact ⟨hlow, hhigh⟩
  · obtain rfl := List.mem_singleton.mp he
    rintro first count ⟨⟩

/-- 割り当てていないブロックを解放すると、欄が合わなくなる。 -/
theorem free_counter_drifts :
    ¬ ∀ d' v, formatVolume ⟨0, 0⟩ 64 none (zeroDevice 0) = (.ok (), d') → Opened d' v →
      ∀ ops, CounterAgrees (final RunOp.run ops v) := by
  intro hclaim
  obtain ⟨d', v, hfmt, hopen⟩ := exists_opened_zeroDevice ⟨0, 0⟩ (n := 0) (.inl rfl)
  obtain ⟨b, nonce, hb, hunused, hfresh, _⟩ := fresh_of_format (reliable_zeroDevice 0) (by decide) hfmt hopen
  obtain rfl : b = 1 := Option.some.inj (hb.symm.trans layoutBitmapBlocks_small)
  have hmeter : Metered v := .of_fresh hunused hfresh
  have hstart : v.sb.dataRegionStart = 18 := hfresh.dataRegionStart_eq
  have htotal : v.sb.totalBlocks = 64 := hfresh.totalBlocks_eq
  have hrange : v.sb.InRange 19 1 := by
    refine ⟨by decide, ?_, ?_⟩
    · rw [hstart]
      decide
    · rw [htotal]
      decide
  refine hmeter.not_agrees_after_free hrange hfresh.writable ?_ (hclaim d' v hfmt hopen [.free 19 1])
  rw [hmeter.allUsed_iff hrange, vacancies_eq_zero]
  intro hall
  have hbit := hall 0 (by decide)
  rw [Nat.add_zero, hfresh.bit (Nat.lt_of_succ_le hrange.rel_le), fill_of_notMem] at hbit
  · cases hbit
  · unfold Superblock.relOf
    rw [hstart]
    decide

end OwStorage.Usfs
