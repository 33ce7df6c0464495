import OwStorage.Usfs.Lemmas.Format

/-!
# 途中で失敗した割り当てと解放

印はビットマップのブロックごとに書かれ、失敗しても書き終えたブロックは戻されない。呼び出しが失敗のときに何も変えないのは、
書き換える印が一つのブロックに収まるときである。
-/

namespace OwStorage.Usfs

open Lib Prog

/-- 誤りを返したときは、ビットマップも空きの数も変わらない。 -/
def AtomicAt (op : RunOp) (v : Vol) : Prop :=
  ∀ e v', op.run v = (.error e, v') →
    (∀ b ∈ v.sb.bitmapRegion, v'.dev.disk b = v.dev.disk b) ∧ v'.sb.freeBlocks = v.sb.freeBlocks

/-- 最後のブロックのほかに、書き換わる印がない。 -/
def OneSheet (v : Vol) : RunOp → Prop
  | .alloc count => ∀ s, (∀ e, ¬ AllocRefused v.sb count e) →
      FirstFit (bitOf v.dev.disk v.sb) v.sb.dataCount count.toNat s → s / 32768 = (s + count.toNat - 1) / 32768
  | .free first count => v.sb.InRange first count → volumeWritable v.sb = .ok () →
      ∀ r, v.sb.relOf first ≤ r → r < v.sb.relOf first + count.toNat →
        r / 32768 < (v.sb.relOf first + count.toNat - 1) / 32768 → bitOf v.dev.disk v.sb r = false

/-- `k` 回目の呼び出しから先がすべて失敗する。 -/
def failFrom (k : Nat) : Nat → Option HtlErr := fun j => if j < k then none else some .io

section

variable {v v' : Vol} {s len i m k : Nat} {used : Bool}

theorem calm_failFrom {d : HtlDevice} (h : d.fault = failFrom (d.clock + k)) {n : Nat} : d.Calm n ↔ n ≤ k := by
  have hiff : ∀ j, d.fault (d.clock + j) = none ↔ j < k := by
    intro j
    rw [h, failFrom]
    by_cases hj : j < k
    · rw [if_pos (by omega)]
      exact iff_of_true rfl hj
    · rw [if_neg (by omega)]
      exact iff_of_false (Option.some_ne_none _) hj
  refine ⟨fun hc => ?_, fun hn j hj => (hiff j).mpr (by omega)⟩
  by_contra hlt
  exact absurd ((hiff k).mp (hc k (by omega))) (Nat.lt_irrefl k)

/-- 失敗の始まる番号が、書き終えたブロックの数を決める。 -/
theorem Torn.eq_of_failFrom (h : Torn v v' s len used i) (hf : v.dev.fault = failFrom (v.dev.clock + 2 * m))
    (hw : v.dev.writeProtect = 0) : i = m := by
  have hlow := (calm_failFrom hf).mp h.calm
  have hhigh : ¬ 2 * i + 2 ≤ 2 * m := fun hle => h.cut ⟨(calm_failFrom hf).mpr hle, hw⟩
  omega

/-- 書き終えた範囲にあって `used` でなかった印は、変わっている。 -/
theorem Marked.changes (h : Marked v v' s len used) (hl : Layout v.sb) {r : Nat} (hin : s ≤ r ∧ r < s + len)
    (hr : r < v.sb.bitmapBlockCount.toNat * 32768) (hwas : bitOf v.dev.disk v.sb r = ! used) :
    ¬ ∀ b ∈ v.sb.bitmapRegion, v'.dev.disk b = v.dev.disk b := by
  intro hsame
  have hbit := h.bits r hr
  rw [bitOf_congr hl hsame hr, fill_of_mem hin, hwas] at hbit
  cases used <;> cases hbit

/-- 書き換えた印がもとから `used` なら、ビットマップは変わらない。 -/
theorem Marked.unchanged (h : Marked v v' s len used) (hl : Layout v.sb)
    (hwas : ∀ r, s ≤ r → r < s + len → bitOf v.dev.disk v.sb r = used) :
    ∀ b ∈ v.sb.bitmapRegion, v'.dev.disk b = v.dev.disk b := by
  refine bitmap_eq_of_bitOf hl fun r hr => ?_
  rw [h.bits r hr]
  by_cases hin : s ≤ r ∧ r < s + len
  · rw [fill_of_mem hin, hwas r hin.1 hin.2]
  · exact fill_of_notMem hin

theorem Torn.zero_of_protected (h : Torn v v' s len used i) (hw : v.dev.writeProtect ≠ 0) : i = 0 := by
  by_contra hi
  exact hw (h.unprotected (Nat.pos_of_ne_zero hi))

/-- 一ブロックも書き終えていない。 -/
theorem Marked.unwritten (h : Marked v v' s (markedLen s len 0) used) (hl : Layout v.sb) :
    ∀ b ∈ v.sb.bitmapRegion, v'.dev.disk b = v.dev.disk b := by
  rw [markedLen_zero] at h
  exact h.unchanged hl fun r hlow hhigh => absurd hhigh (by omega)

end

section

variable {v : Vol} (hl : Layout v.sb) (hreads : ReadsBitmap v.dev.toHtlConfig v.sb)
include hl hreads

/-- 割り当てが誤りを返した後。 -/
theorem atomicAt_alloc {count : UInt32} (h : v.dev.writeProtect ≠ 0 ∨ OneSheet v (.alloc count)) :
    AtomicAt (.alloc count) v := by
  intro e v' hrun
  obtain ⟨hsb, hstop⟩ := (wp_run_alloc (blockAlloc_spec hl count hreads)).error hrun
  refine ⟨?_, congrArg Superblock.freeBlocks hsb⟩
  rcases hstop with ⟨⟨c, rfl⟩, _⟩ | ⟨_, hopen, s, i, hfirst, _, htorn⟩
  · exact fun _ _ => rfl
  · have hi : i = 0 := by
      rcases h with hw | hone
      · exact htorn.zero_of_protected hw
      · have hlt := htorn.lt
        have := hone s hopen hfirst
        unfold spanned at hlt
        omega
    rw [hi] at htorn
    exact htorn.marked.unwritten hl

/-- 解放が誤りを返した後。 -/
theorem atomicAt_free {first count : UInt32} (h : v.dev.writeProtect ≠ 0 ∨ OneSheet v (.free first count)) :
    AtomicAt (.free first count) v := by
  intro e v' hrun
  obtain ⟨hsb, hstop⟩ := (wp_run_free (blockFree_spec hl first count hreads)).error hrun
  refine ⟨?_, congrArg Superblock.freeBlocks hsb⟩
  rcases hstop with ⟨rfl, _⟩ | ⟨_, hrange, hopen, i, htorn⟩
  · exact fun _ _ => rfl
  · rcases h with hw | hone
    · have hmarked := htorn.marked
      rw [htorn.zero_of_protected hw] at hmarked
      exact hmarked.unwritten hl
    · refine htorn.marked.unchanged hl fun r hlow hhigh => ?_
      have hlt := htorn.lt
      unfold spanned at hlt
      unfold markedLen at hhigh
      exact hone hrange hopen r hlow (by omega) (by omega)

/-- 二つ目のブロックから先が失敗する装置では、割り当ては一つ目のブロックだけを書いて終わる。 -/
theorem not_atomicAt_alloc {count : UInt32} {s : Nat} (hw : v.dev.writeProtect = 0)
    (hf : v.dev.fault = failFrom (v.dev.clock + (readsAt (s + count.toNat) + 2)))
    (hopen : ∀ e, ¬ AllocRefused v.sb count e)
    (hfirst : FirstFit (bitOf v.dev.disk v.sb) v.sb.dataCount count.toNat s)
    (hspan : s / 32768 < (s + count.toNat - 1) / 32768) : ¬ AtomicAt (.alloc count) v := by
  intro hatomic
  have hclock : ∀ c, (v.atClock c).dev.fault = v.dev.fault := fun _ => rfl
  have hmarkFault : (v.atClock (v.dev.clock + readsAt (s + count.toNat))).dev.fault =
      failFrom ((v.atClock (v.dev.clock + readsAt (s + count.toNat))).dev.clock + 2 * 1) := by
    rw [hclock, hf, ← Nat.add_assoc]
    rfl
  have hspec := wp_run_alloc (blockAlloc_spec hl count hreads)
  rcases hrun : RunOp.run (.alloc count) v with ⟨r, v'⟩
  cases r with
  | ok r =>
      obtain ⟨b, _, _, s', hfirst', _, _, _, hcalm⟩ := hspec.ok hrun
      rw [hfirst'.unique hfirst, calm_failFrom hmarkFault] at hcalm
      unfold spanned at hcalm
      omega
  | error e =>
      obtain ⟨_, ⟨_, href | ⟨_, hno⟩ | ⟨_, q, hq, hnone⟩⟩ | ⟨_, _, s', i, hfirst', _, htorn⟩⟩ := hspec.error hrun
      · exact hopen e href
      · exact hno ⟨s, hfirst⟩
      · rw [hf, failFrom] at hq
        refine hnone s ?_ hfirst.vacant
        have : ¬ v.dev.clock + q < v.dev.clock + (readsAt (s + count.toNat) + 2) := fun hlt => hq (if_pos hlt)
        unfold readsAt at this
        omega
      · obtain rfl := hfirst'.unique hfirst
        obtain rfl := htorn.eq_of_failFrom hmarkFault hw
        have hfits := hfirst.fits
        refine htorn.marked.of_atClock.changes hl (r := s') ?_ (lt_bitmap_of_lt_data hl (by omega)) ?_
          (hatomic e v' hrun).1
        · unfold markedLen
          omega
        · have hvac := hfirst.vacant 0 (by omega)
          rwa [Nat.add_zero] at hvac

/-- 印の残る範囲の途中で失敗する装置では、解放はその印を消してから終わる。 -/
theorem not_atomicAt_free {first count : UInt32} {r : Nat} (hw : v.dev.writeProtect = 0)
    (hf : v.dev.fault =
      failFrom (v.dev.clock + 2 * (r / 32768 + 1 - v.sb.relOf first / 32768)))
    (hrange : v.sb.InRange first count) (hopen : volumeWritable v.sb = .ok ()) (hlow : v.sb.relOf first ≤ r)
    (hhigh : r < v.sb.relOf first + count.toNat)
    (hspan : r / 32768 < (v.sb.relOf first + count.toNat - 1) / 32768) (hset : bitOf v.dev.disk v.sb r = true) :
    ¬ AtomicAt (.free first count) v := by
  intro hatomic
  have hspec := wp_run_free (blockFree_spec hl first count hreads)
  have hfit := hrange.rel_le
  rcases hrun : RunOp.run (.free first count) v with ⟨res, v'⟩
  cases res with
  | ok res =>
      rcases hspec.ok hrun with ⟨hz, _⟩ | ⟨_, _, _, _, hcalm⟩
      · have hpos := hrange.pos
        rw [hz] at hpos
        exact Nat.lt_irrefl 0 hpos
      · rw [calm_failFrom hf] at hcalm
        unfold spanned at hcalm
        omega
  | error e =>
      obtain ⟨_, ⟨_, ⟨_, hout⟩ | hshut⟩ | ⟨_, _, _, i, htorn⟩⟩ := hspec.error hrun
      · exact hout hrange
      · rw [hopen] at hshut
        cases hshut
      · obtain rfl := htorn.eq_of_failFrom hf hw
        refine htorn.marked.changes hl (r := r) ⟨hlow, ?_⟩ (lt_bitmap_of_lt_data hl (by omega)) hset
          (hatomic e v' hrun).1
        unfold markedLen
        omega

end

/-- どんな失敗の起こり方でも途中で止まった呼び出しが何も変えないのは、書き換える印が一つのブロックに収まるとき、
かつそのときに限る。 -/
theorem run_atomic_iff {v : Vol} (hl : Layout v.sb) (hreads : ReadsBitmap v.dev.toHtlConfig v.sb) (op : RunOp) :
    (∀ fault, AtomicAt op (v.faulty fault)) ↔ v.dev.writeProtect ≠ 0 ∨ OneSheet v op := by
  have hreads' : ∀ fault, ReadsBitmap (v.faulty fault).dev.toHtlConfig (v.faulty fault).sb :=
    fun _ => ⟨fun b hb => ⟨(hreads.reads b hb).valid, (hreads.reads b hb).inRange⟩, hreads.wholeBlocks⟩
  constructor
  · intro hatomic
    by_contra hno
    obtain ⟨hw, hno⟩ := not_or.mp hno
    rw [not_not] at hw
    cases op with
    | alloc count =>
        simp only [OneSheet, not_forall] at hno
        obtain ⟨s, hopen, hfirst, hspan⟩ := hno
        have hpos := count_pos_of_open hopen
        have hle : s / 32768 ≤ (s + count.toNat - 1) / 32768 := Nat.div_le_div_right (by omega)
        have hbad := not_atomicAt_alloc (v := v.faulty (failFrom (v.dev.clock + (readsAt (s + count.toNat) + 2)))) hl
          (hreads' _) hw rfl hopen hfirst (by omega)
        exact hbad (hatomic _)
    | free first count =>
        simp only [OneSheet, not_forall] at hno
        obtain ⟨hrange, hopen, r, hlow, hhigh, hspan, hset⟩ := hno
        have hbad := not_atomicAt_free
          (v := v.faulty (failFrom (v.dev.clock + 2 * (r / 32768 + 1 - v.sb.relOf first / 32768)))) hl
            (hreads' _) hw rfl
          hrange hopen hlow hhigh hspan ((Bool.not_eq_false _).mp hset)
        exact hbad (hatomic _)
  · intro h fault
    cases op with
    | alloc count => exact atomicAt_alloc (v := v.faulty fault) hl (hreads' fault) h
    | free first count => exact atomicAt_free (v := v.faulty fault) hl (hreads' fault) h

/-- 小さなボリュームでは、ビットマップは一ブロックしかない。 -/
theorem run_atomic_small :
    ∃ d' v, formatVolume ⟨0, 0⟩ 64 none (zeroDevice 0) = (.ok (), d') ∧ Opened d' v ∧
      ∀ fault, AtomicAt (.alloc 3) (v.faulty fault) := by
  obtain ⟨d', v, hfmt, hopen⟩ := exists_opened_zeroDevice ⟨0, 0⟩ (n := 0) (.inl rfl)
  obtain ⟨b, nonce, hb, _, hfresh, _⟩ := fresh_of_format (reliable_zeroDevice 0) (by decide) hfmt hopen
  obtain rfl : b = 1 := Option.some.inj (hb.symm.trans layoutBitmapBlocks_small)
  have hr := hfresh.ready
  refine ⟨d', v, hfmt, hopen, (run_atomic_iff hr.layout (hr.serves.bitmap hr.layout).reads _).mpr
    (.inr fun s _ hs => ?_)⟩
  have hfits := hs.fits
  unfold Superblock.dataCount at hfits
  rw [hfresh.totalBlocks_eq, hfresh.dataRegionStart_eq] at hfits
  have hfits : s + 3 ≤ 46 := hfits
  change s / 32768 = (s + 3 - 1) / 32768
  omega

theorem layoutBitmapBlocks_two : layoutBitmapBlocks 40000 = some 2 := by
  unfold layoutBitmapBlocks layoutFrom
  rw [if_neg (by decide), if_pos (by decide), show bitmapBlocksNeeded 40000 1 = 2 by decide]
  unfold layoutFrom
  decide

/-- 二つ目のビットマップのブロックから先が失敗すると、一つ目のブロックだけに印が残る。 -/
theorem run_not_atomic_two_blocks :
    ¬ ∀ d' v, formatVolume ⟨0, 0⟩ 40000 none (zeroDevice 0) = (.ok (), d') → Opened d' v →
      ∀ fault, AtomicAt (.alloc 35000) (v.faulty fault) := by
  intro hclaim
  have hexists : ∃ d' v, formatVolume ⟨0, 0⟩ 40000 none (zeroDevice 0) = (.ok (), d') ∧ Opened d' v :=
    exists_opened (reliable_zeroDevice 0) (by decide) (by decide) fun _ _ _ _ => writes_zeroDevice (.inl rfl)
  obtain ⟨d', v, hfmt, hopen⟩ := hexists
  obtain ⟨b, nonce, hb, hunused, hfresh, hconfig⟩ := fresh_of_format (reliable_zeroDevice 0) (by decide) hfmt hopen
  obtain rfl : b = 2 := Option.some.inj (hb.symm.trans layoutBitmapBlocks_two)
  have hr := hfresh.ready
  have hcount : v.sb.dataCount = 39981 := by
    unfold Superblock.dataCount
    rw [hfresh.totalBlocks_eq, hfresh.dataRegionStart_eq]
    rfl
  have hlen : (35000 : UInt32).toNat = 35000 := by decide
  have hfirst : FirstFit (bitOf v.dev.disk v.sb) v.sb.dataCount (35000 : UInt32).toNat 1 := by
    rw [hlen]
    refine ⟨by omega, fun i hi => ?_, fun s hs hvac => ?_⟩
    · rw [hfresh.bit (by omega), fill_of_notMem (by omega)]
    · have hroot := hvac 0 (by omega)
      rw [hfresh.bit (by omega), fill_of_mem (by omega)] at hroot
      cases hroot
  have haccept : ∀ e, ¬ AllocRefused v.sb 35000 e := by
    rintro e (⟨_, hz | hshort | hempty⟩ | hshut)
    · cases hz
    · have hfree : v.sb.freeBlocks = 40000 - (17 + 2) - 1 := congrArg View.freeBlocks hfresh.view
      rw [hfree] at hshort
      exact absurd hshort (by decide)
    · rw [hfresh.totalBlocks_eq, hfresh.dataRegionStart_eq] at hempty
      exact absurd hempty (by change ¬ (40000 : UInt32) ≤ 17 + 2; decide)
    · rw [hfresh.writable] at hshut
      cases hshut
  have hunprotected : v.dev.writeProtect = 0 := congrArg HtlConfig.writeProtect hconfig
  have hspan : 1 / 32768 < (1 + (35000 : UInt32).toNat - 1) / 32768 := by
    rw [hlen]
    decide
  have hreads : ∀ fault, ReadsBitmap (v.faulty fault).dev.toHtlConfig (v.faulty fault).sb := by
    refine fun _ => ⟨fun b hb => ?_, hr.serves.wholeBlocks⟩
    have hread := (hr.serves.bitmap hr.layout).reads.reads b hb
    exact ⟨hread.valid, hread.inRange⟩
  clear hlen
  generalize (35000 : UInt32) = count at *
  exact not_atomicAt_alloc (v := v.faulty (failFrom (v.dev.clock + (readsAt (1 + count.toNat) + 2)))) hr.layout
    (hreads _) hunprotected rfl haccept hfirst hspan (hclaim d' v hfmt hopen _)

end OwStorage.Usfs
