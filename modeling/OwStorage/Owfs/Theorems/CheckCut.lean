import OwStorage.Owfs.Theorems.SelfCheck

/-!
# 途中で止まった検査

検査は、ロックの旗を書いてから表を読み、誤りがなければ旗を下ろして書く。どの書き込みの直後に止まっても、マウントが通るのは
旗を下ろした最後の書き込みの後だけである。ただし誤りの数は 32 ビットで回るので、誤りがちょうど 2^32 個あると、検査は
それを 0 個とみなして旗を下ろす。
-/

namespace OwStorage.Owfs

open Lib Prog

/-- ロックの旗を書いた直後のボリューム。 -/
def lockedVol (v : Vol) : Vol := (superblockWrite { v with sb := setFlags stateLocked v.sb }).2

/-- `w` から、スロットを前から `i` 個読み、どれも種類がないか検査値が合った。`c` はそのときの装置の時計である。 -/
inductive SlotsRead (w : Vol) : Nat → Nat → Prop where
  | start : SlotsRead w 0 w.dev.clock
  | next {i c c' : Nat} {ino : Inode} (h : SlotsRead w i c)
      (hread : inodeRead (UInt32.ofNat i) (w.atClock c) = (.ok ino, w.atClock c'))
      (hgood : ino.entryType = 0 ∨ inodeVerifyChecksum ino = true) : SlotsRead w (i + 1) c'

/-- 検査が `w` の表と要約を順に読み、どれも合っていた。 -/
structure Verified (w : Vol) : Prop where
  scan : ∃ c c₁ c₂ sum, SlotsRead w w.sb.totalInodes.toNat c ∧
    bitmapComputeFletcher64 (w.atClock c) = (.ok sum, w.atClock c₁) ∧
    (w.sb.fletcher64Bitmap = 0 ∨ sum = w.sb.fletcher64Bitmap) ∧
    bitmapCountFree (w.atClock c₁) = (.ok w.sb.freeBlocks, w.atClock c₂)

/-- 旗を下ろす最後の書き込みの後のディスク。 -/
def clearedDisk (v : Vol) : Disk :=
  Function.update (lockedVol v).dev.disk superblockBlock (checkedSb v.sb).sealed.toBlock

/-- 検査の書き込みのどこで止まっても、マウントが通るのは、すべてが合っていて、最後の書き込みが効いた後だけである。 -/
def CutGuarded (v : Vol) : Prop :=
  ∀ new k, (runCheck v).2.dev.trail = new ++ v.dev.trail → k ∈ new →
    ∀ d sb₀, d.disk = k → (mount ⟨d, sb₀⟩).1 = .ok () →
      Verified (lockedVol v) ∧ k = clearedDisk v ∧ new = [clearedDisk v, (lockedVol v).dev.disk]

/-- 合わないものの数。検査と違って、回らない。 -/
def discrepancies (v : Vol) : Nat :=
  Nat.count (Corrupt v.dev.disk v.sb) v.sb.totalInodes.toNat + (if SumAgrees v then 0 else 1) +
    (if UInt32.ofNat (freeCount v.dev.disk v.sb) = v.sb.freeBlocks then 0 else 1)

section

variable {v : Vol} {s : CheckState}

/-! ## 表と要約の検査 -/

/-- 領域の並びを問わない、inode の読み取り。 -/
theorem inodeRead_any (n : UInt32) :
    wp (inodeRead n)
      (fun ino v' => ino = inodeAt v.dev.disk v.sb n ∧
      (ino.entryType = 0 ∨ inodeVerifyChecksum ino = true) ∧ Still v v')
      (fun e v' => (e = .checksumMismatch ∧ (inodeAt v.dev.disk v.sb n).entryType ≠ 0 ∧
          inodeVerifyChecksum (inodeAt v.dev.disk v.sb n) = false ∨
        e = .notFound ∧ n ≥ v.sb.totalInodes ∨ e = .io) ∧ Still v v') v := by
  unfold inodeRead inodeLoad
  simp only [wp_bind, wp_get, wp_failIf, wp_pure]
  refine ⟨fun hn => ⟨.inr (.inl ⟨trivial, hn⟩), refl_of Still v⟩, fun _ => ?_⟩
  refine wp_readBlk (fun c _ => ⟨fun hbad => ?_, fun hok => ?_⟩) (fun c _ => ⟨.inr (.inr rfl), c, rfl⟩)
  · refine ⟨.inl ⟨trivial, hbad.1, ?_⟩, c, rfl⟩
    have hfalse := hbad.2
    rwa [Bool.not_eq_true'] at hfalse
  · refine ⟨rfl, ?_, c, rfl⟩
    by_cases ht : (inodeIn (v.dev.disk (inodeBlockOffset v.sb n)) n).entryType = 0
    · exact .inl ht
    · refine .inr ((Bool.not_eq_false _).mp fun hfalse => hok ⟨ht, ?_⟩)
      rwa [Bool.not_eq_true']

/-- 表を終わりまで読んだ検査は、検査値の合わない inode を数えている。 -/
theorem checkInodes_walk :
    wp checkInodes
      (fun _ s' => ∃ c, s'.vol = s.vol.atClock c ∧
        s'.corruptCount = s.corruptCount +
          UInt32.ofNat (Nat.count (Corrupt s.vol.dev.disk s.vol.sb) s.vol.sb.totalInodes.toNat) ∧
        (Nat.count (Corrupt s.vol.dev.disk s.vol.sb) s.vol.sb.totalInodes.toNat = 0 →
          SlotsRead s.vol s.vol.sb.totalInodes.toNat c))
      (fun _ s' => Still s.vol s'.vol) s := by
  unfold checkInodes
  rw [wp_bind, wp_get]
  refine wp_forUpto (fun i s' => ∃ c, s'.vol = s.vol.atClock c ∧
      s'.corruptCount = s.corruptCount + UInt32.ofNat (Nat.count (Corrupt s.vol.dev.disk s.vol.sb) i) ∧
      (Nat.count (Corrupt s.vol.dev.disk s.vol.sb) i = 0 → SlotsRead s.vol i c))
    ⟨s.vol.dev.clock, rfl, by simp, fun _ => .start⟩ ?_ (fun _ h => h)
  rintro i ⟨_, k⟩ hi ⟨c, rfl, hk, hwalk⟩
  have hk : k = s.corruptCount + UInt32.ofNat (Nat.count (Corrupt s.vol.dev.disk s.vol.sb) i) := hk
  have hlt := s.vol.sb.totalInodes.toNat_lt
  have hidx : (UInt32.ofNat i).toNat = i := toNat_ofNat_lt (by omega)
  rw [wp_bind, wp_attempt, wp_checkVol]
  refine ((inodeRead_any (v := s.vol.atClock c) (UInt32.ofNat i)).and wp_run).mono ?_ ?_
  · rintro ino _ ⟨⟨hino, hgood, c', rfl⟩, hrun⟩
    have hclean : ¬ Corrupt s.vol.dev.disk s.vol.sb i := by
      rintro ⟨ht, hbad⟩
      rw [hino] at hgood
      rcases hgood with hz | hz
      · exact ht hz
      · exact absurd (hz.symm.trans hbad) (by decide)
    refine ⟨c', rfl, ?_, fun hz => ?_⟩
    · rw [Nat.count_succ, if_neg hclean, Nat.add_zero]
      exact hk
    · rw [Nat.count_succ, if_neg hclean, Nat.add_zero] at hz
      exact .next (hwalk hz) hrun hgood
  · rintro e _ ⟨⟨⟨rfl, hbad⟩ | ⟨rfl, hno⟩ | rfl, c', rfl⟩, _⟩
    · have hcorrupt : Corrupt s.vol.dev.disk s.vol.sb i := hbad
      refine ⟨c', rfl, ?_, fun hz => ?_⟩
      · rw [Nat.count_succ, if_pos hcorrupt, UInt32.ofNat_add, ← UInt32.add_assoc, ← hk]
        rfl
      · rw [Nat.count_succ, if_pos hcorrupt] at hz
        exact absurd hz (Nat.succ_ne_zero _)
    · have hno : s.vol.sb.totalInodes ≤ UInt32.ofNat i := hno
      rw [UInt32.le_iff_toNat_le, hidx] at hno
      omega
    · exact ⟨c', rfl⟩

/-- 表と要約を調べ終えた検査の数えた誤り。数が 0 なら、すべてが合っている。 -/
theorem scanVolume_walk :
    wp scanVolume
      (fun _ s' => Still s.vol s'.vol ∧ ∃ more ≤ 2,
        s'.corruptCount = s.corruptCount +
          UInt32.ofNat (Nat.count (Corrupt s.vol.dev.disk s.vol.sb) s.vol.sb.totalInodes.toNat + more) ∧
        (Nat.count (Corrupt s.vol.dev.disk s.vol.sb) s.vol.sb.totalInodes.toNat + more = 0 → Verified s.vol))
      (fun _ s' => Still s.vol s'.vol) s := by
  unfold scanVolume
  rw [wp_bind]
  refine checkInodes_walk.mono ?_ (fun _ _ h => h)
  rintro _ ⟨_, k₁⟩ ⟨c, rfl, hk₁, hwalk⟩
  have hk₁ : k₁ = s.corruptCount + _ := hk₁
  rw [wp_bind, wp_checkVol]
  refine ((still_bitmapComputeFletcher64 (s.vol.atClock c)).and wp_run).mono ?_ (fun _ _ h => h.1)
  rintro sum _ ⟨⟨c₁, rfl⟩, hsum⟩
  have hfree : ∀ {k₂ : UInt32} {m : Nat}, m ≤ 1 →
      k₂ = s.corruptCount + UInt32.ofNat (Nat.count (Corrupt s.vol.dev.disk s.vol.sb) s.vol.sb.totalInodes.toNat + m) →
      (m = 0 → s.vol.sb.fletcher64Bitmap = 0 ∨ sum = s.vol.sb.fletcher64Bitmap) →
      wp (checkVol bitmapCountFree >>= fun countedFree =>
          whenever (countedFree ≠ s.vol.sb.freeBlocks) countCorrupt)
        (fun _ s' => Still s.vol s'.vol ∧ ∃ more ≤ 2,
          s'.corruptCount = s.corruptCount +
            UInt32.ofNat (Nat.count (Corrupt s.vol.dev.disk s.vol.sb) s.vol.sb.totalInodes.toNat + more) ∧
          (Nat.count (Corrupt s.vol.dev.disk s.vol.sb) s.vol.sb.totalInodes.toNat + more = 0 → Verified s.vol))
        (fun _ s' => Still s.vol s'.vol) ⟨s.vol.atClock c₁, k₂⟩ := by
    intro k₂ m hm hk₂ hagree
    rw [wp_bind, wp_checkVol]
    refine ((still_bitmapCountFree (s.vol.atClock c₁)).and wp_run).mono ?_ (fun _ _ h => h.1)
    rintro free _ ⟨⟨c₂, rfl⟩, hcount⟩
    rw [wp_whenever, wp_countCorrupt]
    refine ⟨fun _ => ⟨⟨c₂, rfl⟩, m + 1, by omega, ?_, fun hz => by omega⟩, fun heq =>
      ⟨⟨c₂, rfl⟩, m, by omega, hk₂, fun hz => ?_⟩⟩
    · change k₂ + 1 = _
      rw [← Nat.add_assoc, UInt32.ofNat_add, ← UInt32.add_assoc, ← hk₂]
      rfl
    · have heq : free = s.vol.sb.freeBlocks := not_not.mp heq
      rw [heq] at hcount
      exact ⟨c, c₁, c₂, sum, hwalk (by omega), hsum, hagree (by omega), hcount⟩
  rw [wp_bind, wp_get, wp_bind, wp_whenever, wp_countCorrupt]
  refine ⟨fun _ => ?_, fun hno => ?_⟩
  · refine hfree (m := 1) le_rfl ?_ (fun h => absurd h (by decide))
    change k₁ + 1 = _
    rw [UInt32.ofNat_add, ← UInt32.add_assoc, ← hk₁]
    rfl
  · refine hfree (m := 0) (by omega) hk₁ fun _ => ?_
    by_contra hne
    rw [not_or] at hne
    exact hno hne

/-! ## 書き込みの記録 -/

/-- ディスク `k` のスーパーブロックには、マウントを断らせる旗が立っている。 -/
def Barred (k : Disk) : Prop :=
  (Superblock.ofBlock (k superblockBlock)).stateFlags &&& (stateDirty ||| stateLocked ||| stateError) ≠ 0

theorem barred_update {disk : Disk} {sb : Superblock}
    (h : sb.stateFlags &&& (stateDirty ||| stateLocked ||| stateError) ≠ 0) :
    Barred (Function.update disk superblockBlock sb.toBlock) := by
  unfold Barred
  rw [Function.update_self, ofBlock_toBlock]
  exact h

theorem not_barred_of_mount {d : HtlDevice} {sb₀ : Superblock} (h : (mount ⟨d, sb₀⟩).1 = .ok ()) : ¬ Barred d.disk := by
  obtain ⟨_, herr, hdirty, _⟩ := mount_ok_spec.ok (run_eq h)
  intro hno
  rcases and_or_ne_zero.mp hno with hno | hno
  · exact hno hdirty
  · exact hno herr

/-- 検査値の合わない inode が、誤りの数の回らないほど少ない。 -/
def FewCorrupt (v : Vol) : Prop :=
  Nat.count (Corrupt (lockedVol v).dev.disk v.sb) v.sb.totalInodes.toNat + 2 < 2 ^ 32

/-- 旗の立ったスーパーブロックを、結果を問わずに書く。 -/
theorem persist_writes {v : Vol} (h : v.sb.stateFlags &&& (stateDirty ||| stateLocked ||| stateError) ≠ 0) :
    wp persist (fun _ v' => ∃ new, v'.dev.trail = new ++ v.dev.trail ∧ ∀ k ∈ new, Barred k) (fun _ _ => False) v := by
  unfold persist
  simp only [wp_bind, wp_attempt, wp_pure]
  have hdone : ∀ v' : Vol, (∃ new, v'.dev.trail = new ++ v.dev.trail ∧ ∀ k ∈ new, Barred k) →
      wp (flushBlk : OwfsM Unit) (fun _ v' => ∃ new, v'.dev.trail = new ++ v.dev.trail ∧ ∀ k ∈ new, Barred k)
        (fun _ v' => ∃ new, v'.dev.trail = new ++ v.dev.trail ∧ ∀ k ∈ new, Barred k) v' :=
    fun v' hv' => wp_flushBlk (fun _ => hv') (fun _ _ => hv')
  refine wp_superblockWrite (fun c _ => hdone _ ⟨[_], rfl, fun k hk => ?_⟩)
    (fun _ c _ _ => hdone _ ⟨[], rfl, fun k hk => ?_⟩)
  · rw [List.mem_singleton.mp hk]
    exact barred_update h
  · exact absurd hk List.not_mem_nil

theorem barred_locked {c : Nat} : Barred (Vol.saved { v with sb := setFlags stateLocked v.sb } c).dev.disk :=
  barred_update (or_and_ne_zero.mpr (.inr (by decide)))

/-- 回らないほど少ない数は、32 ビットの数が 0 なら 0 である。 -/
theorem eq_zero_of_wrapped {n more : Nat} (h : (0 : UInt32) + UInt32.ofNat (n + more) = 0) (hmore : more ≤ 2)
    (hn : n + 2 < 2 ^ 32) : n + more = 0 := by
  rw [UInt32.zero_add] at h
  have hzero := congrArg UInt32.toNat h
  rwa [toNat_ofNat_lt (by omega)] at hzero

/-- ロックの旗の書き込み。 -/
theorem lock_writes :
    wp superblockWrite (fun _ v' => v' = lockedVol v ∧ ∃ c, v' = Vol.saved { v with sb := setFlags stateLocked v.sb } c)
      (fun _ v' => v'.dev.trail = v.dev.trail) { v with sb := setFlags stateLocked v.sb } := by
  have hwrite : wp superblockWrite (fun _ v' => ∃ c, v' = Vol.saved { v with sb := setFlags stateLocked v.sb } c)
      (fun _ v' => v'.dev.trail = v.dev.trail) { v with sb := setFlags stateLocked v.sb } :=
    wp_superblockWrite (fun c _ => ⟨c, rfl⟩) (fun _ _ _ _ => rfl)
  refine (hwrite.and wp_run).mono ?_ (fun _ _ h => h.1)
  rintro _ v' ⟨hc, hrun⟩
  refine ⟨?_, hc⟩
  unfold lockedVol
  rw [hrun]

/-- 通った検査は、旗を立てたディスクと下ろしたディスクを順に書く。通らない検査は、旗の立ったディスクだけを書く。 -/
theorem consistencyCheck_writes :
    wp consistencyCheck
      (fun _ s' => s'.vol.dev.trail = [clearedDisk s.vol, (lockedVol s.vol).dev.disk] ++ s.vol.dev.trail ∧
        Barred (lockedVol s.vol).dev.disk ∧ (FewCorrupt s.vol → Verified (lockedVol s.vol)))
      (fun _ s' => ∃ new, s'.vol.dev.trail = new ++ s.vol.dev.trail ∧ ∀ k ∈ new, Barred k) s := by
  unfold consistencyCheck
  simp only [wp_bind, wp_modify, wp_get, wp_ite, wp_checkVol, wp_modifySb, wp_countCorrupt, wp_throw]
  refine ⟨fun _ => ?_, fun _ => ?_⟩
  · have hflags : (setFlags (stateError ||| stateLocked) s.vol.sb).stateFlags &&&
        (stateDirty ||| stateLocked ||| stateError) ≠ 0 := or_and_ne_zero.mpr (.inr (by decide))
    exact (persist_writes (v := { s.vol with sb := setFlags (stateError ||| stateLocked) s.vol.sb }) hflags).mono
      (fun _ _ h => h) (fun _ _ h => h.elim)
  · refine lock_writes.mono ?_ ?_
    · rintro _ v₁ ⟨hlocked, c, hsaved⟩
      have htrail : v₁.dev.trail = [v₁.dev.disk] ++ s.vol.dev.trail := by
        rw [hsaved]
        rfl
      have hbar : Barred v₁.dev.disk := by
        rw [hsaved]
        exact barred_locked
      have hone : ∃ new, v₁.dev.trail = new ++ s.vol.dev.trail ∧ ∀ k ∈ new, Barred k :=
        ⟨[v₁.dev.disk], htrail, fun k hk => by rwa [List.mem_singleton.mp hk]⟩
      refine scanVolume_walk.mono ?_ ?_
      · rintro _ ⟨_, k⟩ ⟨⟨c', rfl⟩, more, hmore, hk, hfound⟩
        unfold concludeCheck
        simp only [wp_bind, wp_get, wp_ite, wp_checkVol, wp_modifySb, wp_throw]
        refine ⟨fun hz => ?_, fun _ => ?_⟩
        · refine wp_superblockWrite (fun c₂ _ => ?_) (fun _ c₂ _ _ => hone)
          rw [wp_attempt, wp_checkVol]
          have hsb : v₁.sb = lockedSb s.vol.sb := by
            rw [hsaved]
            rfl
          have hdone : (Vol.saved { v₁.atClock c' with
              sb := clearFlags (stateDirty ||| stateLocked ||| stateError) v₁.sb } c₂).dev.trail =
                [clearedDisk s.vol, (lockedVol s.vol).dev.disk] ++ s.vol.dev.trail ∧
              Barred (lockedVol s.vol).dev.disk ∧ (FewCorrupt s.vol → Verified (lockedVol s.vol)) := by
            refine ⟨?_, by rwa [← hlocked], fun hfew => ?_⟩
            · unfold clearedDisk checkedSb
              rw [← hlocked, ← hsb]
              exact congrArg (List.cons _) htrail
            · unfold FewCorrupt at hfew
              rw [← hlocked] at hfew ⊢
              rw [hsb] at hk hfound
              exact hfound (eq_zero_of_wrapped (hk.symm.trans hz) hmore hfew)
          exact wp_flushBlk (fun _ => hdone) (fun _ _ => hdone)
        · have hflags : (setFlags stateError v₁.sb).stateFlags &&& (stateDirty ||| stateLocked ||| stateError) ≠ 0 :=
            or_and_ne_zero.mpr (.inr (by decide))
          refine (persist_writes (v := { v₁.atClock c' with sb := setFlags stateError v₁.sb }) hflags).mono ?_
            (fun _ _ h => h.elim)
          rintro _ v' ⟨new, htrail', hnew⟩
          refine ⟨new ++ [v₁.dev.disk], ?_, fun k hk => ?_⟩
          · rw [htrail', List.append_assoc, ← htrail]
            rfl
          · rcases List.mem_append.mp hk with hk | hk
            · exact hnew k hk
            · rwa [List.mem_singleton.mp hk]
      · rintro _ ⟨_, k⟩ ⟨c', rfl⟩
        exact hone
    · intro _ v' htrail
      exact ⟨[], htrail, fun k hk => absurd hk List.not_mem_nil⟩

/-! ## 電源断の後のマウント -/

/-- 通った検査がすべてを調べ終えているなら、どこで止まった検査もボリュームを開けない。 -/
theorem cutGuarded_of_verified (hok : (runCheck v).1 = .ok () → Verified (lockedVol v)) : CutGuarded v := by
  intro new k htrail hk d sb₀ hd hmount
  have hopen : ¬ Barred k := by
    rw [← hd]
    exact not_barred_of_mount hmount
  have hwp : wp runCheck (fun _ v' => v'.dev.trail = [clearedDisk v, (lockedVol v).dev.disk] ++ v.dev.trail ∧
      Barred (lockedVol v).dev.disk) (fun _ v' => ∃ new, v'.dev.trail = new ++ v.dev.trail ∧ ∀ k ∈ new, Barred k) v :=
    wp_runCheck.mpr ((consistencyCheck_writes (s := ⟨v, 0⟩)).mono (fun _ _ h => ⟨h.1, h.2.1⟩) (fun _ _ h => h))
  unfold wp at hwp
  rcases hrun : runCheck v with ⟨r, v'⟩
  rw [hrun] at hwp htrail hok
  cases r with
  | ok _ =>
      obtain rfl : new = [clearedDisk v, (lockedVol v).dev.disk] := List.append_cancel_right (htrail.symm.trans hwp.1)
      refine ⟨hok rfl, ?_, rfl⟩
      rcases List.mem_cons.mp hk with hk | hk
      · exact hk
      · rw [List.mem_singleton.mp hk] at hopen
        exact absurd hwp.2 hopen
  | error e =>
      obtain ⟨new', htrail', hbarred⟩ := hwp
      obtain rfl : new = new' := List.append_cancel_right (htrail.symm.trans htrail')
      exact absurd (hbarred k hk) hopen

theorem verified_of_few (hfew : FewCorrupt v) (hok : (runCheck v).1 = .ok ()) : Verified (lockedVol v) := by
  have hwp : wp runCheck (fun _ _ => Verified (lockedVol v)) (fun _ _ => True) v :=
    wp_runCheck.mpr ((consistencyCheck_writes (s := ⟨v, 0⟩)).mono (fun _ _ h => h.2.2 hfew) (fun _ _ _ => trivial))
  exact hwp.ok (run_eq hok)

theorem SlotsRead.count_eq {w : Vol} {i c : Nat} (h : SlotsRead w i c) : Nat.count (Corrupt w.dev.disk w.sb) i = 0 := by
  induction h with
  | start => rfl
  | @next i c c' ino h hread hgood ih =>
      have hino := ((inodeRead_any (v := w.atClock c) (UInt32.ofNat i)).ok hread).1
      have hclean : ¬ Corrupt w.dev.disk w.sb i := by
        rintro ⟨ht, hbad⟩
        rw [hino] at hgood
        rcases hgood with hz | hz
        · exact ht hz
        · exact absurd (hz.symm.trans hbad) (by decide)
      rw [Nat.count_succ, ih, if_neg hclean]

/-- 検査の数える誤りは、回らない数の下の 32 ビットである。 -/
theorem findings_eq : findings v = UInt32.ofNat (discrepancies v) := by
  unfold findings discrepancies
  rw [UInt32.ofNat_add, UInt32.ofNat_add]
  split <;> split <;> rfl

theorem discrepancies_le : discrepancies v ≤ Nat.count (Corrupt v.dev.disk v.sb) v.sb.totalInodes.toNat + 2 := by
  unfold discrepancies
  split <;> split <;> omega

/-- ビットマップの検査値だけが違うときの数。 -/
theorem discrepancies_of_sum {n : Nat} (hsum : ¬ SumAgrees v)
    (hfree : UInt32.ofNat (freeCount v.dev.disk v.sb) = v.sb.freeBlocks)
    (hcount : Nat.count (Corrupt v.dev.disk v.sb) v.sb.totalInodes.toNat = n) : discrepancies v = n + 1 := by
  unfold discrepancies
  rw [if_neg hsum, if_pos hfree, hcount]

/-- 失敗のない装置では、ロックの旗は必ず書ける。 -/
theorem lockedVol_eq (h : Online v) :
    lockedVol v = Vol.saved { v with sb := setFlags stateLocked v.sb } (v.dev.clock + 1) := by
  unfold lockedVol
  rw [superblockWrite_faultFree (v := { v with sb := setFlags stateLocked v.sb }) h.faultFree h.writes_superblock]

/-- ロックの旗を書いても、検査値の合わない inode の数は変わらない。 -/
theorem count_lockedVol (h : Online v) :
    Nat.count (Corrupt (lockedVol v).dev.disk v.sb) v.sb.totalInodes.toNat =
      Nat.count (Corrupt v.dev.disk v.sb) v.sb.totalInodes.toNat := by
  rw [lockedVol_eq h]
  have hdev := evolves_saved (v := { v with sb := setFlags stateLocked v.sb }) (c := v.dev.clock + 1)
  exact count_resave h.layout (SameLedger.locked v.sb) hdev

/-- 誤りの数がちょうど 2^32 なら、検査は旗を下ろし、その後のマウントが通る。 -/
theorem cleared_of_wrapped (h : Online v) (hvalid : superblockValidate v.sb = true) (hwrap : discrepancies v = 2 ^ 32) :
    (runCheck v).2.dev.trail = [clearedDisk v, (lockedVol v).dev.disk] ++ v.dev.trail ∧
      ∀ sb₀, (mount ⟨{ v.dev with disk := clearedDisk v }, sb₀⟩).1 = .ok () := by
  have hfind : findings v = 0 := by
    rw [findings_eq, hwrap]
    decide
  have hcheck : wp consistencyCheck
      (fun _ s' => s'.vol.dev.trail = [clearedDisk v, (lockedVol v).dev.disk] ++ v.dev.trail)
        (fun _ _ => False) ⟨v, 0⟩ :=
    ((consistencyCheck_spec (s := ⟨v, 0⟩) h hvalid).and consistencyCheck_writes).mono
      (fun _ _ hs => hs.2.1) (fun _ _ hs => hs.1.2.1 hfind)
  obtain ⟨_, s', hrun, htrail⟩ := hcheck.exists_ok
  have hend : (runCheck v).2 = s'.vol := by
    unfold runCheck
    rw [hrun]
  refine ⟨by rw [hend, htrail], fun sb₀ => ?_⟩
  have hmark : diskSb ⟨{ v.dev with disk := clearedDisk v }, sb₀⟩ = (checkedSb v.sb).sealed := by
    change Superblock.ofBlock (clearedDisk v superblockBlock) = _
    unfold clearedDisk
    rw [Function.update_self, ofBlock_toBlock]
  have hclean := mt and_or_ne_zero.mpr (not_not.mpr (checkedSb_flags v.sb))
  rw [not_or, not_not, not_not] at hclean
  have hbrand : v.sb.Branded := branded_of_validate hvalid
  refine congrArg Prod.fst (mount_of_clean (v := ⟨{ v.dev with disk := clearedDisk v }, sb₀⟩) h.faultFree
    h.writes_superblock ?_ ?_ ?_)
  · rw [hmark]
    exact validate_sealed hbrand
  · rw [hmark]
    exact hclean.2
  · rw [hmark]
    exact hclean.1

/-- そのとき、旗を下ろした検査は、合わない inode を見逃している。 -/
theorem not_cutGuarded_of_wrapped (h : Online v) (hvalid : superblockValidate v.sb = true)
    (hwrap : discrepancies v = 2 ^ 32) : ¬ CutGuarded v := by
  intro hguard
  obtain ⟨htrail, hmount⟩ := cleared_of_wrapped h hvalid hwrap
  obtain ⟨hscan, _⟩ := hguard _ _ htrail List.mem_cons_self { v.dev with disk := clearedDisk v } v.sb rfl (hmount v.sb)
  obtain ⟨c, c₁, c₂, sum, hslots, _⟩ := hscan.scan
  have hcount := hslots.count_eq
  have hsb : (lockedVol v).sb = lockedSb v.sb := by
    rw [lockedVol_eq h]
    rfl
  rw [hsb] at hcount
  have hcount : Nat.count (Corrupt (lockedVol v).dev.disk v.sb) v.sb.totalInodes.toNat = 0 := hcount
  have hle := discrepancies_le (v := v)
  rw [← count_lockedVol h] at hle
  omega

/-- 誤りの数が 2^32 でなければ、通った検査の数えた誤りは本当に 0 個である。 -/
theorem cutGuarded_of_unwrapped (h : Online v) (hvalid : superblockValidate v.sb = true)
    (hne : discrepancies v ≠ 2 ^ 32) : CutGuarded v := by
  refine cutGuarded_of_verified fun hok => verified_of_few ?_ hok
  have hfind : findings v = 0 := by
    have hwp : wp runCheck (fun _ _ => findings v = 0) (fun _ _ => True) v :=
      wp_runCheck.mpr ((consistencyCheck_spec (s := ⟨v, 0⟩) h hvalid).mono (fun _ _ hs => hs.1) (fun _ _ _ => trivial))
    exact hwp.ok (run_eq hok)
  have hmod : discrepancies v % 2 ^ 32 = 0 := by
    rw [findings_eq] at hfind
    exact (UInt32.toNat_ofNat').symm.trans (congrArg UInt32.toNat hfind)
  have hle := discrepancies_le (v := v)
  have hge : Nat.count (Corrupt v.dev.disk v.sb) v.sb.totalInodes.toNat ≤ discrepancies v := by
    unfold discrepancies
    omega
  have htotal : Nat.count (Corrupt v.dev.disk v.sb) v.sb.totalInodes.toNat ≤ v.sb.totalInodes.toNat := Nat.count_le _
  have hlt := v.sb.totalInodes.toNat_lt
  unfold FewCorrupt
  rw [count_lockedVol h]
  omega

/-- ロックの旗が書けない検査も、スーパーブロックの正しくない検査も、表を読む前に止まる。 -/
theorem stopped_before_scan (h : superblockValidate v.sb = false ∨
      (superblockWrite { v with sb := setFlags stateLocked v.sb }).1 ≠ .ok ()) : (runCheck v).1 ≠ .ok () := by
  have hwp : wp runCheck (fun _ _ => False) (fun _ _ => True) v := by
    refine wp_runCheck.mpr ?_
    unfold consistencyCheck
    simp only [wp_bind, wp_modify, wp_get, wp_ite, wp_checkVol, wp_modifySb, wp_countCorrupt, wp_throw]
    refine ⟨fun _ => wp_trivial.mono (fun _ _ _ => trivial) (fun _ _ _ => trivial), fun hvalid => ?_⟩
    have hstop := h.resolve_left fun hbad => hvalid (by rw [hbad]; rfl)
    refine wp_run.mono (fun _ _ hrun => absurd (congrArg Prod.fst hrun) hstop) (fun _ _ _ => trivial)
  intro hok
  exact hwp.ok (run_eq hok)

/-- 検査値の合わない inode が 2^32 - 2 個より少なければ、どこで止まった検査もボリュームを開けない。表を読む前に止まる検査も
同じである。失敗のない装置の上で開けてしまうのは、正しいスーパーブロックの下で合わないものがちょうど 2^32 個あるときに限る。 -/
theorem interrupted_check_stays_shut (v : Vol) :
    (FewCorrupt v ∨ superblockValidate v.sb = false ∨
        (superblockWrite { v with sb := setFlags stateLocked v.sb }).1 ≠ .ok () → CutGuarded v) ∧
    (Online v → (CutGuarded v ↔ ¬ (superblockValidate v.sb = true ∧ discrepancies v = 2 ^ 32))) := by
  have hshut : superblockValidate v.sb = false ∨
      (superblockWrite { v with sb := setFlags stateLocked v.sb }).1 ≠ .ok () → CutGuarded v :=
    fun h => cutGuarded_of_verified fun hok => absurd hok (stopped_before_scan h)
  refine ⟨fun h => h.elim (fun hfew => cutGuarded_of_verified (verified_of_few hfew)) hshut, fun h =>
    ⟨?_, fun hno => ?_⟩⟩
  · rintro hguard ⟨hvalid, hwrap⟩
    exact not_cutGuarded_of_wrapped h hvalid hwrap hguard
  cases hvalid : superblockValidate v.sb with
  | false => exact hshut (.inl hvalid)
  | true => exact cutGuarded_of_unwrapped h hvalid fun hwrap => hno ⟨hvalid, hwrap⟩

end

/-- フォーマットしたばかりのボリュームの例。 -/
theorem interrupted_check_stays_shut_on_formattedVolume : CutGuarded formattedVolume := by
  refine (interrupted_check_stays_shut formattedVolume).1 (.inl ?_)
  have htotal : formattedVolume.sb.totalInodes.toNat = 4096 := by decide +kernel
  have hle : Nat.count (Corrupt (lockedVol formattedVolume).dev.disk formattedVolume.sb)
      formattedVolume.sb.totalInodes.toNat ≤ formattedVolume.sb.totalInodes.toNat := Nat.count_le _
  unfold FewCorrupt
  omega

/-! ## 誤りの数が回る例 -/

/-- 検査値の合わない inode。 -/
def spoiledInode : Inode :=
  let ino := { Inode.zero with entryType := entryFile }
  { ino with checksum := inodeComputeChecksum ino + 1 }

/-- 検査値の合わない inode を 16 個並べたブロック。 -/
def spoiledBlock : Block := Bytes.build 4096 fun i => (Inode.codec.enc spoiledInode)[i % 256]?.getD 0

/-- inode が 2^32 - 1 個あり、ビットマップの検査値も違うスーパーブロック。 -/
def spoiledSb : Superblock :=
  { Superblock.zero with
    magic := owfsMagic
    blockSize := 0x1000
    totalBlocks := 0x10000013
    freeBlocks := 1
    totalInodes := 0xFFFFFFFF
    bitmapStartBlock := 17
    bitmapBlockCount := 1
    inodeTableStart := 18
    inodeTableBlocks := 0x10000000
    dataRegionStart := 0x10000012
    fletcher64Bitmap := 1 }

def spoiledDisk : Disk := fun b => if b = 17 then Bytes.zero 4096 else spoiledBlock

def spoiledVol : Vol where
  dev :=
    { blockSize := 4096
      totalBlocks := 0x10000013
      writeProtect := 0
      hasFlush := true
      entropy := none
      fault := fun _ => none
      disk := spoiledDisk
      clock := 0
      trail := [] }
  sb := spoiledSb.sealed

theorem online_spoiledVol : Online spoiledVol := by
  refine ⟨⟨?_, ?_, ?_, ?_, ?_, ?_, ?_⟩, fun _ => rfl, fun b hb => ⟨⟨by decide, fun hno => ?_⟩, rfl⟩, ?_⟩
  · exact show 16 < spoiledSb.bitmapStartBlock.toNat by decide
  · exact show spoiledSb.bitmapStartBlock.toNat + spoiledSb.bitmapBlockCount.toNat ≤ spoiledSb.inodeTableStart.toNat by
      decide
  · exact show spoiledSb.inodeTableStart.toNat + spoiledSb.inodeTableBlocks.toNat ≤ spoiledSb.dataRegionStart.toNat by
      decide
  · exact show spoiledSb.dataRegionStart.toNat < spoiledSb.totalBlocks.toNat by decide
  · exact show spoiledSb.totalInodes.toNat ≤ 16 * spoiledSb.inodeTableBlocks.toNat by decide
  · exact show spoiledSb.totalBlocks.toNat - spoiledSb.dataRegionStart.toNat ≤
      spoiledSb.bitmapBlockCount.toNat * 32768 by decide
  · exact show spoiledSb.bitmapBlockCount.toNat * 32768 ≤ 2 ^ 32 by decide
  · have hb : b.toNat < (0x10000013 : UInt32).toNat := hb
    have hno : (0x10000013 : UInt32).toNat ≤ b.toNat := UInt32.le_iff_toNat_le.mp hno.2
    omega
  · decide

theorem verify_spoiledInode : inodeVerifyChecksum spoiledInode = false := by
  unfold inodeVerifyChecksum spoiledInode
  rw [inodeComputeChecksum_checksum]
  refine beq_false_of_ne fun h => absurd (UInt32.add_eq_left.mp h) (by decide)

theorem inodeIn_spoiledBlock (n : UInt32) : inodeIn spoiledBlock n = spoiledInode := by
  have hidx := toNat_inodeEntryIndex n
  have hslice : spoiledBlock.slice ((inodeEntryIndex n).toNat * 256) 256 = Inode.codec.enc spoiledInode := by
    refine List.ext_getElem? fun i => ?_
    rw [Bytes.getElem?_slice]
    by_cases hi : i < 256
    · have hlen : i < (Inode.codec.enc spoiledInode).length := by rwa [length_enc_inode]
      have hin : (inodeEntryIndex n).toNat * 256 + i < 4096 := by omega
      have hmod : ((inodeEntryIndex n).toNat * 256 + i) % 256 = i := by omega
      unfold spoiledBlock
      rw [if_pos hi, Vector.getElem?_eq_getElem hin, Bytes.getElem_build, hmod, List.getElem?_eq_getElem hlen,
        Option.getD_some]
    · rw [if_neg hi, List.getElem?_eq_none (by rw [length_enc_inode]; omega)]
  unfold inodeIn
  rw [hslice, Inode.codec.dec_enc]

theorem corrupt_spoiledVol {n : Nat} (hn : n < 0xFFFFFFFF) : Corrupt spoiledDisk spoiledSb.sealed n := by
  have hblock : inodeBlockOffset spoiledSb.sealed (UInt32.ofNat n) ≠ 17 := by
    intro h
    have hidx : (UInt32.ofNat n).toNat = n := toNat_ofNat_lt (by omega)
    have h := congrArg UInt32.toNat h
    have hsum : ((18 : UInt32) + (UInt32.ofNat n >>> 4)).toNat = 18 + n / 16 := by
      have h18 : (18 : UInt32).toNat = 18 := rfl
      rw [toNat_add_lt] <;> rw [toNat_shiftRight_four, hidx, h18]
      omega
    rw [show inodeBlockOffset spoiledSb.sealed (UInt32.ofNat n) = (18 : UInt32) + (UInt32.ofNat n >>> 4) from rfl,
      hsum] at h
    have h : 18 + n / 16 = 17 := h
    omega
  unfold Corrupt inodeAt spoiledDisk
  rw [if_neg hblock, inodeIn_spoiledBlock]
  exact ⟨show entryFile ≠ 0 by decide, verify_spoiledInode⟩

theorem totalInodes_spoiledVol : spoiledVol.sb.totalInodes.toNat = 0xFFFFFFFF := by decide +kernel

theorem count_spoiledVol :
    Nat.count (Corrupt spoiledVol.dev.disk spoiledVol.sb) spoiledVol.sb.totalInodes.toNat = 0xFFFFFFFF := by
  rw [totalInodes_spoiledVol]
  exact Nat.count_of_forall fun n hn => corrupt_spoiledVol hn

theorem discrepancies_spoiledVol : discrepancies spoiledVol = 2 ^ 32 := by
  have hsum : ¬ SumAgrees spoiledVol := by decide +kernel
  have hfree : UInt32.ofNat (freeCount spoiledVol.dev.disk spoiledVol.sb) =
    spoiledVol.sb.freeBlocks := by decide +kernel
  exact (discrepancies_of_sum hsum hfree count_spoiledVol).trans (by norm_num)

/-- すべての inode が壊れているのに、検査が旗を下ろし、マウントが通る。 -/
theorem wrapped_count_opens_volume : ¬ ∀ v : Vol, CutGuarded v := by
  intro hclaim
  have hsb : spoiledVol.sb = spoiledSb.sealed := rfl
  have hvalid : superblockValidate spoiledVol.sb = true := by
    rw [hsb]
    exact validate_sealed ⟨rfl, rfl⟩
  exact not_cutGuarded_of_wrapped online_spoiledVol hvalid discrepancies_spoiledVol (hclaim spoiledVol)

end OwStorage.Owfs
