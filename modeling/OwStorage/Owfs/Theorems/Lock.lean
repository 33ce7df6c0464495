import OwStorage.Owfs.Lemmas.Sync

/-!
# ロックされたボリューム

`owfs_mount` が汚れたボリュームを断った後、検査が通るまで書き込みとマウントが許されないための条件を示す。
-/

namespace OwStorage.Owfs

open Lib Prog

/-- ロックされているか、誤りの印がある。 -/
def Superblock.Held (sb : Superblock) : Prop := sb.stateFlags &&& (stateLocked ||| stateError) ≠ 0

/-- 誤りの印がある。 -/
def Superblock.Errored (sb : Superblock) : Prop := sb.stateFlags &&& stateError ≠ 0

instance (sb : Superblock) : Decidable sb.Errored := inferInstanceAs (Decidable (_ ≠ _))

section

variable {sb : Superblock}

theorem Superblock.Errored.held (h : sb.Errored) : sb.Held := and_or_ne_zero.mpr (.inr h)

theorem held_setFlags {mask : UInt32} (h : sb.Held) : (setFlags mask sb).Held := or_and_ne_zero.mpr (.inl h)

theorem held_setFlags_locked {mask : UInt32} (h : mask &&& (stateLocked ||| stateError) ≠ 0) :
    (setFlags mask sb).Held := or_and_ne_zero.mpr (.inr h)

/-- ロックと汚れの旗を下ろしても、誤りの印は残る。 -/
theorem errored_clearFlags (h : sb.Errored) : (clearFlags (stateDirty ||| stateLocked) sb).Errored := by
  unfold Superblock.Errored clearFlags
  rw [and_not_and (by decide)]
  exact h

theorem branded_setFlags {mask : UInt32} (h : sb.Branded) : (setFlags mask sb).Branded := h

theorem branded_clearFlags {mask : UInt32} (h : sb.Branded) : (clearFlags mask sb).Branded := h

theorem volumeWritable_of_held (h : sb.Held) : volumeWritable sb ≠ .ok () := by
  unfold volumeWritable
  rw [if_pos (show sb.stateFlags &&& (stateLocked ||| stateError) ≠ 0 from h)]
  intro h'
  cases h'

end

/-- メモリの上でもディスクの上でも、書き込みとマウントが許されない状態。 -/
structure LockInv (v : Vol) : Prop where
  faultFree : v.dev.FaultFree
  branded : v.sb.Branded
  held : v.sb.Held
  diskValid : superblockValidate (diskSb v) = true
  diskHeld : (diskSb v).Held

namespace LockInv

variable {v : Vol} {c : Nat}

theorem atClock (h : LockInv v) : LockInv (v.atClock c) :=
  ⟨h.faultFree, h.branded, h.held, h.diskValid, h.diskHeld⟩

/-- メモリ上のスーパーブロックだけを、断る状態のまま書き換える。 -/
theorem update (h : LockInv v) (sb : Superblock) (hb : sb.Branded) (hs : sb.Held) :
    LockInv { v with sb := sb } :=
  ⟨h.faultFree, hb, hs, h.diskValid, h.diskHeld⟩

theorem flagged (h : LockInv v) (mask : UInt32) : LockInv { v with sb := setFlags mask v.sb } :=
  h.update (setFlags mask v.sb) (branded_setFlags h.branded) (held_setFlags h.held)

theorem saved (hf : v.dev.FaultFree) (hb : v.sb.Branded) (hs : v.sb.Held) : LockInv (v.saved c) := by
  refine ⟨hf, hb, hs, ?_, ?_⟩
  · rw [diskSb_saved]
    exact validate_sealed hb
  · rw [diskSb_saved]
    exact hs

theorem atFaultless (hb : v.sb.Branded) (hs : v.sb.Held) (hv : superblockValidate (diskSb v) = true)
    (hd : (diskSb v).Held) : LockInv v.faultless := ⟨faultFree_faultless, hb, hs, hv, hd⟩

theorem savedFaultless (hb : v.sb.Branded) (hs : v.sb.Held) : LockInv (v.saved c).faultless := by
  apply LockInv.atFaultless
  · exact hb
  · exact hs
  · rw [diskSb_saved]
    exact validate_sealed hb
  · rw [diskSb_saved]
    exact hs

end LockInv

section

variable {v : Vol}

/-- 断る状態のスーパーブロックを書くと、書けても書けなくても断る状態が残る。 -/
theorem superblockWrite_locked (h : LockInv v) :
    wp superblockWrite (fun _ v' => LockInv v' ∧ v'.dev.Writes superblockBlock) (fun _ v' => LockInv v') v := by
  refine wp_superblockWrite (fun c hw => ⟨LockInv.saved h.faultFree h.branded h.held, hw⟩) (fun e c _ _ => ?_)
  exact (h.update v.sb.sealed h.branded h.held).atClock

theorem flushBlk_locked (h : LockInv v) :
    wp flushBlk (fun _ v' => LockInv v') (fun _ v' => LockInv v') v :=
  wp_flushBlk (fun _ => h.atClock) (fun _ _ => h.atClock)

theorem markDirty_locked (h : LockInv v) :
    wp markDirty (fun _ v' => LockInv v') (fun _ v' => LockInv v') v := by
  unfold markDirty
  rw [wp_bind, wp_modifySb]
  exact (superblockWrite_locked (h.flagged stateDirty)).mono (fun _ _ h => h.1)
    (fun _ _ h => h)

/-- 誤りの印があれば、旗を下ろして書いても断る状態が残る。 -/
theorem writeCleared_locked (h : LockInv v) (he : v.sb.Errored) :
    wp (do modifySb (clearFlags (stateDirty ||| stateLocked)); superblockWrite; flushBlk)
      (fun _ v' => LockInv v') (fun _ v' => LockInv v') v := by
  simp only [wp_bind, wp_modifySb]
  refine (superblockWrite_locked (h.update _ (branded_clearFlags h.branded) (errored_clearFlags he).held)).mono ?_
    (fun _ _ h => h)
  intro _ v' hv'
  exact flushBlk_locked hv'.1

theorem markClean_locked (h : LockInv v) (he : v.sb.Errored) :
    wp markClean (fun _ v' => LockInv v') (fun _ v' => LockInv v') v := by
  unfold markClean
  simp only [wp_bind, wp_get, wp_failIf]
  exact ⟨fun _ => h, fun hn => absurd he hn⟩

theorem unmount_locked (h : LockInv v) (he : v.sb.Errored) :
    wp unmount (fun _ v' => LockInv v') (fun _ v' => LockInv v') v := by
  unfold unmount
  simp only [wp_bind, wp_get, wp_failIf]
  exact ⟨fun _ => h, fun hn => absurd he hn⟩

theorem syncChanges_locked (h : LockInv v) (he : v.sb.Errored) :
    wp syncChanges (fun _ v' => LockInv v') (fun _ v' => LockInv v') v := by
  unfold syncChanges
  rw [wp_bind]
  refine (still_bitmapComputeFletcher64 v).mono ?_ ?_
  · rintro sum _ ⟨c, rfl⟩
    rw [wp_bind, wp_modifySb]
    exact writeCleared_locked (h.atClock.update { v.sb with fletcher64Bitmap := sum } h.branded h.held) he
  · rintro _ _ ⟨c, rfl⟩
    exact h.atClock

/-- ロックされたボリュームのマウントは、値を返さない。 -/
theorem mount_locked (h : LockInv v) : wp mount (fun _ _ => False) (fun _ v' => LockInv v') v := by
  unfold mount
  rw [wp_bind]
  have hload : ∀ c, LockInv (Vol.atClock { v with sb := diskSb v } c) := fun c =>
    (h.update (diskSb v) (branded_of_validate h.diskValid) h.diskHeld).atClock
  refine wp_superblockRead (fun c _ _ => ?_) (fun c _ => hload c) (fun c _ => h.atClock)
  simp only [wp_bind, wp_get, wp_failIf]
  refine ⟨fun _ => hload c, fun hne => ?_⟩
  have hlocked : (diskSb v).stateFlags &&& stateLocked ≠ 0 := by
    rcases and_or_ne_zero.mp h.diskHeld with hl | he
    · exact hl
    · exact absurd he hne
  rw [wp_ite]
  refine ⟨fun _ => ?_, fun hn => absurd (and_or_ne_zero.mpr (.inr hlocked)) hn⟩
  simp only [wp_bind, wp_modifySb, wp_throw]
  exact (superblockWrite_locked ((hload c).flagged stateLocked)).mono
    (fun _ _ h => h.1) (fun _ _ h => h)

/-- 結果を問わない書き込みの後も、断る状態が残る。 -/
theorem persist_locked (h : LockInv v) :
    wp persist (fun _ v' => LockInv v') (fun _ v' => LockInv v') v := by
  unfold persist
  simp only [wp_bind, wp_attempt]
  have hflush : ∀ v', LockInv v' → wp flushBlk
      (fun _ s => wp (pure () : OwfsM Unit) (fun _ v' => LockInv v') (fun _ v' => LockInv v') s)
      (fun _ s => wp (pure () : OwfsM Unit) (fun _ v' => LockInv v') (fun _ v' => LockInv v') s) v' :=
    fun v' hv' => flushBlk_locked hv'
  exact (superblockWrite_locked h).mono (fun _ v' h => hflush v' h.1) (fun _ v' h => hflush v' h)

theorem concludeCheck_locked {s : CheckState} (h : LockInv s.vol) (hw : s.vol.dev.Writes superblockBlock) :
    wp concludeCheck (fun _ _ => True) (fun _ s' => LockInv s'.vol) s := by
  unfold concludeCheck
  simp only [wp_bind, wp_get, wp_ite, wp_checkVol, wp_modifySb]
  refine ⟨fun _ => ?_, fun _ => ?_⟩
  · -- 旗を下ろした書き込みは失敗しないので、誤りを返すことはない。
    refine wp_superblockWrite (fun c _ => ?_) (fun e c _ hn => absurd ⟨h.faultFree, hw⟩ hn)
    rw [wp_attempt, wp_checkVol]
    exact wp_flushBlk (fun _ => trivial) (fun _ _ => trivial)
  · exact (persist_locked (h.flagged stateError)).mono (fun _ _ h => h) (fun _ _ h => h)

/-- 検査は、通らないかぎり断る状態を残す。 -/
theorem consistencyCheck_locked {s : CheckState} (h : LockInv s.vol) :
    wp consistencyCheck (fun _ _ => True) (fun _ s' => LockInv s'.vol) s := by
  unfold consistencyCheck
  simp only [wp_bind, wp_modify, wp_get, wp_ite]
  refine ⟨fun _ => ?_, fun _ => ?_⟩
  · simp only [wp_checkVol, wp_modifySb, wp_countCorrupt]
    exact (persist_locked (h.flagged _)).mono (fun _ _ h => h) (fun _ _ h => h)
  · simp only [wp_checkVol, wp_modifySb]
    refine (superblockWrite_locked (h.flagged stateLocked)).mono ?_ (fun _ _ h => h)
    rintro _ v' ⟨hv', hw⟩
    refine (still_scanVolume _).mono ?_ ?_
    · rintro _ ⟨_, n⟩ ⟨c, rfl⟩
      exact concludeCheck_locked hv'.atClock hw
    · rintro _ ⟨_, n⟩ ⟨c, rfl⟩
      exact hv'.atClock

end

/-! ## 呼び出しの列 -/

/-- ロックの旗を下ろす三つの呼び出しを、誤りの印のあるときだけ行う。 -/
def ErrorGuarded (e : Event Vol LifeOp (Except OwfsErr Unit)) : Prop :=
  e.op = .unmount ∨ e.op = .markClean ∨ e.op = .syncChanges → e.before.sb.Errored

/-- 検査が通った。 -/
def PassedCheck (e : Event Vol LifeOp (Except OwfsErr Unit)) : Prop :=
  e.op = .consistencyCheck ∧ e.result = .ok ()

theorem lifeOp_locked {op : LifeOp} {v : Vol} (h : LockInv v)
    (hg : ErrorGuarded (event LifeOp.run op v)) :
    wp op.run (fun _ v' => op ≠ .consistencyCheck → op ≠ .mount ∧ LockInv v') (fun _ v' => LockInv v') v := by
  cases op with
  | mount => exact (mount_locked h).mono (fun _ _ h => h.elim) (fun _ _ h => h)
  | unmount =>
      exact (unmount_locked h (hg (.inl rfl))).mono (fun _ _ h _ => ⟨by decide, h⟩) (fun _ _ h => h)
  | markDirty => exact (markDirty_locked h).mono (fun _ _ h _ => ⟨by decide, h⟩) (fun _ _ h => h)
  | markClean =>
      exact (markClean_locked h (hg (.inr (.inl rfl)))).mono (fun _ _ h _ => ⟨by decide, h⟩) (fun _ _ h => h)
  | syncChanges =>
      exact (syncChanges_locked h (hg (.inr (.inr rfl)))).mono (fun _ _ h _ => ⟨by decide, h⟩)
        (fun _ _ h => h)
  | consistencyCheck =>
      exact wp_runCheck.mpr ((consistencyCheck_locked h).mono (fun _ _ _ hne => absurd rfl hne)
        (fun _ _ h => h))

/-- マウントを断られたボリュームは、断る状態にある。 -/
theorem lockInv_of_mount {v v₁ : Vol} (h : mount v = (.error .volumeDirty, v₁)) : LockInv v₁.faultless := by
  have hwp : wp mount (fun _ _ => True) (fun e v' => e = .volumeDirty → LockInv v'.faultless) v := by
    unfold mount
    rw [wp_bind]
    refine wp_superblockRead (fun c _ hvalid => ?_) (fun c _ he => by cases he) (fun c _ he => by cases he)
    have hb : (diskSb v).Branded := branded_of_validate hvalid
    simp only [wp_bind, wp_get, wp_failIf]
    refine ⟨fun he _ => ?_, fun _ => ?_⟩
    · have herr : (diskSb v).Errored := he
      exact LockInv.atFaultless hb herr.held hvalid herr.held
    · rw [wp_ite]
      refine ⟨fun _ => ?_, fun _ => ?_⟩
      · simp only [wp_bind, wp_modifySb, wp_throw]
        have hheld : (setFlags stateLocked (diskSb v)).Held := held_setFlags_locked (by decide)
        refine wp_superblockWrite (fun c' _ _ => ?_) (fun e c' hd _ he => ?_)
        · exact LockInv.savedFaultless (branded_setFlags hb) hheld
        · rcases hd with rfl | rfl <;> cases he
      · simp only [wp_bind, wp_modifySb]
        refine wp_superblockWrite (fun _ _ => trivial) (fun e c' hd _ he => ?_)
        rcases hd with rfl | rfl <;> cases he
  unfold wp at hwp
  rw [h] at hwp
  exact hwp rfl

/-- マウントを断られた後、検査が一度も通らず、ロックを下ろす呼び出しが誤りの印のあるときにだけ行われるなら、
書き込みは許されず、マウントも通らない。 -/
theorem locked_until_check_passes {v v₁ : Vol} (hmount : mount v = (.error .volumeDirty, v₁))
    (ops : List LifeOp) (hguard : ∀ e ∈ trace LifeOp.run ops v₁.faultless, ErrorGuarded e)
    (hcheck : ∀ e ∈ trace LifeOp.run ops v₁.faultless, ¬ PassedCheck e) :
    volumeWritable (final LifeOp.run ops v₁.faultless).sb ≠ .ok () ∧
      ∀ e ∈ trace LifeOp.run ops v₁.faultless, e.op = .mount → e.result ≠ .ok () := by
  have hstep : ∀ op v, LockInv v → (ErrorGuarded (event LifeOp.run op v) ∧ ¬ PassedCheck (event LifeOp.run op v)) →
      LockInv (op.run v).2 := by
    rintro op v hv ⟨hg, hc⟩
    have hwp := lifeOp_locked hv hg
    unfold wp at hwp
    rcases hrun : op.run v with ⟨r, v'⟩
    rw [hrun] at hwp
    cases r with
    | ok a => exact (hwp fun hop => hc ⟨hop, congrArg Prod.fst hrun⟩).2
    | error e => exact hwp
  obtain ⟨hfin, hall⟩ := trace_invariant (P := fun e => ErrorGuarded e ∧ ¬ PassedCheck e) hstep ops _
    (lockInv_of_mount hmount)
    fun e he => ⟨hguard e he, hcheck e he⟩
  refine ⟨volumeWritable_of_held hfin.held, fun e he hop => ?_⟩
  obtain ⟨hinv, heq⟩ := hall e he
  rw [heq, hop]
  intro hok
  have hwp := mount_locked hinv
  unfold wp at hwp
  rcases hrun : mount e.before with ⟨r, v'⟩
  rw [hrun] at hwp
  cases r with
  | ok a => exact hwp
  | error err =>
      change (mount e.before).1 = .ok () at hok
      rw [hrun] at hok
      cases hok

/-! ## ロックが下りる例 -/

/-- 汚れの旗を立てたまま電源の切れたボリュームのスーパーブロック。 -/
def crashedSb : Superblock := { freshSuperblock 275 none (Bytes.zero 12) with stateFlags := stateDirty }

def crashedVol : Vol where
  dev :=
    { blockSize := 4096
      totalBlocks := 275
      writeProtect := 0
      hasFlush := true
      entropy := none
      fault := fun _ => none
      disk := Function.update (fun _ => Bytes.zero 4096) superblockBlock crashedSb.sealed.toBlock
      clock := 0
      trail := [] }
  sb := Superblock.zero

theorem diskSb_crashedVol : diskSb crashedVol = crashedSb.sealed := by
  have hblk : crashedVol.dev.disk superblockBlock = crashedSb.sealed.toBlock := by
    simp [crashedVol]
  rw [diskSb, hblk, ofBlock_toBlock]

theorem writes_crashedVol : crashedVol.dev.Writes superblockBlock := ⟨⟨by decide, by decide⟩, rfl⟩

/-- 汚れたボリュームのマウントは、ロックの旗を立てて断る。 -/
theorem mount_crashedVol : ∃ v₁, mount crashedVol = (.error .volumeDirty, v₁) ∧
    v₁.sb = (setFlags stateLocked crashedSb.sealed).sealed ∧ v₁.dev.Writes superblockBlock := by
  have hff : crashedVol.dev.FaultFree := fun _ => rfl
  have hclean : ¬ crashedSb.stateFlags &&& stateError ≠ 0 := by decide
  have hdirty : crashedSb.stateFlags &&& (stateDirty ||| stateLocked) ≠ 0 := by decide
  have hwp : wp mount (fun _ _ => False) (fun e v₁ => e = .volumeDirty ∧
      v₁.sb = (setFlags stateLocked crashedSb.sealed).sealed ∧ v₁.dev.Writes superblockBlock) crashedVol := by
    unfold mount
    rw [wp_bind]
    refine wp_superblockRead (fun c _ _ => ?_) (fun c h => ?_)
      (fun c h => absurd ⟨hff, writes_crashedVol.toReads⟩ h)
    · rw [diskSb_crashedVol]
      simp only [wp_bind, wp_get, wp_failIf, wp_ite, wp_modifySb]
      refine ⟨fun h => absurd h hclean, fun _ => ⟨fun _ => ?_, fun h => absurd hdirty h⟩⟩
      exact wp_superblockWrite (fun c' hw => ⟨rfl, rfl, hw⟩)
        (fun e c' _ h => absurd ⟨hff, writes_crashedVol⟩ h)
    · rw [diskSb_crashedVol, validate_sealed ⟨rfl, rfl⟩] at h
      cases h
  obtain ⟨e, v₁, hrun, rfl, hsb, hw⟩ := hwp.exists_error
  exact ⟨v₁, hrun, hsb, hw⟩

/-- 誤りの印がなければ、旗を下ろしたボリュームには書ける。 -/
theorem volumeWritable_clearFlags {sb : Superblock} (he : ¬ sb.Errored)
    (hr : sb.securityFlags &&& secReadonly = 0) :
    volumeWritable (clearFlags (stateDirty ||| stateLocked) sb).sealed = .ok () := by
  have hflags : (clearFlags (stateDirty ||| stateLocked) sb).sealed.stateFlags &&&
      (stateLocked ||| stateError) = 0 := by
    change sb.stateFlags &&& ~~~ (stateDirty ||| stateLocked) &&& (stateLocked ||| stateError) = 0
    rw [and_or_distrib, and_not_and_eq_zero (by decide), and_not_and (by decide), UInt32.zero_or]
    exact not_not.mp he
  unfold volumeWritable
  rw [if_neg (fun h => h hflags), if_neg (fun h => h hr)]

/-- 検査を行わずに `owfs_mark_clean` を呼ぶと、ロックが下りて書き込みが許される。 -/
theorem markClean_unlocks_without_check :
    ¬ ∀ (v v₁ : Vol) (ops : List LifeOp), mount v = (.error .volumeDirty, v₁) →
      (∀ e ∈ trace LifeOp.run ops v₁.faultless, ¬ PassedCheck e) →
      volumeWritable (final LifeOp.run ops v₁.faultless).sb ≠ .ok () ∧
        ∀ e ∈ trace LifeOp.run ops v₁.faultless, e.op = .mount → e.result ≠ .ok () := by
  intro hclaim
  obtain ⟨v₁, hmount, hsb, hw⟩ := mount_crashedVol
  have hno : ∀ e ∈ trace LifeOp.run [.markClean] v₁.faultless, ¬ PassedCheck e := by
    intro e he hp
    rw [List.mem_singleton.mp he] at hp
    cases hp.1
  refine (hclaim crashedVol v₁ [.markClean] hmount hno).1 ?_
  have hclean : ¬ v₁.sb.Errored := by
    rw [hsb]
    exact show ¬ (crashedSb.stateFlags ||| stateLocked) &&& stateError ≠ 0 by decide
  have hwritable : v₁.sb.securityFlags &&& secReadonly = 0 := by
    rw [hsb]
    exact show crashedSb.securityFlags &&& secReadonly = 0 by decide
  have hwp : wp markClean (fun _ v' => volumeWritable v'.sb = .ok ()) (fun _ _ => False) v₁.faultless := by
    unfold markClean
    simp only [wp_bind, wp_get, wp_failIf, wp_modifySb]
    refine ⟨fun h => absurd h hclean, fun _ => ?_⟩
    refine wp_superblockWrite (fun c _ => ?_)
      (fun e c _ h => absurd ⟨faultFree_faultless, writes_faultless hw⟩ h)
    exact wp_flushBlk (fun _ => volumeWritable_clearFlags hclean hwritable)
      (fun _ h => absurd ⟨faultFree_faultless, (writes_faultless hw).valid⟩ h)
  obtain ⟨_, v', hrun, hok⟩ := hwp.exists_ok
  have hfin : final LifeOp.run [.markClean] v₁.faultless = v' := congrArg Prod.snd hrun
  rw [hfin]
  exact hok

/-- 汚れの旗を立ててマウントし直しても、ロックは残る。 -/
theorem locked_after_markDirty_mount :
    ∃ v₁, mount crashedVol = (.error .volumeDirty, v₁) ∧
      volumeWritable (final LifeOp.run [.markDirty, .mount] v₁.faultless).sb ≠ .ok () ∧
      ∀ e ∈ trace LifeOp.run [.markDirty, .mount] v₁.faultless, e.op = .mount → e.result ≠ .ok () := by
  obtain ⟨v₁, hmount, _, _⟩ := mount_crashedVol
  refine ⟨v₁, hmount, locked_until_check_passes hmount [.markDirty, .mount] ?_ ?_⟩
  · intro e he
    simp only [trace, List.mem_cons, List.not_mem_nil, or_false] at he
    rcases he with rfl | rfl <;> rintro (h | h | h) <;> cases h
  · intro e he hp
    simp only [trace, List.mem_cons, List.not_mem_nil, or_false] at he
    rcases he with rfl | rfl <;> cases hp.1

end OwStorage.Owfs
