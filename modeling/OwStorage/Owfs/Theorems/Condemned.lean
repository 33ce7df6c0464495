import OwStorage.Owfs.Theorems.SelfCheck
import OwStorage.Owfs.Theorems.Lock

/-!
# 壊れたスーパーブロック

検査値の合わないスーパーブロックを見つけた検査は、誤りの旗を立て、検査値を付け直して書く。次の検査がそれを正しいものとして
受け取らない限り、ボリュームは使えないままである。
-/

namespace OwStorage.Owfs

open Lib Prog

/-- 検査に落ちるか、誤りの印がある。 -/
def Superblock.Condemned (sb : Superblock) : Prop := superblockValidate sb = false ∨ sb.Errored

/-- メモリの上でもディスクの上でも、使えないと判断される。 -/
structure Rejected (v : Vol) : Prop where
  memory : v.sb.Condemned
  disk : (diskSb v).Condemned

/-- 検査が、検査に落ちるスーパーブロックに対して行われる。 -/
def StillInvalid (e : Event Vol AuditOp (Except OwfsErr Unit)) : Prop :=
  e.op = .check → superblockValidate e.before.sb = false

section

variable {v : Vol} {c : Nat}

theorem condemned_error {sb : Superblock} : (setFlags (stateError ||| stateLocked) sb).sealed.Condemned :=
  .inr (or_and_ne_zero.mpr (.inr (by decide)))

theorem Rejected.saved {sb : Superblock} (h : sb.sealed.Condemned) : Rejected (Vol.saved { v with sb := sb } c) := by
  refine ⟨h, ?_⟩
  rw [diskSb_saved]
  exact h

/-- 検査に落ちるスーパーブロックの検査は、必ず断り、使えないままにする。書き込みの失敗があってもよい。 -/
theorem check_rejected (h : Rejected v) (hbad : superblockValidate v.sb = false) :
    wp runCheck (fun _ _ => False) (fun _ v' => Rejected v') v := by
  rw [wp_runCheck]
  unfold consistencyCheck
  simp only [wp_bind, wp_modify, wp_get, wp_ite]
  refine ⟨fun _ => ?_, fun hno => absurd (by rw [hbad]; rfl) hno⟩
  simp only [wp_bind, wp_checkVol, wp_modifySb, wp_countCorrupt, wp_throw, persist, wp_attempt, wp_pure]
  have hdone : ∀ v', Rejected v' →
      wp (flushBlk : OwfsM Unit) (fun _ v' => Rejected v') (fun _ v' => Rejected v') v' :=
    fun v' h' => wp_flushBlk (fun _ => ⟨h'.memory, h'.disk⟩) (fun _ _ => ⟨h'.memory, h'.disk⟩)
  exact wp_superblockWrite (fun _ _ => hdone _ (.saved condemned_error))
    (fun _ _ _ _ => hdone _ ⟨condemned_error, h.disk⟩)

theorem reread_rejected (h : Rejected v) :
    wp superblockRead (fun _ v' => Rejected v') (fun _ v' => Rejected v') v :=
  wp_superblockRead (fun _ _ _ => ⟨h.disk, h.disk⟩) (fun _ _ => ⟨h.disk, h.disk⟩) (fun _ _ => ⟨h.memory, h.disk⟩)

theorem mount_rejected (h : Rejected v) : wp mount (fun _ _ => False) (fun _ v' => Rejected v') v := by
  unfold mount
  rw [wp_bind]
  refine wp_superblockRead (fun c _ hvalid => ?_) (fun _ _ => ⟨h.disk, h.disk⟩) (fun _ _ => ⟨h.memory, h.disk⟩)
  have herr : (diskSb v).Errored := h.disk.resolve_left fun hbad => by
    rw [hvalid] at hbad
    cases hbad
  simp only [wp_bind, wp_get, wp_failIf]
  exact ⟨fun _ => ⟨h.disk, h.disk⟩, fun hno => absurd herr hno⟩

theorem Rejected.step (h : Rejected v) (op : AuditOp) (hP : StillInvalid (event AuditOp.run op v)) :
    Rejected (op.run v).2 ∧ (op = .check ∨ op = .mount → (op.run v).1 ≠ .ok ()) := by
  have hrefuse : ∀ {p : OwfsM Unit}, wp p (fun _ _ => False) (fun _ v' => Rejected v') v →
      Rejected (p v).2 ∧ (p v).1 ≠ .ok () := by
    intro p hp
    obtain ⟨e, v', hrun, hr⟩ := hp.exists_error
    rw [hrun]
    exact ⟨hr, fun hok => by cases hok⟩
  cases op with
  | check =>
      obtain ⟨hr, hne⟩ := hrefuse (check_rejected h (hP rfl))
      exact ⟨hr, fun _ => hne⟩
  | mount =>
      obtain ⟨hr, hne⟩ := hrefuse (mount_rejected h)
      exact ⟨hr, fun _ => hne⟩
  | reread => exact ⟨(reread_rejected h).state, fun hop => by rcases hop with hop | hop <;> cases hop⟩

theorem validate_of_checksum_ne {sb : Superblock} (h : sb.checksum ≠ superblockComputeChecksum sb) :
    superblockValidate sb = false := by
  unfold superblockValidate
  rw [beq_false_of_ne h, Bool.and_false]

/-- 検査がどれも、検査に落ちるスーパーブロックに対して行われる限り、検査もマウントも通らない。 -/
theorem corrupt_superblock_not_laundered (hload : v.sb = diskSb v)
    (hcorrupt : (diskSb v).checksum ≠ superblockComputeChecksum (diskSb v)) (ops : List AuditOp)
    (hP : ∀ e ∈ trace AuditOp.run ops v, StillInvalid e) :
    ∀ e ∈ trace AuditOp.run ops v, e.op = .check ∨ e.op = .mount → e.result ≠ .ok () := by
  have hbad := validate_of_checksum_ne hcorrupt
  have hstart : Rejected v := ⟨by rw [hload]; exact .inl hbad, .inl hbad⟩
  obtain ⟨_, hall⟩ := trace_invariant (I := Rejected) (P := StillInvalid) (fun op _ h hp => (h.step op hp).1) ops v
    hstart hP
  intro e he hop
  obtain ⟨hbefore, heq⟩ := hall e he
  have hp := hP e he
  rw [heq] at hp ⊢
  exact (hbefore.step e.op hp).2 hop

/-! ## 二度目の検査 -/

/-- 検査に落ちたスーパーブロックの検査の後。印と大きさが正しければ、検査値は合うようになる。 -/
theorem runCheck_reseals (hr : Ready v) (hbad : superblockValidate v.sb = false) :
    ∃ c c', (runCheck v).2 =
      (Vol.saved { v with sb := setFlags (stateError ||| stateLocked) v.sb } c).atClock c' := by
  have hwp : wp runCheck (fun _ _ => False) (fun _ v' => ∃ c c', v' =
      (Vol.saved { v with sb := setFlags (stateError ||| stateLocked) v.sb } c).atClock c') v := by
    rw [wp_runCheck]
    unfold consistencyCheck
    simp only [wp_bind, wp_modify, wp_get, wp_ite]
    refine ⟨fun _ => ?_, fun hno => absurd (by rw [hbad]; rfl) hno⟩
    simp only [wp_bind, wp_checkVol, wp_modifySb, wp_countCorrupt, wp_throw, persist, wp_attempt, wp_pure]
    refine wp_superblockWrite (fun c _ => ?_) (fun _ _ _ hno => absurd ⟨hr.faultFree, hr.writes_superblock⟩ hno)
    exact wp_flushBlk (fun c' => ⟨c, c', rfl⟩) (fun _ hno => absurd hr.flushes hno)
  obtain ⟨e, v', hrun, h⟩ := hwp.exists_error
  rw [hrun]
  exact h

/-- ほかに誤りがなければ、二度目の検査は通る。 -/
theorem second_check_passes (hr : Ready v) (hex : FreeExact v.dev.disk v.sb) (hs : Summed v)
    (hbad : superblockValidate v.sb = false) (hb : v.sb.Branded) (ha : SumAgrees v) :
    (runCheck (runCheck v).2).1 = .ok () := by
  obtain ⟨c, c', hrun⟩ := runCheck_reseals hr hbad
  have hset := SameLedger.setFlags (stateError ||| stateLocked) v.sb
  have hledger : SameLedger v.sb (setFlags (stateError ||| stateLocked) v.sb).sealed :=
    trans_of SameLedger hset (.sealed _)
  have hdev : v.dev.Evolves {superblockBlock}
      ((Vol.saved { v with sb := setFlags (stateError ||| stateLocked) v.sb } c).atClock c').dev :=
    (evolves_saved (v := { v with sb := setFlags (stateError ||| stateLocked) v.sb })).trans .atClock
  have hagree : SumAgrees ((Vol.saved { v with sb := setFlags (stateError ||| stateLocked) v.sb } c).atClock c') ↔
      SumAgrees v := sumAgrees_resave hr.sound.layout hledger rfl hdev
  obtain ⟨s, hcheck, _⟩ := (consistencyCheck_ok_iff
    (s := ⟨(Vol.saved { v with sb := setFlags (stateError ||| stateLocked) v.sb } c).atClock c', 0⟩)
    (hr.resave hledger hdev) (resave_freeExact hex hr.sound.layout hledger hdev)
    (hs.resave hr.sound.layout hledger hdev) (validate_sealed (hset.branded hb))).mpr (hagree.mpr ha)
  rw [hrun]
  unfold runCheck
  rw [hcheck]

end

/-- スーパーブロックの検査値の欄だけを壊したボリューム。 -/
def stained (v : Vol) : Vol :=
  let sb := { v.sb with checksum := superblockComputeChecksum v.sb + 1 }
  ⟨{ v.dev with disk := Function.update v.dev.disk superblockBlock sb.toBlock }, sb⟩

section

variable {v : Vol}

theorem diskSb_stained : diskSb (stained v) = (stained v).sb := by
  have hblock : (stained v).dev.disk superblockBlock = (stained v).sb.toBlock := by
    unfold stained
    exact Function.update_self superblockBlock _ v.dev.disk
  rw [diskSb, hblock, ofBlock_toBlock]

theorem checksum_stained : (diskSb (stained v)).checksum ≠ superblockComputeChecksum (diskSb (stained v)) := by
  have hsame : superblockComputeChecksum (stained v).sb = superblockComputeChecksum v.sb :=
    superblockComputeChecksum_checksum v.sb _
  rw [diskSb_stained, hsame]
  change superblockComputeChecksum v.sb + 1 ≠ superblockComputeChecksum v.sb
  intro h
  exact absurd (UInt32.add_eq_left.mp h) (by decide)

theorem ledger_stained : SameLedger v.sb (stained v).sb :=
    ⟨v.sb.mountCount, v.sb.stateFlags, v.sb.fletcher64Bitmap, _, rfl⟩

theorem evolves_stained : v.dev.Evolves {superblockBlock} (stained v).dev :=
  ⟨rfl, fun _ hb => Function.update_of_ne hb _ _, [], rfl, fun _ hk => absurd hk List.not_mem_nil⟩

/-- フォーマットしたボリュームの検査値を壊しても、二度目の検査は通る。 -/
theorem Formatted.second_check_passes (h : Formatted v) (hff : v.dev.FaultFree) :
    ∃ e ∈ trace AuditOp.run [.check, .check] (stained v), e.op = .check ∧ e.result = .ok () := by
  have hready : Ready v := ⟨h.sound, hff, h.serves⟩
  have hagree : SumAgrees (stained v) :=
    (sumAgrees_resave h.sound.layout ledger_stained rfl evolves_stained).mpr (.inr (h.fletcher hff))
  have hbad := checksum_stained (v := v)
  rw [diskSb_stained] at hbad
  refine ⟨_, List.mem_cons_of_mem _ List.mem_cons_self, rfl, ?_⟩
  exact Owfs.second_check_passes (hready.resave ledger_stained evolves_stained)
    (resave_freeExact h.exact h.sound.layout ledger_stained evolves_stained)
    (h.sums.resave h.sound.layout ledger_stained evolves_stained) (validate_of_checksum_ne hbad)
    (ledger_stained.branded (branded_of_validate h.valid)) hagree

end

/-- 検査を二度行うと、壊れたスーパーブロックが正しいものとして受け取られる。 -/
theorem second_check_launders_superblock :
    ¬ ∀ (v : Vol) (ops : List AuditOp), v.sb = diskSb v →
      (diskSb v).checksum ≠ superblockComputeChecksum (diskSb v) →
      ∀ e ∈ trace AuditOp.run ops v, e.op = .check ∨ e.op = .mount → e.result ≠ .ok () := by
  intro hclaim
  obtain ⟨e, he, hop, hok⟩ := formatted_formattedVolume.1.second_check_passes faultFree_formattedVolume
  exact hclaim (stained formattedVolume) [.check, .check] diskSb_stained.symm checksum_stained e he (.inl hop) hok

/-- 検査を一度行い、読み直してマウントしても通らない例。 -/
theorem corrupt_superblock_not_laundered_on_formattedVolume :
    (trace AuditOp.run [.check, .reread, .mount] (stained formattedVolume)).Forall fun e =>
      e.op = .check ∨ e.op = .mount → e.result ≠ .ok () := by
  rw [List.forall_iff_forall_mem]
  refine corrupt_superblock_not_laundered diskSb_stained.symm checksum_stained _ fun e he => ?_
  have hbad := checksum_stained (v := formattedVolume)
  rw [diskSb_stained] at hbad
  simp only [trace, List.mem_cons, List.not_mem_nil, or_false] at he
  rcases he with rfl | rfl | rfl
  · exact fun _ => validate_of_checksum_ne hbad
  · intro hop
    cases hop
  · intro hop
    cases hop

end OwStorage.Owfs
