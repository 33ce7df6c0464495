import OwStorage.Owfs.Lemmas.Check

/-!
# 同期とアンマウントの後の検査

同期したボリュームは、自分の検査に通る。アンマウントは検査値を書き直さないので、その後の検査は、最後に書いた検査値が
今のビットマップに合うときに限って通る。
-/

namespace OwStorage.Owfs

open Lib Prog

section

variable {v v₁ : Vol} {s : CheckState} {d₀ d : HtlDevice} {totalBlocks : UInt32} {label : Option (List UInt8)}
  {sb₀ : Superblock}

/-- 検査を終えたスーパーブロックには、どの旗も立っていない。 -/
theorem checkedSb_flags (sb : Superblock) :
    (checkedSb sb).sealed.stateFlags &&& (stateDirty ||| stateLocked ||| stateError) = 0 :=
  show (sb.stateFlags ||| stateLocked) &&& ~~~ (stateDirty ||| stateLocked ||| stateError) &&&
      (stateDirty ||| stateLocked ||| stateError) = 0 from and_not_and_eq_zero (by decide)

/-- 条件を満たすボリュームの検査は、ビットマップの検査値が合うときに限って通る。 -/
theorem consistencyCheck_ok_iff (hr : Ready s.vol) (hex : FreeExact s.vol.dev.disk s.vol.sb) (hs : Summed s.vol)
    (hvalid : superblockValidate s.vol.sb = true) :
    (∃ s', consistencyCheck s = (.ok (), s') ∧ s'.corruptCount = 0 ∧
      (diskSb s'.vol).stateFlags &&& (stateDirty ||| stateLocked ||| stateError) = 0) ↔ SumAgrees s.vol := by
  have hspec := consistencyCheck_spec hr.online hvalid
  rw [← findings_eq_zero ⟨hr.sound, hex⟩ hs]
  constructor
  · rintro ⟨s', hrun, -, -⟩
    exact (hspec.ok hrun).1
  · intro hz
    obtain ⟨_, s', hrun, _, hcount, hsb, hdisk, _⟩ :=
      (hspec.mono (fun _ _ h => h) (fun _ _ h => absurd hz h.2.1)).exists_ok
    refine ⟨s', hrun, hcount, ?_⟩
    rw [hdisk, hsb]
    exact checkedSb_flags s.vol.sb

/-- 同期は、検査値をビットマップに合わせる。 -/
theorem InSession.sumAgrees_sync (hw : InSession v) : SumAgrees (syncChanges v).2 := by
  have hwp : wp syncChanges (fun _ v' => SumAgrees v') (fun _ v' => SumAgrees v') v := by
    refine (syncChanges_spec hw.sound.layout).mono ?_ (fun _ _ hno => absurd ⟨hw.faultFree, hw.serves⟩ hno)
    rintro _ _ ⟨sum, c, c', rfl, hsum⟩
    have hledger : SameLedger v.sb (syncedSb v.sb sum).sealed := trans_of SameLedger (.synced v.sb sum) (.sealed _)
    have hdev : v.dev.Evolves {superblockBlock} ((Vol.saved { v with sb := syncedSb v.sb sum } c).atClock c').dev :=
      (evolves_saved (v := { v with sb := syncedSb v.sb sum })).trans .atClock
    exact .inr ((hsum ⟨hw.faultFree, hw.serves⟩).trans (resave_fletcher hw.sound.layout hledger hdev).symm)
  exact hwp.state

/-- 同期が通った直後の検査は、誤りを数えずに通り、ディスクの旗を下ろす。 -/
theorem synced_volume_passes_check (hff : d₀.FaultFree) (hformat : formatVolume totalBlocks label d₀ = (.ok (), d))
    (hmount : mount ⟨d, sb₀⟩ = (.ok (), v)) (ops : List SessionOp)
    (hsync : syncChanges (final SessionOp.run ops v) = (.ok (), v₁)) (count : UInt32) :
    ∃ s, consistencyCheck ⟨v₁, count⟩ = (.ok (), s) ∧ s.corruptCount = 0 ∧
      (diskSb s.vol).stateFlags &&& (stateDirty ||| stateLocked ||| stateError) = 0 := by
  have hw : InSession (final SessionOp.run ops v) := (inSession_of_mount hff hformat hmount).final ops
  have hv₁ : InSession v₁ := by
    have hstep := hw.step .sync
    rwa [show SessionOp.run .sync (final SessionOp.run ops v) = (.ok (), v₁) from hsync] at hstep
  have hagree := hw.sumAgrees_sync
  rw [hsync] at hagree
  refine (consistencyCheck_ok_iff (s := ⟨v₁, count⟩) hv₁.toReady hv₁.exact hv₁.sums ?_).mpr hagree
  obtain ⟨sum, c, c', rfl, _⟩ := (syncChanges_spec hw.sound.layout).ok hsync
  exact validate_sealed ((SameLedger.synced _ sum).branded hw.branded)

/-- アンマウントは、旗を下ろしたスーパーブロックを書く。 -/
theorem InSession.unmounted (hw : InSession v) :
    ∃ v₁, unmount v = (.ok (), v₁) ∧ InSession v₁ ∧ v₁.sb.stateFlags = 0 ∧ diskSb v₁ = v₁.sb ∧
      superblockValidate v₁.sb = true ∧ (SumAgrees v₁ ↔ SumAgrees v) := by
  have herr : v.sb.stateFlags &&& stateError = 0 := by
    rw [← and_not_and (m := stateDirty) (k := stateError) (by decide), hw.flags, UInt32.zero_and]
  have hclear : v.sb.stateFlags &&& ~~~ (stateDirty ||| stateLocked) = 0 := by
    rw [← and_not_and (m := stateDirty) (k := ~~~ (stateDirty ||| stateLocked)) (by decide), hw.flags,
      UInt32.zero_and]
  obtain ⟨_, v₁, hun, c, c', rfl⟩ := (unmount_spec hw.toReady herr).exists_ok
  have hcleared := SameLedger.clearFlags (stateDirty ||| stateLocked) v.sb
  have hledger : SameLedger v.sb (clearFlags (stateDirty ||| stateLocked) v.sb).sealed :=
    trans_of SameLedger hcleared (.sealed _)
  have hdev : v.dev.Evolves {superblockBlock}
      ((Vol.saved { v with sb := clearFlags (stateDirty ||| stateLocked) v.sb } c).atClock c').dev :=
    (evolves_saved (v := { v with sb := clearFlags (stateDirty ||| stateLocked) v.sb })).trans .atClock
  refine ⟨_, hun, hw.save hcleared ?_, hclear, diskSb_saved, validate_sealed (hcleared.branded hw.branded), ?_⟩
  · change v.sb.stateFlags &&& ~~~ (stateDirty ||| stateLocked) &&& ~~~ stateDirty = 0
    rw [hclear, UInt32.zero_and]
  · exact sumAgrees_resave
      hw.sound.layout hledger rfl hdev

/-- 旗の下りたボリュームのマウントは、汚れの旗を立て、マウントの回数を数える。 -/
theorem InSession.mounted (hw : InSession v) (hflags : v.sb.stateFlags = 0) (hdisk : diskSb v = v.sb)
    (hvalid : superblockValidate v.sb = true) (sb₁ : Superblock) :
    ∃ v₁, mount ⟨v.dev, sb₁⟩ = (.ok (), v₁) ∧ InSession v₁ ∧ superblockValidate v₁.sb = true ∧
      (SumAgrees v₁ ↔ SumAgrees v) := by
  have hdisk : diskSb ⟨v.dev, sb₁⟩ = v.sb := hdisk
  have hmount := mount_faultFree (v := ⟨v.dev, sb₁⟩) hw.faultFree hw.toReady.writes_superblock
    (by rw [hdisk]; exact hvalid) (by rw [hdisk]; exact hflags)
  rw [hdisk] at hmount
  have hmounted := SameLedger.mounted v.sb
  have hledger : SameLedger v.sb (mountedSb v.sb).sealed := trans_of SameLedger hmounted (.sealed _)
  have hdirty : (mountedSb v.sb).stateFlags &&& ~~~ stateDirty = 0 := by
    change (v.sb.stateFlags ||| stateDirty) &&& ~~~ stateDirty = 0
    rw [hflags]
    decide
  have hsession : InSession (Vol.saved ⟨v.dev, mountedSb v.sb⟩ (v.dev.clock + 2)) :=
    hw.save hmounted hdirty
  refine ⟨_, hmount, hsession, validate_sealed (hmounted.branded hw.branded), ?_⟩
  exact sumAgrees_resave hw.sound.layout hledger rfl
    (evolves_saved (v := ⟨v.dev, mountedSb v.sb⟩))

/-- アンマウントしてマウントし直した後の検査は、アンマウントの前の検査値が合っていたときに限って通る。 -/
theorem InSession.unmount_check_iff (hw : InSession v) (sb₁ : Superblock) (count : UInt32) :
    (∃ v₁ v₂ s, unmount v = (.ok (), v₁) ∧ mount ⟨v₁.dev, sb₁⟩ = (.ok (), v₂) ∧
      consistencyCheck ⟨v₂, count⟩ = (.ok (), s) ∧ s.corruptCount = 0) ↔ SumAgrees v := by
  obtain ⟨v₁, hun, hw₁, hflags, hdisk, hvalid₁, hagree₁⟩ := hw.unmounted
  obtain ⟨v₂, hmount, hw₂, hvalid, hagree⟩ := hw₁.mounted hflags hdisk hvalid₁ sb₁
  rw [← hagree₁, ← hagree]
  constructor
  · rintro ⟨v₁', v₂', s, hun', hmount', hcheck, _⟩
    obtain rfl : v₁ = v₁' := by
      rw [hun] at hun'
      exact (Prod.mk.inj hun').2
    obtain rfl : v₂ = v₂' := by
      rw [hmount] at hmount'
      exact (Prod.mk.inj hmount').2
    rw [← findings_eq_zero ⟨hw₂.sound, hw₂.exact⟩ hw₂.sums]
    exact ((consistencyCheck_spec (s := ⟨v₂, count⟩) hw₂.toReady.online hvalid).ok hcheck).1
  · intro ha
    obtain ⟨s, hcheck, hzero, _⟩ :=
      (consistencyCheck_ok_iff (s := ⟨v₂, count⟩) hw₂.toReady hw₂.exact hw₂.sums hvalid).mpr ha
    exact ⟨v₁, v₂, s, hun, hmount, hcheck, hzero⟩

/-- アンマウントとマウントは通り、その後の検査は、アンマウントの前の検査値が合っていたときに限って、誤りを数えずに通る。 -/
theorem clean_unmount_passes_check_iff (hff : d₀.FaultFree)
    (hformat : formatVolume totalBlocks label d₀ = (.ok (), d)) (hmount : mount ⟨d, sb₀⟩ = (.ok (), v))
    (ops : List SessionOp) (sb₁ : Superblock) (count : UInt32) :
    (∃ v₁ v₂ s, unmount (final SessionOp.run ops v) = (.ok (), v₁) ∧ mount ⟨v₁.dev, sb₁⟩ = (.ok (), v₂) ∧
      consistencyCheck ⟨v₂, count⟩ = (.ok (), s) ∧ s.corruptCount = 0) ↔
    SumAgrees (final SessionOp.run ops v) :=
  ((inSession_of_mount hff hformat hmount).final ops).unmount_check_iff sb₁ count

end

/-! ## 小さなボリュームの例 -/

/-- 書いて同期したボリュームの例。 -/
theorem synced_volume_passes_check_on_mountedVolume :
    ∃ v₁ s, syncChanges (final SessionOp.run allocWrite mountedVolume) = (.ok (), v₁) ∧
      consistencyCheck ⟨v₁, 0⟩ = (.ok (), s) ∧ s.corruptCount = 0 := by
  have hw := inSession_mountedVolume.final allocWrite
  have hwp : wp syncChanges (fun _ _ => True) (fun _ _ => False) (final SessionOp.run allocWrite mountedVolume) :=
    (syncChanges_spec hw.sound.layout).mono (fun _ _ _ => trivial) (fun _ _ hno => hno ⟨hw.faultFree, hw.serves⟩)
  obtain ⟨_, v₁, hsync, _⟩ := hwp.exists_ok
  obtain ⟨s, hcheck, hzero, _⟩ := synced_volume_passes_check faultFree_blankDevice format_blankDevice
    (mount_formattedVolume Superblock.zero) allocWrite hsync 0
  exact ⟨v₁, s, hsync, hcheck, hzero⟩

theorem final_allocWrite_sync (v : Vol) :
    final SessionOp.run (allocWrite ++ [.sync]) v = (syncChanges (final SessionOp.run allocWrite v)).2 := rfl

/-- 書いて同期してから閉じたボリュームは、検査に通る。 -/
theorem clean_unmount_passes_check_on_mountedVolume :
    ∃ v₁ v₂ s, unmount (final SessionOp.run (allocWrite ++ [.sync]) mountedVolume) = (.ok (), v₁) ∧
      mount ⟨v₁.dev, Superblock.zero⟩ = (.ok (), v₂) ∧ consistencyCheck ⟨v₂, 0⟩ = (.ok (), s) ∧ s.corruptCount = 0 := by
  have hiff := clean_unmount_passes_check_iff faultFree_blankDevice format_blankDevice
    (mount_formattedVolume Superblock.zero) (allocWrite ++ [.sync]) Superblock.zero 0
  have hagree := (inSession_mountedVolume.final allocWrite).sumAgrees_sync
  rw [← final_allocWrite_sync] at hagree
  generalize final SessionOp.run (allocWrite ++ [.sync]) mountedVolume = w at hiff hagree ⊢
  exact hiff.mpr hagree

/-- 同期せずに閉じると、正しいボリュームが壊れていると判断される。 -/
theorem unmount_without_sync_fails_check :
    ¬ ∀ (d₀ d : HtlDevice) (totalBlocks : UInt32) (label : Option (List UInt8)) (sb₀ sb₁ : Superblock) (v : Vol)
      (ops : List SessionOp) (count : UInt32), d₀.FaultFree → formatVolume totalBlocks label d₀ = (.ok (), d) →
      mount ⟨d, sb₀⟩ = (.ok (), v) →
      ∃ v₁ v₂ s, unmount (final SessionOp.run ops v) = (.ok (), v₁) ∧ mount ⟨v₁.dev, sb₁⟩ = (.ok (), v₂) ∧
        consistencyCheck ⟨v₂, count⟩ = (.ok (), s) ∧ s.corruptCount = 0 := by
  intro hclaim
  have hw := inSession_mountedVolume.final allocWrite
  have hcheck := (hw.unmount_check_iff Superblock.zero 0).mp (hclaim _ _ 280 none Superblock.zero Superblock.zero _
    allocWrite 0 faultFree_blankDevice format_blankDevice (mount_formattedVolume Superblock.zero))
  rw [final_allocWrite inSession_mountedVolume totalInodes_mountedVolume] at hcheck
  exact absurd hcheck (show ¬ SumAgrees (wrote mountedVolume) by decide +kernel)

end OwStorage.Owfs
