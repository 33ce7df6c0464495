import OwStorage.Owfs.Lemmas.Reach
import OwStorage.Owfs.Lemmas.Refusal

/-!
# 電源断からの保護

マウントは汚れの旗をディスクに立て、同期はそれを下ろす。旗の立っている間の書き込みのどこで電源が落ちても、次のマウントは
断られるか、空きの数の正しいディスクを読む。
-/

namespace OwStorage.Owfs

open Lib Prog

/-- ディスク `k` を残して電源が落ちた後のマウントは、空きの数が正しければ通ってよく、そうでなければ断られる。 -/
def CutSafe (d : HtlDevice) (k : Disk) : Prop :=
  ∀ sb₀, ((mount ⟨{ d with disk := k }, sb₀⟩).1 = .ok () → FreeExact k (Superblock.ofBlock (k superblockBlock))) ∧
    ((mount ⟨{ d with disk := k }, sb₀⟩).1 = .ok () ∨ (mount ⟨{ d with disk := k }, sb₀⟩).1 = .error .volumeDirty)

/-- 汚れの旗が立っているか、ブロックを求めも放しもしない操作である。 -/
def Covered (e : Event Vol SessionOp (Except OwfsErr Unit)) : Prop :=
  match e.op with
  | .data op => ¬ op.TouchesBitmap e.before ∨ e.before.sb.stateFlags &&& stateDirty ≠ 0
  | .sync => True

section

variable {v : Vol} {d : HtlDevice} {k : Disk}

/-- 検査に通るスーパーブロックを持つディスクのマウントは、通るか、汚れを理由に断られる。 -/
theorem mount_ok_or_dirty (hff : v.dev.FaultFree) (hw : v.dev.Writes superblockBlock)
    (hvalid : superblockValidate (diskSb v) = true) :
    (mount v).1 = .ok () ∨ (mount v).1 = .error .volumeDirty := by
  have hwp : wp mount (fun _ _ => True) (fun e _ => e = .volumeDirty) v := by
    unfold mount
    rw [wp_bind]
    refine wp_superblockRead (fun c _ _ => ?_) (fun c hbad => ?_) (fun c hno => absurd ⟨hff, hw.toReads⟩ hno)
    · simp only [wp_bind, wp_get, wp_failIf, wp_ite, wp_modifySb, wp_throw]
      refine ⟨fun _ => trivial, fun _ => ⟨fun _ => ?_, fun _ => ?_⟩⟩
      · exact wp_superblockWrite (fun _ _ => trivial) (fun _ _ _ hno => absurd ⟨hff, hw⟩ hno)
      · exact wp_superblockWrite (fun _ _ => trivial) (fun _ _ _ hno => absurd ⟨hff, hw⟩ hno)
    · rw [hvalid] at hbad
      cases hbad
  rcases hrun : mount v with ⟨r, v'⟩
  cases r with
  | ok _ => exact .inl rfl
  | error e =>
      unfold wp at hwp
      rw [hrun] at hwp
      exact .inr (congrArg Except.error hwp)

/-- 検査に通るスーパーブロックを持ち、旗が下りていれば空きの数の正しいディスクは、電源断に耐える。 -/
theorem cutSafe_of_valid (hff : d.FaultFree) (hw : d.Writes superblockBlock)
    (hvalid : superblockValidate (Superblock.ofBlock (k superblockBlock)) = true)
    (hexact : (Superblock.ofBlock (k superblockBlock)).stateFlags &&& (stateDirty ||| stateLocked) = 0 →
      FreeExact k (Superblock.ofBlock (k superblockBlock))) : CutSafe d k := by
  intro sb₀
  refine ⟨fun hok => hexact ?_, mount_ok_or_dirty (v := ⟨{ d with disk := k }, sb₀⟩) hff hw hvalid⟩
  exact (mount_ok_spec.ok (run_eq hok)).2.2.1

/-- マウントの後の各時点で成り立つ条件。ここまでに書いたどのディスクも電源断に耐える。 -/
structure Guarded (d : HtlDevice) (w : Vol) : Prop extends Ready w where
  exact : FreeExact w.dev.disk w.sb
  config : w.dev.toHtlConfig = d.toHtlConfig
  branded : w.sb.Branded
  valid : superblockValidate (diskSb w) = true
  core : (diskSb w).core = w.sb.core
  dirty : w.sb.stateFlags &&& stateDirty ≠ 0 → (diskSb w).stateFlags &&& stateDirty ≠ 0
  clean : (diskSb w).stateFlags &&& (stateDirty ||| stateLocked) = 0 → FreeExact w.dev.disk (diskSb w)
  cuts : ∃ cuts, w.dev.trail = cuts ++ d.trail ∧ ∀ k ∈ cuts, CutSafe d k

variable {w w' : Vol}

theorem Guarded.device (h : Guarded d w) : d.FaultFree ∧ d.Writes superblockBlock := by
  have hff := h.faultFree
  have hw := h.writes_superblock
  unfold HtlConfig.FaultFree at hff ⊢
  rw [h.config] at hff hw
  exact ⟨hff, hw⟩

/-- ビットマップの同じディスクでは、ディスクの上のスーパーブロックの数も同じだけ正しい。 -/
theorem Guarded.clean_of_bitmap (h : Guarded d w) (hk : ∀ b ∈ w.sb.bitmapRegion, k b = w.dev.disk b)
    (hclean : (diskSb w).stateFlags &&& (stateDirty ||| stateLocked) = 0) : FreeExact k (diskSb w) := by
  have hcount : freeCount k (diskSb w).core = freeCount w.dev.disk (diskSb w).core := by
    rw [h.core]
    exact freeCount_congr (layout_core.mpr h.sound.layout) hk
  exact (h.clean hclean).trans hcount.symm

/-- ディスクの旗が立っているか、ビットマップに触れなければ、スーパーブロックの外への書き込みのどこで電源が落ちてもよい。 -/
theorem Guarded.carry (h : Guarded d w) (hr : Ready w') (hc : Carry w w')
    (hcov : Aside w w' ∨ w.sb.stateFlags &&& stateDirty ≠ 0) : Guarded d w' := by
  obtain ⟨hff, hw⟩ := h.device
  obtain ⟨new, htrail, hnew⟩ := hc.dev.trail
  obtain ⟨cuts, hcuts, hsafe⟩ := h.cuts
  have hkeep : diskSb w' = diskSb w := congrArg Superblock.ofBlock (hc.dev.disk superblockBlock fun hne => hne rfl)
  have hbitmap : ∀ k, k = w'.dev.disk ∨ k ∈ new → (diskSb w).stateFlags &&& (stateDirty ||| stateLocked) = 0 →
      FreeExact k (diskSb w) := by
    intro k hk hclean
    refine h.clean_of_bitmap (fun b hb => ?_) hclean
    rcases hcov with haside | hdirty
    · rcases hk with rfl | hk
      · exact haside.dev.disk b fun hno => hno hb
      · obtain ⟨new', htrail', hnew'⟩ := haside.dev.trail
        rw [List.append_cancel_right (htrail.symm.trans htrail')] at hk
        exact hnew' k hk b fun hno => hno hb
    · exact absurd hclean (and_or_ne_zero.mpr (.inl (h.dirty hdirty)))
  have hflags : w'.sb.stateFlags = w.sb.stateFlags ∧ (w.sb.Branded → w'.sb.Branded) := by
    obtain ⟨a, b, hsb⟩ := hc.shape
    rw [hsb]
    exact ⟨rfl, id⟩
  refine ⟨hr, hc.exact h.exact, hc.dev.config.trans h.config, hflags.2 h.branded, by rw [hkeep]; exact h.valid,
    by rw [hkeep, hc.shape.core]; exact h.core, by rw [hkeep, hflags.1]; exact h.dirty,
    by rw [hkeep]; exact hbitmap _ (.inl rfl), new ++ cuts, by rw [htrail, hcuts, List.append_assoc], fun k hk => ?_⟩
  rcases List.mem_append.mp hk with hk | hk
  · have hsame : Superblock.ofBlock (k superblockBlock) = diskSb w :=
      congrArg Superblock.ofBlock (hnew k hk superblockBlock fun hne => hne rfl)
    refine cutSafe_of_valid hff hw (by rw [hsame]; exact h.valid) ?_
    rw [hsame]
    exact hbitmap k (.inr hk)
  · exact hsafe k hk

/-- メモリの上のスーパーブロックをそのまま書いても、電源断に耐える。 -/
theorem Guarded.save {sb : Superblock} {c c' : Nat} (hr : Ready w) (hex : FreeExact w.dev.disk w.sb)
    (hsb : SameLedger w.sb sb) (hconf : w.dev.toHtlConfig = d.toHtlConfig) (hb : sb.Branded)
    (hcuts : ∃ cuts, w.dev.trail = cuts ++ d.trail ∧ ∀ k ∈ cuts, CutSafe d k) :
    Guarded d ((Vol.saved { w with sb := sb } c).atClock c') := by
  have hledger : SameLedger w.sb sb.sealed := trans_of SameLedger hsb (.sealed sb)
  have hdev : w.dev.Evolves {superblockBlock} ((Vol.saved { w with sb := sb } c).atClock c').dev :=
    (evolves_saved (v := { w with sb := sb })).trans .atClock
  have hr' : Ready ((Vol.saved { w with sb := sb } c).atClock c') := hr.resave hledger hdev
  have hex' := resave_freeExact hex hr.sound.layout hledger hdev
  have hvalid : superblockValidate sb.sealed = true := validate_sealed hb
  have hdisk : diskSb ((Vol.saved { w with sb := sb } c).atClock c') = sb.sealed := diskSb_saved
  obtain ⟨cuts, htrail, hsafe⟩ := hcuts
  have hff := hr.faultFree
  have hw := hr.writes_superblock
  unfold HtlConfig.FaultFree at hff
  rw [hconf] at hff hw
  refine ⟨hr', hex', hconf, hb, by rw [hdisk]; exact hvalid, by rw [hdisk]; exact (SameLedger.sealed sb).clerical.core,
    by rw [hdisk]; exact id, fun _ => by rw [hdisk]; exact hex', _ :: cuts, congrArg (List.cons _) htrail,
    fun k hk => ?_⟩
  rcases List.mem_cons.mp hk with rfl | hk
  · have hblock : Superblock.ofBlock (Function.update w.dev.disk superblockBlock sb.sealed.toBlock superblockBlock) =
        sb.sealed := hdisk
    refine cutSafe_of_valid hff hw ?_ fun _ => ?_
    · rw [hblock]
      exact hvalid
    · rw [hblock]
      exact hex'
  · exact hsafe k hk

theorem Guarded.sync (h : Guarded d w) : Guarded d (syncChanges w).2 := by
  have hwp : wp syncChanges (fun _ w' => Guarded d w') (fun _ w' => Guarded d w') w := by
    refine (syncChanges_spec h.sound.layout).mono ?_ (fun _ _ hno => absurd ⟨h.faultFree, h.serves⟩ hno)
    rintro _ _ ⟨sum, c, c', rfl, _⟩
    have hledger := SameLedger.synced w.sb sum
    exact .save h.toReady h.exact hledger h.config (hledger.branded h.branded) h.cuts
  exact hwp.state

theorem Guarded.step (h : Guarded d w) (op : SessionOp) (hcov : Covered (event SessionOp.run op w)) :
    Guarded d (op.run w).2 := by
  cases op with
  | sync => exact h.sync
  | data op =>
      obtain ⟨hr, hc, _⟩ := h.toReady.after (upholds_dataOp op)
      exact h.carry hr hc (hcov.imp_left (aside_dataOp h.toReady op))

/-- 通ったマウントの直後。 -/
theorem guarded_of_mount {v₀ : Vol} (hdisk : Ready { v with sb := diskSb v }) (hex : FreeExact v.dev.disk (diskSb v))
    (hmount : mount v = (.ok (), v₀)) : Guarded v.dev v₀ := by
  obtain ⟨hvalid, _, _, c, rfl⟩ := mount_ok_spec.ok hmount
  have hledger := SameLedger.mounted (diskSb v)
  exact Guarded.save (w := { v with sb := diskSb v }) (c := c) hdisk hex hledger rfl
    (hledger.branded (branded_of_validate hvalid)) ⟨[], rfl, fun _ hk => absurd hk List.not_mem_nil⟩

/-- ブロックを求めるか放す操作がどれも汚れの旗の下で行われる実行は、どの書き込みの直後に電源が落ちてもよい。 -/
theorem power_cut_protected {v₀ : Vol} (hdisk : Ready { v with sb := diskSb v })
    (hex : FreeExact v.dev.disk (diskSb v)) (hmount : mount v = (.ok (), v₀)) (ops : List SessionOp)
    (hcov : ∀ e ∈ trace SessionOp.run ops v₀, Covered e) :
    ∃ cuts, (final SessionOp.run ops v₀).dev.trail = cuts ++ v.dev.trail ∧ ∀ k ∈ cuts, CutSafe v.dev k :=
  (trace_invariant (I := Guarded v.dev) (P := Covered) (fun op _ h hc => h.step op hc) ops v₀
    (guarded_of_mount hdisk hex hmount) hcov).1.cuts

end

/-! ## 同期の後の書き込み -/

/-- マウントの直後に同期したボリューム。 -/
@[irreducible] def syncedVolume : Vol := (syncChanges mountedVolume).2

theorem guarded_mountedVolume : Guarded formattedVolume.dev mountedVolume := by
  have hfmt := formatted_formattedVolume.1
  have hready : Ready formattedVolume := ⟨hfmt.sound, faultFree_formattedVolume, hfmt.serves⟩
  have hdisk : diskSb ⟨formattedVolume.dev, Superblock.zero⟩ = formattedVolume.sb := hfmt.disk
  exact guarded_of_mount (v := ⟨formattedVolume.dev, Superblock.zero⟩) (by rw [hdisk]; exact hready)
    (by rw [hdisk]; exact hfmt.exact) (mount_formattedVolume _)

theorem guarded_syncedVolume : Guarded formattedVolume.dev syncedVolume := by
  unfold syncedVolume
  exact guarded_mountedVolume.sync

theorem inSession_syncedVolume : InSession syncedVolume := by
  unfold syncedVolume
  exact inSession_mountedVolume.step .sync

/-- 書き込みの記録の先頭は、後から書いた分に入る。 -/
theorem headD_mem_of_append {α : Type} {l new old : List α} {a : α} (h : l = new ++ old)
    (hlt : old.length < l.length) : l.headD a ∈ new := by
  cases new with
  | nil =>
      rw [h, List.nil_append] at hlt
      exact absurd hlt (lt_irrefl _)
  | cons x new =>
      rw [h]
      exact List.mem_cons_self

theorem final_sync {v : Vol} {ops : List SessionOp} :
    final SessionOp.run (.sync :: ops) v = final SessionOp.run ops (syncChanges v).2 := rfl

theorem final_sync_allocWrite : final SessionOp.run (.sync :: allocWrite) mountedVolume = wrote syncedVolume := by
  have hsync : (syncChanges mountedVolume).2 = syncedVolume := by
    unfold syncedVolume
    rfl
  rw [final_sync, hsync, final_allocWrite inSession_syncedVolume (by decide +kernel)]

/-- 書き終えた時点のディスク。 -/
def syncedCut : Disk := (wrote syncedVolume).dev.trail.headD fun _ => Bytes.zero 4096

theorem syncedCut_superblock : Superblock.ofBlock (syncedCut superblockBlock) = diskSb syncedVolume := by
  have hcarry := carry_allocWrite inSession_syncedVolume.toReady
  rw [final_allocWrite inSession_syncedVolume (by decide +kernel)] at hcarry
  obtain ⟨new, htrail, hnew⟩ := hcarry.dev.trail
  have hmem : syncedCut ∈ new := headD_mem_of_append htrail (by decide +kernel)
  exact congrArg Superblock.ofBlock (hnew _ hmem superblockBlock fun hne => hne rfl)

/-- 同期の書いたスーパーブロックは、メモリの上のものである。 -/
theorem diskSb_syncedVolume : diskSb syncedVolume = syncedVolume.sb := by
  have hs := inSession_mountedVolume
  have hwp : wp syncChanges (fun _ v' => diskSb v' = v'.sb) (fun _ v' => diskSb v' = v'.sb) mountedVolume := by
    refine (syncChanges_spec hs.sound.layout).mono ?_ (fun _ _ hno => absurd ⟨hs.faultFree, hs.serves⟩ hno)
    rintro _ _ ⟨sum, c, c', rfl, _⟩
    exact diskSb_saved
  unfold syncedVolume
  exact hwp.state

/-- 同期の後の書き込みは、旗の下りたまま空きの数を変えるので、そこで電源が落ちると誤った数のままマウントが通る。 -/
theorem sync_then_write_unprotected :
    ¬ ∀ (v v₀ : Vol) (ops : List SessionOp), Ready { v with sb := diskSb v } →
      FreeExact v.dev.disk (diskSb v) → mount v = (.ok (), v₀) →
      ∃ cuts, (final SessionOp.run ops v₀).dev.trail = cuts ++ v.dev.trail ∧ ∀ k ∈ cuts, CutSafe v.dev k := by
  intro hclaim
  have hfmt := formatted_formattedVolume.1
  have hready : Ready formattedVolume := ⟨hfmt.sound, faultFree_formattedVolume, hfmt.serves⟩
  have hdisk : diskSb ⟨formattedVolume.dev, Superblock.zero⟩ = formattedVolume.sb := hfmt.disk
  obtain ⟨cuts, htrail, hsafe⟩ := hclaim ⟨formattedVolume.dev, Superblock.zero⟩ mountedVolume (.sync :: allocWrite)
    (by rw [hdisk]; exact hready) (by rw [hdisk]; exact hfmt.exact) (mount_formattedVolume _)
  rw [final_sync_allocWrite] at htrail
  have hcut : CutSafe formattedVolume.dev syncedCut :=
    hsafe syncedCut (headD_mem_of_append htrail (by decide +kernel))
  have hblock : Superblock.ofBlock (syncedCut superblockBlock) = syncedVolume.sb :=
    syncedCut_superblock.trans diskSb_syncedVolume
  have hmount := mount_faultFree (v := ⟨{ formattedVolume.dev with disk := syncedCut }, Superblock.zero⟩)
    faultFree_formattedVolume hready.writes_superblock
    (by rw [diskSb, hblock, ← diskSb_syncedVolume]; exact guarded_syncedVolume.valid)
    (by rw [diskSb, hblock]; decide +kernel)
  have hexact := (hcut Superblock.zero).1 (congrArg Prod.fst hmount)
  rw [hblock] at hexact
  exact absurd hexact (show ¬ syncedVolume.sb.freeBlocks.toNat = freeCount syncedCut syncedVolume.sb by decide +kernel)

/-- 同期の前の操作は、どれも汚れの旗の下で行われる。 -/
theorem covered_until_sync {rest : List SessionOp} (hrest : ∀ v, ∀ e ∈ trace SessionOp.run rest v, Covered e)
    (ops : List DataOp) : ∀ v, Ready v → v.sb.stateFlags &&& stateDirty ≠ 0 →
    ∀ e ∈ trace SessionOp.run (ops.map .data ++ .sync :: rest) v, Covered e := by
  induction ops with
  | nil =>
      intro v _ _ e he
      rcases List.mem_cons.mp he with rfl | he
      · trivial
      · exact hrest _ e he
  | cons op ops ih =>
      intro v hr hdirty e he
      obtain ⟨hr', hc, _⟩ := hr.after (upholds_dataOp op)
      obtain ⟨a, b, hsb⟩ := hc.shape
      rcases List.mem_cons.mp he with rfl | he
      · exact .inr hdirty
      · exact ih _ hr' (by rw [hsb]; exact hdirty) e he

/-- マウントの直後に書いて同期し、その後でもう一つ inode を割り当てる実行の例。 -/
theorem power_cut_protected_on_mountedVolume :
    ∃ cuts, (final SessionOp.run (allocWrite ++ [.sync, .data (.inodeAlloc ⟨0, 0⟩ entryFile none 0 0)])
        mountedVolume).dev.trail = cuts ++ formattedVolume.dev.trail ∧
      ∀ k ∈ cuts, CutSafe formattedVolume.dev k := by
  have hfmt := formatted_formattedVolume.1
  have hready : Ready formattedVolume := ⟨hfmt.sound, faultFree_formattedVolume, hfmt.serves⟩
  have hdisk : diskSb ⟨formattedVolume.dev, Superblock.zero⟩ = formattedVolume.sb := hfmt.disk
  refine power_cut_protected (v := ⟨formattedVolume.dev, Superblock.zero⟩) (by rw [hdisk]; exact hready)
    (by rw [hdisk]; exact hfmt.exact) (mount_formattedVolume _) _ ?_
  refine covered_until_sync (fun v e he => ?_)
    [.inodeAlloc ⟨0, 0⟩ entryFile none 0 0, .fileWrite ⟨0, 0⟩ 1 [7] 0 1 (by decide)]
    mountedVolume inSession_mountedVolume.toReady (by decide +kernel)
  rw [List.mem_singleton.mp he]
  exact .inl id

end OwStorage.Owfs
