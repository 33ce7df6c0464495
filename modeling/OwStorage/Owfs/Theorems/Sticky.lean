import OwStorage.Owfs.Lemmas.Gate
import OwStorage.Owfs.Theorems.Condemned
import OwStorage.Owfs.Theorems.PowerCut

/-!
# 消えない誤りの印

メモリとディスクの両方のスーパーブロックに誤りの印があるとき、検査が通るまで、どの呼び出しの列もそれを消さない。
スーパーブロックのほかのブロックも変わらない。
-/

namespace OwStorage.Owfs

open Lib Prog

/-- ボリュームへの呼び出し。ファイルの操作は、読み直した inode でも、呼び出し側の持つ inode でも行う。 -/
inductive VolumeOp where
  | life (op : LifeOp)
  | data (op : DataOp)
  | mutate (op : MutateOp)
  | cryptoPurge

def VolumeOp.run : VolumeOp → OwfsM Unit
  | life op => op.run
  | data op => op.run
  | mutate op => op.run
  | cryptoPurge => Owfs.cryptoPurge

/-- メモリの上でもディスクの上でも、誤りの印がある。 -/
structure Flagged (v : Vol) : Prop where
  memory : v.sb.Errored
  disk : (diskSb v).Errored

/-- 失敗のない装置の上では、誤りの印は残り、スーパーブロックだけが書かれる。 -/
def Sticks (v v' : Vol) : Prop :=
  v.dev.FaultFree → Flagged v → v.dev.Evolves {superblockBlock} v'.dev ∧ Flagged v'

instance : IsPreorder Vol Sticks where
  refl v _ h := ⟨.refl _ _, h⟩
  trans := by
    intro v v' v'' h h' hff hv
    obtain ⟨hdev, hv'⟩ := h hff hv
    obtain ⟨hdev', hv''⟩ := h' (hdev.faultFree hff) hv'
    exact ⟨hdev.trans hdev', hv''⟩

section

variable {α : Type} {v v' : Vol} {p : OwfsM α}

theorem Still.sticks (h : Still v v') : Sticks v v' := by
  obtain ⟨c, rfl⟩ := h
  exact fun _ hv => ⟨.atClock, hv.memory, hv.disk⟩

theorem sticks_of_still (h : Preserves Still p) : Preserves Sticks p := fun v =>
  (h v).mono (fun _ _ hs => hs.sticks) (fun _ _ hs => hs.sticks)

/-- 門の閉じたボリュームで何もしない呼び出しは、印を残す。 -/
theorem sticks_of_idle (h : ∀ v : Vol, v.sb.Shut → Idle p v) : Preserves Sticks p := by
  intro v
  by_cases hv : v.sb.Errored
  · refine wp.mono (h v (.inr (.inl hv))) ?_ ?_ <;>
    · rintro _ _ rfl
      exact refl_of Sticks _
  · exact wp_trivial.mono (fun _ _ _ _ hf => absurd hf.memory hv) (fun _ _ _ _ hf => absurd hf.memory hv)

theorem sticks_modifySb {f : Superblock → Superblock} (h : ∀ sb : Superblock, sb.Errored → (f sb).Errored) :
    Preserves Sticks (modifySb f) := fun v _ hv => ⟨.refl _ _, h v.sb hv.memory, hv.disk⟩

theorem sticks_superblockWrite : Preserves Sticks superblockWrite := by
  intro v
  refine wp_superblockWrite (fun c _ _ hv => ⟨evolves_saved, hv.memory, ?_⟩)
    (fun _ c _ _ _ hv => ⟨.atClock, hv.memory, hv.disk⟩)
  rw [diskSb_saved]
  exact hv.memory

theorem sticks_flushBlk : Preserves Sticks flushBlk := fun _ =>
  wp_flushBlk (fun _ => still_atClock.sticks) (fun _ _ => still_atClock.sticks)

/-- スーパーブロックの読み直しは、印のある方をメモリに写す。 -/
theorem sticks_superblockRead : Preserves Sticks superblockRead := fun _ =>
  wp_superblockRead (fun _ _ _ _ hv => ⟨.atClock, hv.disk, hv.disk⟩) (fun _ _ _ hv => ⟨.atClock, hv.disk, hv.disk⟩)
    (fun _ _ => still_atClock.sticks)

theorem errored_setFlags {sb : Superblock} (mask : UInt32) (h : sb.Errored) : (setFlags mask sb).Errored :=
  or_and_ne_zero.mpr (.inl h)

theorem sticks_setFlags (mask : UInt32) : Preserves Sticks (modifySb (setFlags mask)) :=
  sticks_modifySb fun _ h => errored_setFlags mask h

/-- 汚れとロックの旗を下ろして書く所は、マウントと同期に共通である。 -/
theorem sticks_writeCleared :
    Preserves Sticks (do modifySb (clearFlags (stateDirty ||| stateLocked)); superblockWrite; flushBlk) :=
  .bind (sticks_modifySb fun _ h => errored_clearFlags h) fun _ => .bind sticks_superblockWrite fun _ => sticks_flushBlk

theorem sticks_markDirty : Preserves Sticks markDirty := .bind (sticks_setFlags _) fun _ => sticks_superblockWrite

theorem sticks_markClean : Preserves Sticks markClean :=
  .bind .get fun _ => .bind (.failIf _ _) fun _ => sticks_writeCleared

theorem sticks_unmount : Preserves Sticks unmount :=
  .bind .get fun _ => .bind (.failIf _ _) fun _ => sticks_writeCleared

theorem sticks_syncChanges : Preserves Sticks syncChanges :=
  .bind (sticks_of_still still_bitmapComputeFletcher64) fun _ => .bind (sticks_modifySb fun _ h => h) fun _ =>
    sticks_writeCleared

theorem sticks_mount : Preserves Sticks mount := by
  refine .bind sticks_superblockRead fun _ => .bind .get fun _ => .bind (.failIf _ _) fun _ => .ite ?_ ?_
  · exact .bind (sticks_setFlags _) fun _ => .bind sticks_superblockWrite fun _ => .throw _
  · exact .bind (sticks_modifySb fun _ h => h) fun _ => .bind (sticks_setFlags _) fun _ => sticks_superblockWrite

theorem sticks_persist : Preserves Sticks persist :=
  .bind sticks_superblockWrite.attempt fun _ => .bind sticks_flushBlk.attempt fun _ => .pure _

theorem sticks_purgePass (fill : UInt8) : Preserves Sticks (purgePass fill) :=
  .bind (sticks_modifySb fun _ h => h) fun _ => .bind sticks_superblockWrite fun _ =>
    .bind sticks_flushBlk.attempt fun _ =>
    .pure _

theorem sticks_cryptoPurge : Preserves Sticks cryptoPurge :=
  .bind (sticks_purgePass _) fun _ => .bind (sticks_purgePass _) fun _ => .bind (sticks_purgePass _) fun _ =>
    .bind (sticks_modifySb fun _ h => h) fun _ => sticks_syncChanges

theorem sticks_withFresh {n : UInt32} {q : FileM α} (h : ∀ s : FileState, s.vol.sb.Shut → Idle q s) :
    Preserves Sticks (withFresh n q) := by
  refine .bind (sticks_of_still (still_inodeRead n)) fun ino => .bind (sticks_of_idle fun v hv => ?_) fun _ => .pure _
  exact idle_withInode (h ⟨v, ino⟩ hv)

theorem sticks_dataOp (op : DataOp) : Preserves Sticks op.run := by
  cases op with
  | inodeAlloc who entryType name nameLen parent =>
      exact .bind (sticks_of_idle fun v hv => idle_inodeAlloc hv who entryType name nameLen parent) fun _ => .pure _
  | inodeFree who n => exact sticks_of_idle fun v hv => idle_inodeFree hv who n
  | inodeRead n => exact sticks_of_still (@still_readOnly (.inodeRead n) rfl)
  | catalogCreate who parent name nameLen =>
      exact .bind (sticks_of_idle fun v hv => idle_catalogMake hv who entryFile parent name nameLen) fun _ => .pure _
  | catalogMkdir who parent name nameLen =>
      exact .bind (sticks_of_idle fun v hv => idle_catalogMake hv who entryCatalog parent name nameLen) fun _ => .pure _
  | catalogInsert who catalog name nameLen target entryType =>
      exact sticks_of_idle fun v hv => idle_catalogInsert hv who catalog name nameLen target entryType
  | catalogRemove who catalog name nameLen =>
      exact sticks_of_idle fun v hv => idle_catalogRemove hv who catalog name nameLen
  | catalogLookup who catalog name nameLen =>
      exact sticks_of_still (@still_readOnly (.catalogLookup who catalog name nameLen) rfl)
  | catalogList who catalog maxEntries =>
      exact sticks_of_still (@still_readOnly (.catalogList who catalog maxEntries) rfl)
  | fileRead who n offset len => exact sticks_of_still (@still_readOnly (.fileRead who n offset len) rfl)
  | fileWrite who n buf offset len fits =>
      exact sticks_withFresh fun _ hs => idle_fileWrite hs who n buf offset len
  | fileTruncate who n newSize => exact sticks_withFresh fun _ hs => idle_fileTruncate hs who n newSize

/-! ## 検査 -/

/-- 通らない検査は、印を残す。 -/
theorem consistencyCheck_sticks {s : CheckState} :
    wp consistencyCheck (fun _ _ => True) (fun _ s' => Sticks s.vol s'.vol) s := by
  unfold consistencyCheck
  simp only [wp_bind, wp_modify, wp_get, wp_ite, wp_checkVol, wp_modifySb, wp_countCorrupt, wp_throw]
  refine ⟨fun _ => ?_, fun _ => ?_⟩
  · have hflag : Sticks s.vol { s.vol with sb := setFlags (stateError ||| stateLocked) s.vol.sb } :=
      sticks_setFlags (stateError ||| stateLocked) s.vol
    exact (sticks_persist _).mono (fun _ _ h => trans_of Sticks hflag h) (fun _ _ h => trans_of Sticks hflag h)
  · have hflag : Sticks s.vol { s.vol with sb := setFlags stateLocked s.vol.sb } := sticks_setFlags stateLocked s.vol
    have hwrite := (sticks_superblockWrite { s.vol with sb := setFlags stateLocked s.vol.sb }).and
      (wp_superblockWrite (Q := fun _ v' => v'.dev.Writes superblockBlock) (E := fun _ _ => True) (fun _ hw => hw)
        (fun _ _ _ _ => trivial))
    refine hwrite.mono ?_ (fun _ _ h => trans_of Sticks hflag h.1)
    rintro _ v₁ ⟨h₁, hw⟩
    have h₁ := trans_of Sticks hflag h₁
    refine (still_scanVolume _).mono ?_ (fun _ _ h => trans_of Sticks h₁ (Still.sticks h))
    rintro _ ⟨v₂, k⟩ ⟨c, rfl⟩
    have h₂ : Sticks s.vol (v₁.atClock c) := trans_of Sticks h₁ still_atClock.sticks
    unfold concludeCheck
    simp only [wp_bind, wp_get, wp_ite, wp_checkVol, wp_modifySb, wp_throw]
    refine ⟨fun _ => ?_, fun _ => ?_⟩
    · -- 旗を下ろした書き込みは失敗しないので、誤りを返すことはない。
      refine wp_superblockWrite (fun _ _ => ?_) (fun _ c' _ hno hff hv => ?_)
      · rw [wp_attempt, wp_checkVol]
        exact wp_flushBlk (fun _ => trivial) (fun _ _ => trivial)
      · exact absurd ⟨(h₂ hff hv).1.faultFree hff, hw⟩ hno
    · have h₃ : Sticks (v₁.atClock c) { v₁.atClock c with sb := setFlags stateError (v₁.atClock c).sb } :=
        sticks_setFlags stateError (v₁.atClock c)
      exact (sticks_persist _).mono (fun _ _ h => trans_of Sticks (trans_of Sticks h₂ h₃) h)
        (fun _ _ h => trans_of Sticks (trans_of Sticks h₂ h₃) h)

/-! ## 呼び出しの列 -/

/-- 検査が通った。 -/
def Cleared (e : Event Vol VolumeOp (Except OwfsErr Unit)) : Prop :=
  e.op = .life .consistencyCheck ∧ e.result = .ok ()

theorem volumeOp_sticks (op : VolumeOp) :
    wp op.run (fun _ v' => op ≠ .life .consistencyCheck → Sticks v v') (fun _ v' => Sticks v v') v := by
  have hall : ∀ {q : OwfsM Unit}, Preserves Sticks q →
      wp q (fun _ v' => op ≠ .life .consistencyCheck → Sticks v v') (fun _ v' => Sticks v v') v :=
    fun h => (h v).mono (fun _ _ hs _ => hs) (fun _ _ hs => hs)
  cases op with
  | life op =>
      cases op with
      | mount => exact hall sticks_mount
      | unmount => exact hall sticks_unmount
      | markDirty => exact hall sticks_markDirty
      | markClean => exact hall sticks_markClean
      | syncChanges => exact hall sticks_syncChanges
      | consistencyCheck =>
          refine wp_runCheck.mpr (consistencyCheck_sticks.mono (fun _ _ _ hne => absurd rfl hne) (fun _ _ h => h))
  | data op => exact hall (sticks_dataOp op)
  | mutate op => exact hall (sticks_of_idle fun _ hv => op.idle hv)
  | cryptoPurge => exact hall sticks_cryptoPurge

theorem Sticks.step (op : VolumeOp) (hno : ¬ Cleared (event VolumeOp.run op v)) : Sticks v (op.run v).2 := by
  have hwp := volumeOp_sticks (v := v) op
  unfold wp at hwp
  rcases hrun : op.run v with ⟨r, v'⟩
  rw [hrun] at hwp
  cases r with
  | ok _ => exact hwp fun hop => hno ⟨hop, congrArg Prod.fst hrun⟩
  | error _ => exact hwp

/-- 検査が通るまでは、両方の誤りの印が残り、マウントは通らず、スーパーブロックのほかのブロックは変わらない。 -/
theorem error_sticks_until_check_passes (hff : v.dev.FaultFree) (hmem : v.sb.Errored) (hdisk : (diskSb v).Errored)
    (ops : List VolumeOp) (hcheck : ∀ e ∈ trace VolumeOp.run ops v, ¬ Cleared e) :
    (final VolumeOp.run ops v).sb.Errored ∧ (diskSb (final VolumeOp.run ops v)).Errored ∧
      (∀ b, b ≠ superblockBlock → (final VolumeOp.run ops v).dev.disk b = v.dev.disk b) ∧
      ∀ e ∈ trace VolumeOp.run ops v, e.op = .life .mount → e.result ≠ .ok () := by
  obtain ⟨hfin, hall⟩ := trace_invariant (I := fun w => v.dev.Evolves {superblockBlock} w.dev ∧ Flagged w)
    (P := fun e => ¬ Cleared e)
    (fun op w hw hno => by
      obtain ⟨hdev, hw'⟩ := Sticks.step op hno (hw.1.faultFree hff) hw.2
      exact ⟨hw.1.trans hdev, hw'⟩) ops v ⟨.refl _ _, hmem, hdisk⟩ hcheck
  refine ⟨hfin.2.memory, hfin.2.disk, fun b hb => hfin.1.disk b hb, fun e he hop => ?_⟩
  obtain ⟨⟨_, hbefore⟩, heq⟩ := hall e he
  rw [heq, hop]
  obtain ⟨err, v', hrun, _⟩ := (mount_rejected ⟨.inr hbefore.memory, .inr hbefore.disk⟩).exists_error
  change (mount e.before).1 ≠ .ok ()
  rw [hrun]
  exact fun hok => by cases hok

end

/-- 汚れたまま電源が切れ、検査で誤りの見つかったボリューム。 -/
def erroredVol : Vol := Vol.saved { crashedVol with sb := setFlags stateError crashedSb } 0

theorem faultFree_erroredVol : erroredVol.dev.FaultFree := by
  unfold HtlConfig.FaultFree erroredVol
  rw [config_saved]
  intro k
  rfl

/-- 断られたマウントの後で、旗を下ろし、鍵を消し、同期する。 -/
def eraseAttempt : List VolumeOp := [.life .mount, .life .markClean, .cryptoPurge, .life .syncChanges]

/-- それでも誤りの印は残る。 -/
theorem error_sticks_on_erroredVol :
    (final VolumeOp.run eraseAttempt erroredVol).sb.Errored ∧
      (diskSb (final VolumeOp.run eraseAttempt erroredVol)).Errored ∧
      (trace VolumeOp.run eraseAttempt erroredVol).Forall fun e => e.op = .life .mount → e.result ≠ .ok () := by
  have herr : (setFlags stateError crashedSb).sealed.Errored :=
    show (stateDirty ||| stateError) &&& stateError ≠ 0 by decide
  have hmem : erroredVol.sb.Errored := by
    unfold erroredVol
    rw [sb_saved]
    exact herr
  have hdisk : (diskSb erroredVol).Errored := by
    unfold erroredVol
    rw [diskSb_saved]
    exact herr
  have hno : ∀ e ∈ trace VolumeOp.run eraseAttempt erroredVol, ¬ Cleared e := by
    intro e he hc
    have hop := op_mem_of_mem_trace he
    rw [hc.1] at hop
    simp [eraseAttempt] at hop
  obtain ⟨hmem', hdisk', _, hmount⟩ := error_sticks_until_check_passes faultFree_erroredVol hmem hdisk eraseAttempt hno
  exact ⟨hmem', hdisk', List.forall_iff_forall_mem.mpr hmount⟩

end OwStorage.Owfs
