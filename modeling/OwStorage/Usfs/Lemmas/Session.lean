import OwStorage.Usfs.Session
import OwStorage.Usfs.Theorems.FileStore

/-!
# スーパーブロックだけの書き直し

マウントと同期と検査は、ブロック 0 と、配置に関わらない欄だけを書き直す。表もビットマップもデータも変えない。
-/

namespace OwStorage.Usfs

open Lib Prog

/-- 配置も `security_flags` も署名も変えずに、スーパーブロックを書き直した。 -/
structure Rewritten (v v' : Vol) : Prop where
  resaved : Resaved v v'
  security : v'.sb.securityFlags = v.sb.securityFlags
  signature : v'.sb.signature = v.sb.signature

instance : IsPreorder Vol Rewritten where
  refl v := ⟨.refl v, rfl, rfl⟩
  trans _ _ _ h h' := ⟨h.resaved.trans h'.resaved, h'.security.trans h.security, h'.signature.trans h.signature⟩

/-- 状態の旗とマウントの回数と検査値の欄だけの変更。 -/
def Clerical (sb sb' : Superblock) : Prop :=
  ∃ state mounts sum crc, sb' =
    { sb with stateFlags := state, mountCount := mounts, fletcher64Bitmap := sum, checksum := crc }

section

variable {v v' : Vol} {α : Type} {p : UsfsM α}

theorem Clerical.rewritten {sb : Superblock} (h : Clerical v.sb sb) : Rewritten v { v with sb := sb } := by
  obtain ⟨state, mounts, sum, crc, rfl⟩ := h
  exact ⟨⟨⟨_, _, _, _, _, _, rfl⟩, rfl, fun _ _ => rfl⟩, rfl, rfl⟩

theorem Still.rewritten (h : Still v v') : Rewritten v v' := by
  obtain ⟨c, rfl⟩ := h
  exact ⟨.of_still ⟨c, rfl⟩, rfl, rfl⟩

theorem rewritten_of_still (h : Preserves Still p) : Preserves Rewritten p := fun v =>
  (h v).mono (fun _ _ hs => hs.rewritten) (fun _ _ hs => hs.rewritten)

theorem rewritten_modifySb {f : Superblock → Superblock} (h : ∀ sb, Clerical sb (f sb)) :
    Preserves Rewritten (modifySb f) := fun v => (h v.sb).rewritten

theorem rewritten_setFlags (mask : UInt32) : Preserves Rewritten (modifySb (setFlags mask)) :=
  rewritten_modifySb fun _ => ⟨_, _, _, _, rfl⟩

theorem rewritten_clearFlags (mask : UInt32) : Preserves Rewritten (modifySb (clearFlags mask)) :=
  rewritten_modifySb fun _ => ⟨_, _, _, _, rfl⟩

theorem rewritten_superblockWrite : Preserves Rewritten superblockWrite := fun v =>
  wp_superblockWrite
    (fun _ _ => ⟨⟨.sealed v.sb, rfl, fun _ hb => Function.update_of_ne hb _ _⟩, rfl, rfl⟩)
    (fun _ _ _ _ => ⟨⟨.sealed v.sb, rfl, fun _ _ => rfl⟩, rfl, rfl⟩)

theorem rewritten_flushBlk : Preserves Rewritten flushBlk := fun _ =>
  wp_flushBlk (fun c => Still.rewritten ⟨c, rfl⟩) (fun c _ => Still.rewritten ⟨c, rfl⟩)

theorem rewritten_close :
    Preserves Rewritten (do modifySb (clearFlags (stateDirty ||| stateLocked)); superblockWrite; flushBlk) :=
  .bind (rewritten_clearFlags _) fun _ => .bind rewritten_superblockWrite fun _ => rewritten_flushBlk

theorem rewritten_markDirty : Preserves Rewritten markDirty :=
  .bind (rewritten_setFlags _) fun _ => rewritten_superblockWrite

theorem rewritten_markClean : Preserves Rewritten markClean :=
  .bind .get fun _ => .bind (.failIf _ _) fun _ => rewritten_close

theorem rewritten_flushDirty : Preserves Rewritten flushDirty :=
  .bind (rewritten_of_still still_bitmapComputeFletcher64) fun _ =>
    .bind (rewritten_modifySb fun _ => ⟨_, _, _, _, rfl⟩) fun _ => rewritten_close

theorem rewritten_persist : Preserves Rewritten persist :=
  .bind rewritten_superblockWrite.attempt fun _ => .bind rewritten_flushBlk.attempt fun _ => .pure _

end

/-! ## 検査 -/

/-- 検査の間も、ボリュームはスーパーブロックだけが書き直される。 -/
abbrev RewrittenIn : CheckState → CheckState → Prop := Order.Preimage CheckState.volLens.get Rewritten

section

theorem rewritten_checkVol {α : Type} {p : UsfsM α} (h : Preserves Rewritten p) : Preserves RewrittenIn (checkVol p) :=
  h.within

theorem rewritten_countCorrupt : Preserves RewrittenIn countCorrupt := fun s => refl_of Rewritten s.vol

theorem still_bitmapCountFree : Preserves Still bitmapCountFree := by
  unfold bitmapCountFree
  refine .bind .get fun v => .ite (.pure _) (.bind (.loop fun i acc => .bind (still_fetchFor _ _).attempt fun r => ?_)
    fun r => ?_)
  all_goals cases r <;> exact .pure _

theorem rewritten_scanVolume : Preserves RewrittenIn scanVolume := by
  have hentries : Preserves RewrittenIn checkEntries := by
    unfold checkEntries
    refine .bind .get fun s => .forUpto fun i => .bind
      (rewritten_checkVol (rewritten_of_still (still_entryRead _))).attempt fun r => ?_
    cases r with
    | ok e => exact .pure _
    | error err =>
        cases err with
        | checksumMismatch => exact rewritten_countCorrupt
        | notFound => exact .pure _
        | _ => exact .throw _
  have hsignature : Preserves RewrittenIn checkSignature :=
    .bind .get fun s => .whenever (.bind (rewritten_checkVol (rewritten_of_still still_signatureCompute)) fun sig =>
      .whenever rewritten_countCorrupt)
  exact .bind hentries fun _ =>
    .bind (rewritten_checkVol (rewritten_of_still still_bitmapComputeFletcher64)) fun _ => .bind .get fun _ =>
      .bind (.whenever rewritten_countCorrupt) fun _ =>
        .bind (rewritten_checkVol (rewritten_of_still still_bitmapCountFree)) fun _ =>
          .bind (.whenever rewritten_countCorrupt) fun _ => hsignature

theorem rewritten_concludeCheck : Preserves RewrittenIn concludeCheck := by
  refine .bind .get fun _ => .ite ?_ ?_
  · exact .bind (rewritten_checkVol (rewritten_clearFlags _)) fun _ =>
      .bind (rewritten_checkVol rewritten_superblockWrite) fun _ =>
        .bind (rewritten_checkVol rewritten_flushBlk).attempt fun _ => .pure _
  · exact .bind (rewritten_checkVol (rewritten_setFlags _)) fun _ =>
      .bind (rewritten_checkVol rewritten_persist) fun _ => .throw _

theorem rewritten_consistencyCheck : Preserves RewrittenIn consistencyCheck := by
  refine .bind (fun s => refl_of Rewritten s.vol) fun _ => .bind .get fun _ => .ite ?_ ?_
  · exact .bind (rewritten_checkVol (rewritten_setFlags _)) fun _ => .bind rewritten_countCorrupt fun _ =>
      .bind (rewritten_checkVol rewritten_persist) fun _ => .throw _
  · exact .bind (rewritten_checkVol (rewritten_setFlags _)) fun _ =>
      .bind (rewritten_checkVol rewritten_superblockWrite) fun _ => .bind rewritten_scanVolume fun _ =>
        rewritten_concludeCheck

theorem wp_runCheck {v : Vol} {Q : Unit → Vol → Prop} {E : UsfsErr → Vol → Prop} :
    wp runCheck Q E v ↔ wp consistencyCheck (fun a s' => Q a s'.vol) (fun e s' => E e s'.vol) ⟨v, 0⟩ := by
  unfold wp runCheck
  rcases consistencyCheck ⟨v, 0⟩ with ⟨_ | _, _⟩ <;> exact Iff.rfl

theorem rewritten_runCheck : Preserves Rewritten runCheck := fun v =>
    wp_runCheck.mpr (rewritten_consistencyCheck ⟨v, 0⟩)

end

/-! ## 書き直しで変わらないもの -/

section

variable {v v' : Vol}

theorem Resaved.kept (h : Resaved v v') (hk : Kept v) : Kept v' := by
  have htable := h.same_table hk.stable.placed
  have hff : v'.dev.FaultFree := by
    unfold HtlConfig.FaultFree
    rw [h.config]
    exact hk.stable.faultFree
  obtain ⟨⟨_, _, _, _, _, _, hsb⟩, hconfig, _⟩ := h
  refine ⟨⟨?_, hff, ?_⟩, fun idx => ?_, fun idx hlive hpos => ?_, fun idx => ?_⟩
  · rw [hsb]
    exact ⟨hk.stable.placed.tableAfter, hk.stable.placed.bitmapAfter, hk.stable.placed.dataAfter,
      hk.stable.placed.entriesFit⟩
  · rw [hsb, hconfig]
    exact ⟨hk.stable.serves.writes, hk.stable.serves.wholeBlocks⟩
  · rw [htable]
    exact hk.summed idx
  · rw [htable] at hlive hpos ⊢
    have hin := hk.housed idx hlive hpos
    rw [hsb]
    exact ⟨hin.pos, hin.low, hin.high⟩
  · rw [htable]
    exact hk.named idx

theorem Resaved.balanced (h : Resaved v v') (hb : Balanced v) : Balanced v' := by
  have hready := h.ready hb.ready
  have hview := h.view hb.ready.layout
  have hfree : v'.sb.freeBlocks = v.sb.freeBlocks := congrArg View.freeBlocks hview
  obtain ⟨⟨_, _, _, _, _, _, hsb⟩, _, _⟩ := h
  have hdata : v'.sb.dataCount = v.sb.dataCount := by
    rw [hsb]
    rfl
  have hextent : v'.sb.extent = v.sb.extent := by
    rw [hsb]
    rfl
  refine ⟨hready, fun idx => ?_, fun idx hpos => ?_, fun idx => ?_, ?_, fun idx => ?_, ?_⟩
  · rw [hview]
    exact hb.summed idx
  · rw [hview] at hpos ⊢
    have hin := hb.housed idx hpos
    rw [hsb]
    exact ⟨hin.pos, hin.low, hin.high⟩
  · rw [hview]
    exact hb.bare idx
  · rw [hview, hextent]
    exact hb.allotted
  · rw [hview]
    exact hb.sized idx
  · rw [hview, hfree, hdata]
    exact hb.counted

theorem Resaved.sturdy (h : Resaved v v') (hs : Sturdy v) : Sturdy v' := by
  refine ⟨h.balanced hs.balanced, h.kept hs.kept, fun b hb => ?_⟩
  rw [h.config]
  apply hs.writes b
  obtain ⟨⟨_, _, _, _, _, _, hsb⟩, _, _⟩ := h
  rwa [hsb] at hb

theorem Resaved.directory (h : Resaved v v') (hk : Kept v) : directory v' = directory v := by
  unfold Usfs.directory
  rw [h.same_table hk.stable.placed]

/-- 暗号の旗が変わらなければ、どのファイルの内容も変わらない。 -/
theorem Resaved.contents (h : Resaved v v') (hb : Balanced v)
    (henc : v'.sb.securityFlags &&& secEncrypted = v.sb.securityFlags &&& secEncrypted) : contents v' = contents v := by
  have htable := h.same_table hb.ready.layout.placed
  have hdisk := h.disk
  obtain ⟨⟨_, _, _, _, _, _, hsb⟩, _, _⟩ := h
  have hxform : ∀ e buf b, cryptoXform v'.sb e buf b = cryptoXform v.sb e buf b := by
    intro e buf b
    unfold cryptoXform isEncrypted
    rw [henc, hsb]
  funext idx
  unfold Usfs.contents
  rw [htable]
  congr 2
  unfold fileContent
  refine pages_congr fun i hi => ?_
  have hmem := (hb.housed idx).straight.block_mem hi
  have hlow := ((hb.housed idx).isData hmem).1
  unfold plainBlock
  rw [hxform, hdisk]
  intro hzero
  have hdata := hb.ready.layout.dataAfter
  have hbitmap := hb.ready.layout.bitmapAfter
  have htable := hb.ready.layout.tableAfter
  rw [hzero] at hlow
  have hz : (0 : UInt32).toNat = 0 := rfl
  omega

end

/-! ## 列の間の条件 -/

/-- 開いたボリュームの、呼び出しの列の間の条件。 -/
structure InSession (v : Vol) : Prop where
  sturdy : Sturdy v
  branded : v.sb.Branded
  writes : v.dev.Writes 0

section

variable {v v' : Vol}

theorem InSession.online (h : InSession v) : v.dev.FaultFree ∧ v.dev.Writes 0 :=
  ⟨h.sturdy.balanced.ready.faultFree, h.writes⟩

theorem InSession.resaved (h : InSession v) (hres : Resaved v v') : InSession v' := by
  refine ⟨hres.sturdy h.sturdy, hres.geometry.branded h.branded, ?_⟩
  rw [hres.config]
  exact h.writes

theorem InSession.entry (h : InSession v) (op : EntryOp) (hread : op.FreshlyRead v) : InSession (op.run v).2 := by
  have hs := h.sturdy.kept.step op hread
  refine ⟨h.sturdy.step op hread, ?_, ?_⟩
  · obtain ⟨_, _, hsb⟩ := hs.shape
    rw [hsb]
    exact h.branded
  · rw [hs.config]
    exact h.writes

/-- 通ったアンマウントは、旗を下ろしたスーパーブロックを書く。通らないのは、誤りの旗があるときだけである。 -/
theorem InSession.unmount (h : InSession v) :
    wp unmount
      (fun _ v' => v.sb.stateFlags &&& stateError = 0 ∧ Rewritten v v' ∧ diskSb v' = v'.sb ∧
        superblockValidate v'.sb = true ∧ v'.sb.stateFlags = v.sb.stateFlags &&& ~~~ (stateDirty ||| stateLocked))
      (fun _ v' => v.sb.stateFlags &&& stateError ≠ 0 ∧ v' = v) v := by
  unfold Usfs.unmount
  rw [wp_bind, wp_get, wp_bind, wp_failIf]
  refine ⟨fun herr => ⟨herr, rfl⟩, fun hok => ?_⟩
  simp only [wp_bind, wp_modifySb]
  refine wp_superblockWrite (fun c _ => ?_) (fun _ _ _ hno => absurd h.online hno)
  refine wp_flushBlk (fun c' => ⟨not_not.mp hok, ?_, diskSb_saved, validate_sealed h.branded, rfl⟩)
    (fun c' hno => absurd ⟨h.online.1, h.writes.valid⟩ hno)
  exact ⟨⟨⟨_, _, _, _, _, _, rfl⟩, rfl, fun _ hb => Function.update_of_ne hb _ _⟩, rfl, rfl⟩

/-- 誤りの旗がなければ、アンマウントしてマウントし直せる。スーパーブロックは、書いた通りに読み直される。 -/
theorem InSession.remount (h : InSession v) (sb : Superblock) :
    wp (remount sb) (fun _ v' => v.sb.stateFlags &&& stateError = 0 ∧ Rewritten v v')
      (fun _ v' => v.sb.stateFlags &&& stateError ≠ 0 ∧ v' = v) v := by
  unfold Usfs.remount
  rw [wp_bind]
  refine h.unmount.mono ?_ (fun _ _ hno => hno)
  rintro _ v₁ ⟨hok, hre, hdisk, hvalid, hflags⟩
  have hdisk : ∀ sb, diskSb ⟨v₁.dev, sb⟩ = v₁.sb := fun _ => hdisk
  have hclear : ∀ m, ~~~ (stateDirty ||| stateLocked) &&& m = 0 ∨ m = stateError → v₁.sb.stateFlags &&& m = 0 := by
    intro m hm
    rw [hflags]
    rcases hm with hm | rfl
    · exact and_not_and_eq_zero hm
    · rw [UInt32.and_assoc, UInt32.and_comm (~~~ _), ← UInt32.and_assoc, hok, UInt32.zero_and]
  have honline : v₁.dev.FaultFree ∧ v₁.dev.Writes 0 := (h.resaved hre.resaved).online
  rw [wp_bind, wp_modifySb]
  unfold mount
  rw [wp_bind]
  refine wp_superblockRead (fun c _ _ => ?_) (fun c hbad => ?_) (fun c hno => absurd ⟨honline.1, honline.2.toReads⟩ hno)
  · rw [hdisk]
    have hread : Rewritten v (v₁.atClock c) := trans_of Rewritten hre (Still.rewritten ⟨c, rfl⟩)
    simp only [wp_bind, wp_get, wp_failIf, wp_ite, wp_modifySb]
    refine ⟨fun herr => absurd (hclear _ (.inr rfl)) herr, fun _ => ⟨fun hdirty => absurd (hclear _ (.inl rfl)) hdirty,
      fun _ => ?_⟩⟩
    refine wp_superblockWrite (fun c' _ => ⟨hok, ?_⟩) (fun _ _ _ hno => absurd honline hno)
    refine trans_of Rewritten hread ?_
    exact ⟨⟨⟨_, _, _, _, _, _, rfl⟩, rfl, fun _ hb => Function.update_of_ne hb _ _⟩, rfl, rfl⟩
  · rw [hdisk, hvalid] at hbad
    cases hbad

/-- 項目への操作と、欄の書き換えと、署名のほかの呼び出しは、スーパーブロックだけを書き直す。 -/
theorem InSession.rewritten (h : InSession v) {op : SessionOp} (hentry : ∀ o, op ≠ .entry o)
    (hsec : ∀ f, op ≠ .secure f)
    (hsign : op ≠ .sign) : Rewritten v (op.run v).2 := by
  cases op with
  | entry o => exact absurd rfl (hentry o)
  | secure f => exact absurd rfl (hsec f)
  | sign => exact absurd rfl hsign
  | markDirty => exact (rewritten_markDirty v).state
  | markClean => exact (rewritten_markClean v).state
  | flushDirty => exact (rewritten_flushDirty v).state
  | check => exact (rewritten_runCheck v).state
  | remount sb =>
      have hwp : wp (Usfs.remount sb) (fun _ v' => Rewritten v v') (fun _ v' => Rewritten v v') v := by
        refine (h.remount sb).mono (fun _ _ hre => hre.2) ?_
        rintro _ _ ⟨_, hv⟩
        rw [hv]
        exact refl_of Rewritten v
      exact hwp.state

theorem InSession.sign (h : InSession v) :
    wp signatureUpdate
      (fun _ v' => Resaved v v' ∧ v'.sb.securityFlags = v.sb.securityFlags ∧
        v'.sb.signature = tableSignature v.dev.disk v.sb) (fun _ _ => False) v := by
  unfold signatureUpdate
  rw [wp_bind]
  refine (signatureCompute_ready h.sturdy.balanced.ready).mono ?_ (fun _ _ hno => hno)
  rintro _ _ ⟨rfl, c, rfl⟩
  rw [wp_bind, wp_modifySb]
  refine wp_superblockWrite (fun c' _ => ?_) (fun _ _ _ hno => absurd h.online hno)
  exact ⟨⟨⟨_, _, _, _, _, _, rfl⟩, rfl, fun _ hb => Function.update_of_ne hb _ _⟩, rfl, rfl⟩

theorem InSession.resaves (h : InSession v) {op : SessionOp} (hentry : ∀ o, op ≠ .entry o) :
    Resaved v (op.run v).2 := by
  by_cases hsec : ∃ f, op = .secure f
  · obtain ⟨f, rfl⟩ := hsec
    exact ⟨⟨_, _, _, _, _, _, rfl⟩, rfl, fun _ _ => rfl⟩
  by_cases hsign : op = .sign
  · subst hsign
    have hwp : wp signatureUpdate (fun _ v' => Resaved v v') (fun _ v' => Resaved v v') v :=
      h.sign.mono (fun _ _ hs => hs.1) (fun _ _ hno => hno.elim)
    exact hwp.state
  · exact (h.rewritten hentry (fun f hf => hsec ⟨f, hf⟩) hsign).resaved

theorem InSession.step (h : InSession v) (op : SessionOp) (hread : op.FreshlyRead v) : InSession (op.run v).2 := by
  by_cases hentry : ∃ o, op = .entry o
  · obtain ⟨o, rfl⟩ := hentry
    exact h.entry o hread
  · exact h.resaved (h.resaves fun o ho => hentry ⟨o, ho⟩)

end

section

variable {who : OwIdentity} {totalBlocks b : UInt32} {label : Option (List UInt8)} {d d' : HtlDevice} {v : Vol}

theorem inSession_of_format (hf : d.Reliable) (hlayout : layoutBitmapBlocks totalBlocks = some b)
    (hcovers : CoversData totalBlocks b) (hdev : d.totalBlocks = 0 ∨ totalBlocks.toNat ≤ d.totalBlocks.toNat)
    (hfmt : formatVolume who totalBlocks label d = (.ok (), d')) (hopen : Opened d' v) : InSession v := by
  obtain ⟨hsturdy, _⟩ := sturdy_of_format hf hlayout hcovers hdev hfmt hopen
  obtain ⟨_, _, _, _, hfresh, _⟩ := fresh_of_format hf (hcovers.fit hlayout) hfmt hopen
  refine ⟨hsturdy, branded_of_valid hfresh.valid, hfresh.ready.serves.writes 0 ?_⟩
  have hl := hfresh.ready.layout.dataAfter
  have hm := hfresh.ready.layout.placed.bitmapAfter
  have ht := hfresh.ready.layout.placed.tableAfter
  change 0 < _
  omega

end

end OwStorage.Usfs
