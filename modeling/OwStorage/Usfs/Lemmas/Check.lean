import OwStorage.Usfs.Lemmas.Session
import OwStorage.Lib.Count

/-!
# 検査の数える誤り

検査は、検査値の合わない記録と、ビットマップの検査値の違いと、空きの数の違いと、署名の違いを数える。失敗のない装置の上では、
数はディスクとスーパーブロックだけで決まる。
-/

namespace OwStorage.Usfs

open Lib Prog

/-- 検査値の合わない記録。種類のないスロットは調べない。 -/
def Corrupt (v : Vol) (i : Nat) : Prop :=
  ((viewOf v).table (.ofNat i)).entryType ≠ 0 ∧ entryVerifyChecksum ((viewOf v).table (.ofNat i)) = false

instance {v : Vol} : DecidablePred (Corrupt v) := fun _ => inferInstanceAs (Decidable (_ ∧ _))

/-- ビットマップの検査値は、書いていないか、今のビットマップに合う。 -/
def SumAgrees (v : Vol) : Prop :=
  v.sb.fletcher64Bitmap = 0 ∨ bitmapFletcher v.dev.disk v.sb = v.sb.fletcher64Bitmap

instance {v : Vol} : Decidable (SumAgrees v) := inferInstanceAs (Decidable (_ ∨ _))

/-- 署名のないボリュームか、署名が今の表に合うボリューム。 -/
def Attested (v : Vol) : Prop :=
  v.sb.securityFlags &&& secSigned = 0 ∨ v.sb.signature = tableSignature v.dev.disk v.sb

instance {v : Vol} : Decidable (Attested v) := inferInstanceAs (Decidable (_ ∨ _))

/-- 検査の数える誤りの数。 -/
def findings (v : Vol) : UInt32 :=
  UInt32.ofNat (Nat.count (Corrupt v) v.sb.totalEntries.toNat) + (if SumAgrees v then 0 else 1) +
    (if UInt32.ofNat (freeCount v.dev.disk v.sb) = v.sb.freeBlocks then 0 else 1) + (if Attested v then 0 else 1)

section

variable {s : CheckState} {v v' : Vol} {α : Type}

theorem wp_checkVol {p : UsfsM α} {Q : α → CheckState → Prop} {E : UsfsErr → CheckState → Prop} :
    wp (checkVol p) Q E s ↔ wp p (fun a v' => Q a ⟨v', s.corruptCount⟩) (fun e v' => E e ⟨v', s.corruptCount⟩) s.vol :=
  wp_within

theorem wp_countCorrupt {Q : Unit → CheckState → Prop} {E : UsfsErr → CheckState → Prop} :
    wp countCorrupt Q E s ↔ Q () ⟨s.vol, s.corruptCount + 1⟩ := Iff.rfl

theorem wp_countWhen {c a : Prop} [Decidable c] [Decidable a] {Q : Unit → CheckState → Prop}
    {E : UsfsErr → CheckState → Prop}
    (hc : c ↔ ¬ a) (hQ : Q () ⟨s.vol, s.corruptCount + (if a then 0 else 1)⟩) : wp (whenever c countCorrupt) Q E s := by
  rw [wp_whenever, wp_countCorrupt]
  refine ⟨fun h => ?_, fun h => ?_⟩
  · rwa [if_neg (hc.mp h)] at hQ
  · rwa [if_pos (not_not.mp (mt hc.mpr h)), UInt32.add_zero] at hQ

theorem checkEntries_spec (hr : Stable s.vol) :
    wp checkEntries
      (fun _ s' => s'.corruptCount = s.corruptCount +
          UInt32.ofNat (Nat.count (Corrupt s.vol) s.vol.sb.totalEntries.toNat) ∧ Still s.vol s'.vol)
      (fun _ _ => False) s := by
  unfold checkEntries
  rw [wp_bind, wp_get]
  refine wp_forUpto (fun i s' => s'.corruptCount = s.corruptCount + UInt32.ofNat (Nat.count (Corrupt s.vol) i) ∧
    Still s.vol s'.vol) ⟨by simp, refl_of Still s.vol⟩ ?_ (fun _ h => h)
  rintro i ⟨_, k⟩ hi ⟨hk, c, rfl⟩
  have hk : k = s.corruptCount + UInt32.ofNat (Nat.count (Corrupt s.vol) i) := hk
  have hlt := s.vol.sb.totalEntries.toNat_lt
  have hidx : (UInt32.ofNat i).toNat = i := toNat_ofNat_lt (by omega)
  rw [wp_bind, wp_attempt, wp_checkVol]
  refine (entryRead_stable (v := s.vol.atClock c) (Still.stable ⟨c, rfl⟩ hr) (.ofNat i)).mono ?_ ?_
  · rintro e _ ⟨_, rfl, hsum, c', rfl⟩
    have hgood : ¬ Corrupt s.vol i := by
      rintro ⟨htype, hbad⟩
      have hgood : entryVerifyChecksum ((viewOf s.vol).table (.ofNat i)) = true := hsum htype
      rw [hgood] at hbad
      cases hbad
    refine ⟨?_, c', rfl⟩
    rw [Nat.count_succ, if_neg hgood, Nat.add_zero]
    exact hk
  · rintro e _ ⟨⟨c', rfl⟩, ⟨_, hno⟩ | ⟨rfl, hbad⟩⟩
    · exact absurd (show (UInt32.ofNat i).toNat < s.vol.sb.totalEntries.toNat by rwa [hidx]) hno
    · have hcorrupt : Corrupt s.vol i := hbad
      refine ⟨?_, c', rfl⟩
      rw [Nat.count_succ, if_pos hcorrupt, UInt32.ofNat_add, ← UInt32.add_assoc, ← hk]
      rfl

theorem checkSignature_spec (hr : Ready s.vol) :
    wp checkSignature
      (fun _ s' => s'.corruptCount = s.corruptCount + (if Attested s.vol then 0 else 1) ∧ Still s.vol s'.vol)
      (fun _ _ => False) s := by
  unfold checkSignature
  rw [wp_bind, wp_get, wp_whenever]
  refine ⟨fun hsigned => ?_, fun hplain => ⟨?_, refl_of Still s.vol⟩⟩
  · rw [wp_bind, wp_checkVol]
    refine (signatureCompute_ready hr).mono ?_ (fun _ _ hno => hno)
    rintro _ _ ⟨rfl, c, rfl⟩
    refine wp_countWhen (a := Attested s.vol) ⟨fun hne h => h.elim hsigned hne, fun h heq => h (.inr heq)⟩ ⟨rfl, c, rfl⟩
  · rw [if_pos (.inl (not_not.mp hplain)), UInt32.add_zero]

theorem scanVolume_spec (hr : Ready s.vol) :
    wp scanVolume (fun _ s' => s'.corruptCount = s.corruptCount + findings s.vol ∧ Still s.vol s'.vol)
      (fun _ _ => False) s := by
  unfold scanVolume
  rw [wp_bind]
  refine (checkEntries_spec hr.stable).mono ?_ (fun _ _ hno => hno)
  rintro _ ⟨_, k⟩ ⟨hk, c₁, rfl⟩
  have hr₁ : Ready (s.vol.atClock c₁) := Still.ready ⟨c₁, rfl⟩ hr
  rw [wp_bind, wp_checkVol]
  refine (bitmapComputeFletcher64_ready hr₁).mono ?_ (fun _ _ hno => hno)
  rintro _ _ ⟨rfl, c₂, rfl⟩
  rw [wp_bind, wp_get, wp_bind]
  -- 要約の比較は、検査値が書いてあるときだけ行う。
  refine wp_countWhen (a := SumAgrees s.vol) ⟨fun h ha => ha.elim h.1 h.2, fun h => ⟨fun hz => h (.inl hz), fun he =>
    h (.inr he)⟩⟩ ?_
  have hr₂ : Ready ((s.vol.atClock c₁).atClock c₂) := Still.ready ⟨c₂, rfl⟩ hr₁
  rw [wp_bind, wp_checkVol]
  refine (bitmapCountFree_spec hr₂.layout hr₂.faultFree (hr₂.serves.bitmap hr₂.layout).reads).mono ?_
    (fun _ _ hno => hno)
  rintro _ _ ⟨rfl, c₃, rfl⟩
  rw [wp_bind]
  refine wp_countWhen (a := UInt32.ofNat (freeCount s.vol.dev.disk s.vol.sb) = s.vol.sb.freeBlocks) Iff.rfl ?_
  have hr₃ : Ready (((s.vol.atClock c₁).atClock c₂).atClock c₃) := Still.ready ⟨c₃, rfl⟩ hr₂
  refine (checkSignature_spec hr₃).mono ?_ (fun _ _ hno => hno)
  rintro _ ⟨_, k'⟩ ⟨hk', c₄, rfl⟩
  refine ⟨?_, c₄, rfl⟩
  have hk : k = s.corruptCount + UInt32.ofNat (Nat.count (Corrupt s.vol) s.vol.sb.totalEntries.toNat) := hk
  have hk' : k' = k + (if SumAgrees s.vol then 0 else 1) +
      (if UInt32.ofNat (freeCount s.vol.dev.disk s.vol.sb) = s.vol.sb.freeBlocks then 0 else 1) +
      (if Attested s.vol then 0 else 1) := hk'
  change k' = s.corruptCount + findings s.vol
  rw [hk', hk]
  unfold findings
  ac_rfl

/-! ## 検査の全体 -/

theorem Rewritten.attested (h : Rewritten v v') (hr : Ready v) : Attested v' ↔ Attested v := by
  unfold Attested
  rw [h.security, h.signature, h.resaved.signature hr]

theorem Resaved.sumAgrees (h : Resaved v v') (hr : Ready v) (hsum : v'.sb.fletcher64Bitmap = v.sb.fletcher64Bitmap) :
    SumAgrees v' ↔ SumAgrees v := by
  unfold SumAgrees
  rw [hsum, h.fletcher hr]

/-- スーパーブロックの旗だけを書き直しても、数える誤りは変わらない。 -/
theorem Rewritten.findings (h : Rewritten v v') (hr : Ready v) (hsum : v'.sb.fletcher64Bitmap = v.sb.fletcher64Bitmap) :
    findings v' = findings v := by
  have hview := h.resaved.view hr.layout
  have hattested := h.attested hr
  have hagrees := h.resaved.sumAgrees hr hsum
  have hcount : Nat.count (Corrupt v') v.sb.totalEntries.toNat = Nat.count (Corrupt v) v.sb.totalEntries.toNat := by
    refine count_congr fun i _ => ?_
    unfold Corrupt
    rw [hview]
  have hfree : freeCount v'.dev.disk v'.sb = freeCount v.dev.disk v.sb := by
    rw [← freeCount_congr hr.layout (h.resaved.bitmap hr.layout)]
    obtain ⟨⟨⟨_, _, _, _, _, _, hsb⟩, _, _⟩, _, _⟩ := h
    rw [hsb]
    rfl
  have hblocks : v'.sb.freeBlocks = v.sb.freeBlocks := congrArg View.freeBlocks hview
  have htotal : v'.sb.totalEntries = v.sb.totalEntries := by
    obtain ⟨⟨⟨_, _, _, _, _, _, hsb⟩, _, _⟩, _, _⟩ := h
    rw [hsb]
  unfold Usfs.findings
  simp only [hattested, hagrees, hfree, hblocks, htotal, hcount]

/-- 検査に通るスーパーブロックから始めた検査は、誤りがないときに限って通る。 -/
theorem consistencyCheck_spec (hr : Ready s.vol) (hw : s.vol.dev.Writes 0)
    (hvalid : superblockValidate s.vol.sb = true) :
    wp consistencyCheck
      (fun _ s' => findings s.vol = 0 ∧ s'.corruptCount = 0 ∧
        (diskSb s'.vol).stateFlags &&& (stateDirty ||| stateLocked ||| stateError) = 0)
      (fun e s' => e = .checksumMismatch ∧ findings s.vol ≠ 0 ∧ s'.corruptCount = findings s.vol ∧
        s'.vol.sb.stateFlags &&& stateError ≠ 0 ∧ (diskSb s'.vol).stateFlags &&& stateError ≠ 0) s := by
  have hon : s.vol.dev.FaultFree ∧ s.vol.dev.Writes 0 := ⟨hr.faultFree, hw⟩
  unfold consistencyCheck
  simp only [wp_bind, wp_modify, wp_get, wp_ite]
  refine ⟨fun hno => ?_, fun _ => ?_⟩
  · rw [hvalid] at hno
    cases hno
  simp only [wp_checkVol, wp_modifySb]
  refine wp_superblockWrite (fun c _ => ?_) (fun _ _ _ hno => absurd hon hno)
  have hre : Rewritten s.vol (Vol.saved { s.vol with sb := setFlags stateLocked s.vol.sb } c) :=
    ⟨⟨⟨_, _, _, _, _, _, rfl⟩, rfl, fun _ hb => Function.update_of_ne hb _ _⟩, rfl, rfl⟩
  have hfind := hre.findings hr rfl
  refine (scanVolume_spec (s := ⟨Vol.saved { s.vol with sb := setFlags stateLocked s.vol.sb } c, 0⟩)
    (hre.resaved.ready hr)).mono ?_ (fun _ _ hno => hno.elim)
  rintro _ ⟨_, k⟩ ⟨hk, c', rfl⟩
  have hk : k = findings s.vol := by
    rw [← hfind]
    exact hk.trans (UInt32.zero_add _)
  unfold concludeCheck
  rw [wp_bind, wp_get, wp_ite]
  refine ⟨fun hz => ?_, fun hz => ?_⟩
  · simp only [wp_bind, wp_checkVol, wp_modifySb]
    refine wp_superblockWrite (fun c₂ _ => ?_) (fun _ _ _ hno => absurd hon hno)
    rw [wp_attempt, wp_checkVol]
    refine wp_flushBlk (fun c₃ => ⟨hk.symm.trans hz, hz, ?_⟩) (fun _ hno => absurd ⟨hr.faultFree, hw.valid⟩ hno)
    rw [diskSb_atClock, diskSb_saved]
    exact and_not_and_eq_zero (by decide)
  · simp only [wp_bind, wp_checkVol, wp_modifySb, wp_throw, persist, wp_attempt, wp_pure]
    have hmark : ∀ sb : Superblock, (setFlags stateError sb).stateFlags &&& stateError ≠ 0 :=
      fun _ => or_and_ne_zero.mpr (.inr (by decide))
    refine wp_superblockWrite (fun c₂ _ => ?_) (fun _ _ _ hno => absurd hon hno)
    refine wp_flushBlk (fun _ => ⟨trivial, by rwa [← hk], hk, hmark _, ?_⟩)
      (fun _ hno => absurd ⟨hr.faultFree, hw.valid⟩ hno)
    rw [diskSb_atClock, diskSb_saved]
    exact hmark _

/-- 収支の合うボリュームでは、ビットマップの検査値と署名だけが問われる。 -/
theorem Balanced.findings_eq (h : Balanced v) :
    findings v = (if SumAgrees v then 0 else 1) + (if Attested v then 0 else 1) := by
  have hcount : Nat.count (Corrupt v) v.sb.totalEntries.toNat = 0 := by
    refine count_eq_zero_iff.mpr fun i _ hbad => ?_
    have hgood := h.summed (.ofNat i) hbad.1
    rw [hbad.2] at hgood
    cases hgood
  have hfree : UInt32.ofNat (freeCount v.dev.disk v.sb) = v.sb.freeBlocks := by
    have hcount : freeCount v.dev.disk v.sb = v.sb.freeBlocks.toNat := by
      rw [h.counted]
      refine vacancies_congr fun i hi => ?_
      rw [Nat.zero_add]
      exact (bitsView_eq hi).symm
    rw [hcount, UInt32.ofNat_toNat]
  unfold findings
  rw [hcount, if_pos hfree, UInt32.add_zero]
  exact congrArg (· + _) (UInt32.zero_add _)

end

end OwStorage.Usfs
