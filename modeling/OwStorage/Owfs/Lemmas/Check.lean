import OwStorage.Owfs.Lemmas.Catalog
import OwStorage.Owfs.Lemmas.Format

/-!
# 検査の数える誤り

検査は、検査値の合わない inode と、ビットマップの検査値の違いと、空きの数の違いを数える。失敗のない装置の上では、
数はディスクとスーパーブロックだけで決まる。
-/

namespace OwStorage.Owfs

open Lib Prog

/-- 検査値の合わない inode。種類のないスロットは調べない。 -/
def Corrupt (disk : Disk) (sb : Superblock) (n : Nat) : Prop :=
  (inodeAt disk sb (UInt32.ofNat n)).entryType ≠ 0 ∧
    inodeVerifyChecksum (inodeAt disk sb (UInt32.ofNat n)) = false

instance {disk : Disk} {sb : Superblock} : DecidablePred (Corrupt disk sb) :=
  fun _ => inferInstanceAs (Decidable (_ ∧ _))

/-- ビットマップの検査値は、書いていないか、今のビットマップに合う。 -/
def SumAgrees (v : Vol) : Prop :=
  v.sb.fletcher64Bitmap = 0 ∨ v.sb.fletcher64Bitmap = bitmapFletcher v.dev.disk v.sb

instance {v : Vol} : Decidable (SumAgrees v) := inferInstanceAs (Decidable (_ ∨ _))

/-- 検査の数える誤りの数。 -/
def findings (v : Vol) : UInt32 :=
  UInt32.ofNat (Nat.count (Corrupt v.dev.disk v.sb) v.sb.totalInodes.toNat) +
    (if SumAgrees v then 0 else 1) + (if UInt32.ofNat (freeCount v.dev.disk v.sb) = v.sb.freeBlocks then 0 else 1)

section

variable {s : CheckState} {v v' : Vol}

theorem checkInodes_spec (hl : Layout s.vol.sb) (hff : s.vol.dev.FaultFree)
    (hserves : Serves s.vol.dev.toHtlConfig s.vol.sb) :
    wp checkInodes
      (fun _ s' => s'.corruptCount = s.corruptCount +
          UInt32.ofNat (Nat.count (Corrupt s.vol.dev.disk s.vol.sb) s.vol.sb.totalInodes.toNat) ∧
        Still s.vol s'.vol)
      (fun _ _ => False) s := by
  unfold checkInodes
  rw [wp_bind, wp_get]
  refine wp_forUpto (fun i s' => s'.corruptCount = s.corruptCount +
      UInt32.ofNat (Nat.count (Corrupt s.vol.dev.disk s.vol.sb) i) ∧ Still s.vol s'.vol)
    ⟨by simp, refl_of Still s.vol⟩ ?_ (fun _ h => h)
  rintro i ⟨_, k⟩ hi ⟨hk, c, rfl⟩
  have hk : k = s.corruptCount + UInt32.ofNat (Nat.count (Corrupt s.vol.dev.disk s.vol.sb) i) := hk
  have hlt := s.vol.sb.totalInodes.toNat_lt
  have hidx : (UInt32.ofNat i).toNat = i := toNat_ofNat_lt (by omega)
  rw [wp_bind, wp_attempt, wp_checkVol]
  refine (inodeRead_spec (v := s.vol.atClock c) hl (UInt32.ofNat i)).mono ?_ ?_
  · rintro _ _ ⟨_, rfl, hsum, c', rfl⟩
    have hgood : ¬ Corrupt s.vol.dev.disk s.vol.sb i := by
      rintro ⟨ht, hbad⟩
      have hgood : inodeVerifyChecksum (inodeAt s.vol.dev.disk s.vol.sb (UInt32.ofNat i)) = true := hsum ht
      rw [hgood] at hbad
      cases hbad
    refine ⟨?_, c', rfl⟩
    rw [Nat.count_succ, if_neg hgood, Nat.add_zero]
    exact hk
  · rintro e _ ⟨⟨c', rfl⟩, ⟨_, hno⟩ | ⟨rfl, hbad⟩ | ⟨_, hno⟩⟩
    · exact absurd (show (UInt32.ofNat i).toNat < s.vol.sb.totalInodes.toNat by rwa [hidx]) hno
    · have hcorrupt : Corrupt s.vol.dev.disk s.vol.sb i := hbad
      refine ⟨?_, c', rfl⟩
      rw [Nat.count_succ, if_pos hcorrupt, UInt32.ofNat_add, ← UInt32.add_assoc, ← hk]
      rfl
    · exact absurd ⟨hff, hserves⟩ hno

theorem scanVolume_spec (hl : Layout s.vol.sb) (hff : s.vol.dev.FaultFree)
    (hserves : Serves s.vol.dev.toHtlConfig s.vol.sb) :
    wp scanVolume
      (fun _ s' => s'.corruptCount = s.corruptCount + findings s.vol ∧ Still s.vol s'.vol)
      (fun _ _ => False) s := by
  unfold scanVolume
  rw [wp_bind]
  refine (checkInodes_spec hl hff hserves).mono ?_ (fun _ _ h => h)
  rintro _ ⟨_, k₁⟩ ⟨hk₁, c₁, rfl⟩
  rw [wp_bind, wp_checkVol]
  refine (bitmapComputeFletcher64_spec (v := s.vol.atClock c₁) hl hff hserves).mono ?_ (fun _ _ h => h)
  rintro _ _ ⟨rfl, c₂, rfl⟩
  -- 要約の比較は、検査値が書いてあるときだけ行う。
  have hsum : ∀ {P : CheckState → Prop},
      (∀ k, k = k₁ + (if SumAgrees s.vol then 0 else 1) → P ⟨s.vol.atClock c₂, k⟩) →
      wp (whenever (s.vol.sb.fletcher64Bitmap ≠ 0 ∧
          bitmapFletcher s.vol.dev.disk s.vol.sb ≠ s.vol.sb.fletcher64Bitmap) countCorrupt)
        (fun _ s' => P s') (fun _ _ => False) ⟨s.vol.atClock c₂, k₁⟩ := by
    intro P hP
    rw [wp_whenever, wp_countCorrupt]
    refine ⟨fun h => hP _ ?_, fun h => hP _ ?_⟩
    · rw [if_neg fun ha => ha.elim h.1 fun he => h.2 he.symm]
    · have ha : SumAgrees s.vol := by
        by_contra hno
        exact h ⟨fun hz => hno (.inl hz), fun he => hno (.inr he.symm)⟩
      rw [if_pos ha, UInt32.add_zero]
  rw [wp_bind, wp_get, wp_bind]
  refine hsum fun k₂ hk₂ => ?_
  rw [wp_bind, wp_checkVol]
  refine (bitmapCountFree_spec (v := s.vol.atClock c₂) hl hff hserves).mono ?_ (fun _ _ h => h)
  rintro _ _ ⟨rfl, c₃, rfl⟩
  rw [wp_whenever, wp_countCorrupt]
  have hk₁ : k₁ = s.corruptCount + _ := hk₁
  refine ⟨fun h => ⟨?_, c₃, rfl⟩, fun h => ⟨?_, c₃, rfl⟩⟩
  · have h : UInt32.ofNat (freeCount s.vol.dev.disk s.vol.sb) ≠ s.vol.sb.freeBlocks := h
    change k₂ + 1 = _
    rw [findings, if_neg h, hk₂, hk₁]
    ac_rfl
  · have h : UInt32.ofNat (freeCount s.vol.dev.disk s.vol.sb) = s.vol.sb.freeBlocks := not_not.mp h
    change k₂ = _
    rw [findings, if_pos h, hk₂, hk₁, UInt32.add_zero]
    ac_rfl

theorem sumAgrees_resave (hl : Layout v.sb) (hsb : SameLedger v.sb v'.sb)
    (hsum : v'.sb.fletcher64Bitmap = v.sb.fletcher64Bitmap) (hd : v.dev.Evolves {superblockBlock} v'.dev) :
    SumAgrees v' ↔ SumAgrees v := by
  unfold SumAgrees
  rw [hsum, resave_fletcher hl hsb hd]

/-- スーパーブロックの旗だけを書き直しても、検査値の合わない inode は変わらない。 -/
theorem count_resave (hl : Layout v.sb) (hsb : SameLedger v.sb v'.sb) (hd : v.dev.Evolves {superblockBlock} v'.dev) :
    Nat.count (Corrupt v'.dev.disk v'.sb) v.sb.totalInodes.toNat =
      Nat.count (Corrupt v.dev.disk v.sb) v.sb.totalInodes.toNat := by
  refine count_congr fun n hn => ?_
  have hlt := v.sb.totalInodes.toNat_lt
  have hn' : (UInt32.ofNat n).toNat < v.sb.totalInodes.toNat := by rwa [toNat_ofNat_lt (by omega)]
  unfold Corrupt
  rw [resave_inodeAt hl hsb hd hn']

theorem findings_resave (hl : Layout v.sb) (hsb : SameLedger v.sb v'.sb)
    (hsum : v'.sb.fletcher64Bitmap = v.sb.fletcher64Bitmap) (hd : v.dev.Evolves {superblockBlock} v'.dev) :
    findings v' = findings v := by
  have hbit : ∀ b ∈ v.sb.bitmapRegion, v'.dev.disk b = v.dev.disk b :=
    fun b hb => hd.disk b (hl.bitmap_ne_superblock hb)
  have hfree : freeCount v'.dev.disk v'.sb = freeCount v.dev.disk v.sb := by
    rw [hsb.freeCount, freeCount_congr hl hbit]
  unfold findings
  rw [hsb.totalInodes, count_resave hl hsb hd, if_congr (sumAgrees_resave hl hsb hsum hd) rfl rfl,
    hfree, hsb.freeBlocks]

/-- 検査の間、ロックの旗を立てて書いたスーパーブロック。 -/
def lockedSb (sb : Superblock) : Superblock := (setFlags stateLocked sb).sealed

/-- 検査を終えて、旗を下ろしたスーパーブロック。 -/
def checkedSb (sb : Superblock) : Superblock :=
  clearFlags (stateDirty ||| stateLocked ||| stateError) (lockedSb sb)

theorem SameLedger.locked (sb : Superblock) : SameLedger sb (lockedSb sb) :=
  trans_of SameLedger (.setFlags _ _) (.sealed _)

/-- 検査に通るスーパーブロックから始めた検査は、誤りがないときに限って通る。 -/
theorem consistencyCheck_spec (hr : Online s.vol) (hvalid : superblockValidate s.vol.sb = true) :
    wp consistencyCheck
      (fun _ s' => findings s.vol = 0 ∧ s'.corruptCount = 0 ∧ s'.vol.sb = (checkedSb s.vol.sb).sealed ∧
        diskSb s'.vol = s'.vol.sb ∧ s.vol.dev.Evolves {superblockBlock} s'.vol.dev)
      (fun e s' => e = .checksumMismatch ∧ findings s.vol ≠ 0 ∧ s'.corruptCount = findings s.vol ∧
        s'.vol.sb.stateFlags &&& stateError ≠ 0 ∧ (diskSb s'.vol).stateFlags &&& stateError ≠ 0) s := by
  unfold consistencyCheck
  simp only [wp_bind, wp_modify, wp_get, wp_ite]
  refine ⟨fun hno => ?_, fun _ => ?_⟩
  · rw [hvalid] at hno
    cases hno
  have hflush := hr.flushes
  simp only [wp_checkVol, wp_modifySb]
  refine wp_superblockWrite (fun c hw => ?_) (fun _ _ _ hno => absurd ⟨hr.faultFree, hr.writes_superblock⟩ hno)
  have hledger := SameLedger.locked s.vol.sb
  have hdev : s.vol.dev.Evolves {superblockBlock}
      (Vol.saved { s.vol with sb := setFlags stateLocked s.vol.sb } c).dev := .store rfl
  have hr₁ : Online (Vol.saved { s.vol with sb := setFlags stateLocked s.vol.sb } c) := hr.resave hledger hdev
  have hfind : findings (Vol.saved { s.vol with sb := setFlags stateLocked s.vol.sb } c) = findings s.vol :=
    findings_resave hr.layout hledger rfl hdev
  refine (scanVolume_spec (s := ⟨Vol.saved { s.vol with sb := setFlags stateLocked s.vol.sb } c, 0⟩)
    hr₁.layout hr₁.faultFree hr₁.serves).mono ?_ (fun _ _ h => h.elim)
  rintro _ ⟨_, k⟩ ⟨hk, c', rfl⟩
  have hk : k = findings s.vol := by
    rw [← hfind]
    exact hk.trans (UInt32.zero_add _)
  unfold concludeCheck
  rw [wp_bind, wp_get, wp_ite]
  refine ⟨fun hz => ?_, fun hz => ?_⟩
  · simp only [wp_bind, wp_checkVol, wp_modifySb]
    refine wp_superblockWrite (fun c₂ _ => ?_) (fun _ _ _ hno => absurd ⟨hr.faultFree, hr.writes_superblock⟩ hno)
    rw [wp_attempt, wp_checkVol]
    have hend : s.vol.dev.Evolves {superblockBlock}
        (Vol.saved { Vol.atClock (Vol.saved { s.vol with sb := setFlags stateLocked s.vol.sb } c) c' with
          sb := checkedSb s.vol.sb } c₂).dev := (hdev.trans .atClock).trans (.store rfl)
    exact wp_flushBlk (fun c₃ => ⟨hk.symm.trans hz, hz, rfl, diskSb_saved, hend.trans .atClock⟩)
      (fun _ hno => absurd hflush hno)
  · simp only [wp_bind, wp_checkVol, wp_modifySb, wp_throw, persist, wp_attempt, wp_pure]
    have hbad : findings s.vol ≠ 0 := by rwa [← hk]
    have hmark : (setFlags stateError (lockedSb s.vol.sb)).stateFlags &&& stateError ≠ 0 :=
      or_and_ne_zero.mpr (.inr (by decide))
    refine wp_superblockWrite (fun c₂ _ => ?_) (fun _ _ _ hno => absurd ⟨hr.faultFree, hr.writes_superblock⟩ hno)
    have hdisk : (diskSb
      (Vol.saved { Vol.atClock (Vol.saved { s.vol with sb := setFlags stateLocked s.vol.sb } c) c' with
        sb := setFlags stateError (lockedSb s.vol.sb) } c₂)).stateFlags &&& stateError ≠ 0 := by
      rw [diskSb_saved]
      exact hmark
    exact wp_flushBlk (fun _ => ⟨trivial, hbad, hk, hmark, hdisk⟩) (fun _ hno => absurd hflush hno)

/-- 空きの数も inode の検査値も合うボリュームでは、ビットマップの検査値だけが問われる。 -/
theorem findings_eq_zero (hv : VolInv v) (hs : Summed v) : findings v = 0 ↔ SumAgrees v := by
  have hcount : Nat.count (Corrupt v.dev.disk v.sb) v.sb.totalInodes.toNat = 0 := by
    unfold Nat.count
    rw [List.countP_eq_zero]
    intro n hn hbad
    have hlt := v.sb.totalInodes.toNat_lt
    have hn := List.mem_range.mp hn
    obtain ⟨ht, hbad⟩ := of_decide_eq_true hbad
    rw [hs (UInt32.ofNat n) (by rwa [toNat_ofNat_lt (by omega)]) ht] at hbad
    cases hbad
  have hfree : UInt32.ofNat (freeCount v.dev.disk v.sb) = v.sb.freeBlocks := by
    rw [← hv.exact, UInt32.ofNat_toNat]
  unfold findings
  rw [hcount, if_pos hfree]
  by_cases h : SumAgrees v
  · rw [if_pos h]
    exact ⟨fun _ => h, fun _ => rfl⟩
  · rw [if_neg h]
    exact ⟨fun hz => absurd hz (by decide), fun ha => absurd ha h⟩

end

/-! ## マウントの後の実行 -/

/-- フォーマットしてマウントした後の各時点で成り立つ条件。ロックと誤りの旗は立たない。 -/
structure InSession (v : Vol) : Prop extends Ready v where
  exact : FreeExact v.dev.disk v.sb
  sums : Summed v
  branded : v.sb.Branded
  flags : v.sb.stateFlags &&& ~~~ stateDirty = 0

section

variable {v v' : Vol} {sb : Superblock} {c c' : Nat}

theorem InSession.save (h : InSession v) (hsb : SameLedger v.sb sb) (hflags : sb.stateFlags &&& ~~~ stateDirty = 0) :
    InSession ((Vol.saved { v with sb := sb } c).atClock c') := by
  have hledger : SameLedger v.sb sb.sealed := trans_of SameLedger hsb (.sealed sb)
  have hdev : v.dev.Evolves {superblockBlock} ((Vol.saved { v with sb := sb } c).atClock c').dev :=
    (evolves_saved (v := { v with sb := sb })).trans .atClock
  exact ⟨h.toReady.resave hledger hdev, resave_freeExact h.exact h.sound.layout hledger hdev,
    h.sums.resave h.sound.layout hledger hdev, hledger.branded h.branded, hflags⟩

theorem and_not_eq_zero {f m k : UInt32} (h : f &&& ~~~ m = 0) : f &&& ~~~ k &&& ~~~ m = 0 := by
  rw [UInt32.and_assoc, UInt32.and_comm (~~~ k), ← UInt32.and_assoc, h, UInt32.zero_and]

theorem InSession.synced_flags (h : InSession v) (sum : UInt64) :
    (syncedSb v.sb sum).stateFlags &&& ~~~ stateDirty = 0 :=
  and_not_eq_zero h.flags

theorem InSession.step (h : InSession v) (op : SessionOp) : InSession (op.run v).2 := by
  cases op with
  | sync =>
      have hwp : wp syncChanges (fun _ v' => InSession v') (fun _ v' => InSession v') v := by
        refine (syncChanges_spec h.sound.layout).mono ?_ (fun _ _ hno => absurd ⟨h.faultFree, h.serves⟩ hno)
        rintro _ _ ⟨sum, c, c', rfl, _⟩
        exact h.save (.synced v.sb sum) (h.synced_flags sum)
      exact hwp.state
  | data op =>
      obtain ⟨hr, hc, _⟩ := h.toReady.after (upholds_dataOp op)
      obtain ⟨a, b, hsb⟩ := hc.shape
      refine ⟨hr, hc.exact h.exact, hc.sums h.sums, ?_, ?_⟩
      · change (op.run v).2.sb.Branded
        rw [hsb]
        exact h.branded
      · change (op.run v).2.sb.stateFlags &&& ~~~ stateDirty = 0
        rw [hsb]
        exact h.flags

theorem InSession.final (h : InSession v) (ops : List SessionOp) : InSession (final SessionOp.run ops v) :=
  final_invariant (fun op _ hv => hv.step op) ops h

theorem inSession_of_mount {d₀ d : HtlDevice} {totalBlocks : UInt32} {label : Option (List UInt8)} {sb₀ : Superblock}
    (hff : d₀.FaultFree) (hformat : formatVolume totalBlocks label d₀ = (.ok (), d))
    (hmount : mount ⟨d, sb₀⟩ = (.ok (), v)) : InSession v := by
  obtain ⟨sb, hfmt, _, hconf⟩ := formatted_of_formatVolume hformat
  have hready := ready_of_opened hff hformat (.mount hmount)
  obtain ⟨hvalid, _, _, c, hv⟩ := mount_ok_spec.ok hmount
  rw [hfmt.diskSb_eq] at hv hvalid
  subst hv
  have hledger : SameLedger sb (mountedSb sb).sealed := trans_of SameLedger (.mounted sb) (.sealed _)
  have hdev := evolves_saved (v := ⟨d, mountedSb sb⟩) (c := c)
  refine ⟨hready, resave_freeExact hfmt.exact hfmt.sound.layout hledger hdev, ?_,
    hledger.branded (branded_of_validate hvalid), ?_⟩
  · exact hfmt.sums.resave hfmt.sound.layout hledger hdev
  · change (sb.stateFlags ||| stateDirty) &&& ~~~ stateDirty = 0
    rw [hfmt.flags]
    decide

end

theorem inSession_mountedVolume : InSession mountedVolume :=
  inSession_of_mount faultFree_blankDevice format_blankDevice (mount_formattedVolume Superblock.zero)

/-! ## ファイルを作って書く例 -/

theorem holdsName_letter : HoldsName (some [0x61]) 1 := by
  rintro l ⟨⟩
  exact le_rfl

theorem admissible_letter {v : Vol} {entryType : UInt8} (htype : entryType = entryFile ∨ entryType = entryCatalog)
    (hw : volumeWritable v.sb = .ok ()) : Admissible v (some [0x61]) 1 entryType :=
  ⟨⟨rfl, by decide, by decide⟩, htype, by decide, hw⟩

/-- ファイルを作り、1 バイトを書く。 -/
def allocWrite : List SessionOp :=
  [.data (.inodeAlloc ⟨0, 0⟩ entryFile none 0 0), .data (.fileWrite ⟨0, 0⟩ 1 [7] 0 1 (by decide))]

/-- 作ったファイルに書いた後のボリューム。 -/
@[irreducible] def wrote (v : Vol) : Vol :=
  let v₁ := (inodeAlloc ⟨0, 0⟩ entryFile none 0 0 v).2
  (fileWrite ⟨0, 0⟩ 1 [7] 0 1 ⟨(inodeLoad 1 v₁).2, inodeAt v₁.dev.disk v₁.sb 1⟩).2.vol

/-- 読み直しの検査値の確認を省いて、結果のボリュームを求める。 -/
theorem final_allocWrite {v : Vol} (h : InSession v) (hn : 1 < v.sb.totalInodes.toNat) :
    final SessionOp.run allocWrite v = wrote v := by
  have hdiscard : (discard (inodeAlloc ⟨0, 0⟩ entryFile none 0 0) v).2 =
      (inodeAlloc ⟨0, 0⟩ entryFile none 0 0 v).2 := discard_state
  obtain ⟨hr, hc, _⟩ := h.toReady.after (upholds_inodeAlloc ⟨0, 0⟩ entryFile none 0 0)
  change (withFresh 1 (fileWrite ⟨0, 0⟩ 1 [7] 0 1) (discard (inodeAlloc ⟨0, 0⟩ entryFile none 0 0) v).2).2 = _
  rw [hdiscard, withFresh_state hr (hc.sums h.sums) (by rw [hc.shape.totalInodes]; exact hn)]
  unfold wrote
  rfl

theorem carry_allocWrite {v : Vol} (h : Ready v) : Carry v (final SessionOp.run allocWrite v) := by
  obtain ⟨hr₁, hc₁⟩ := h.after (upholds_dataOp (.inodeAlloc ⟨0, 0⟩ entryFile none 0 0))
  obtain ⟨_, hc₂⟩ := hr₁.after (upholds_dataOp (.fileWrite ⟨0, 0⟩ 1 [7] 0 1 (by decide)))
  exact trans_of Carry hc₁ hc₂

theorem totalInodes_mountedVolume : 1 < mountedVolume.sb.totalInodes.toNat := by decide +kernel

theorem inSession_wrote : InSession (wrote mountedVolume) := by
  rw [← final_allocWrite inSession_mountedVolume totalInodes_mountedVolume]
  exact inSession_mountedVolume.final allocWrite

theorem read_wrote : inodeRead 1 (wrote mountedVolume) =
    (.ok (inodeAt (wrote mountedVolume).dev.disk (wrote mountedVolume).sb 1), (inodeLoad 1 (wrote mountedVolume)).2) :=
  inSession_wrote.toReady.inodeRead_eq inSession_wrote.sums (by decide +kernel)

theorem unfenced_wrote : ¬ Fenced ⟨0, 0⟩ (inodeAt (wrote mountedVolume).dev.disk (wrote mountedVolume).sb 1) := by
  rintro (hro | hacc)
  · exact hro (by decide +kernel)
  · exact hacc rfl

end OwStorage.Owfs
