import OwStorage.Usfs.Lemmas.Format

/-!
# ボリュームの大きさとラベル

ボリュームの大きさとラベルの欄は、フォーマットが書いてから変わらない。装置の失敗があっても、ビットマップが足りなくても同じである。
-/

namespace OwStorage.Usfs

open Lib Prog

/-- 大きさとラベルの欄と装置の性質が変わらない。 -/
structure SameExtent (v v' : Vol) : Prop where
  totalBlocks : v'.sb.totalBlocks = v.sb.totalBlocks
  label : v'.sb.volumeLabel = v.sb.volumeLabel
  config : v'.dev.toHtlConfig = v.dev.toHtlConfig

instance : IsPreorder Vol SameExtent where
  refl _ := ⟨rfl, rfl, rfl⟩
  trans _ _ _ h h' := ⟨h'.totalBlocks.trans h.totalBlocks, h'.label.trans h.label, h'.config.trans h.config⟩

/-- 配置と鍵の欄と装置の性質が変わらない。 -/
structure SameSetup (v v' : Vol) : Prop where
  shape : SameShape v.sb v'.sb
  config : v'.dev.toHtlConfig = v.dev.toHtlConfig

instance : IsPreorder Vol SameSetup where
  refl v := ⟨.refl v.sb, rfl⟩
  trans _ _ _ h h' := ⟨h.shape.trans h'.shape, h'.config.trans h.config⟩

/-! ## ブロックの読み書きとビットマップ -/

section

theorem Still.setup {v v' : Vol} (h : Still v v') : SameSetup v v' := by
  obtain ⟨c, rfl⟩ := h
  exact ⟨.refl v.sb, rfl⟩

theorem SameSetup.extent {v v' : Vol} (h : SameSetup v v') : SameExtent v v' := by
  obtain ⟨⟨n, k, hsb⟩, hconfig⟩ := h
  exact ⟨by rw [hsb], by rw [hsb], hconfig⟩

theorem extent_of_setup {α : Type} {p : UsfsM α} (h : Preserves SameSetup p) : Preserves SameExtent p := fun v =>
  (h v).mono (fun _ _ hs => hs.extent) (fun _ _ hs => hs.extent)

theorem setup_of_still {α : Type} {p : UsfsM α} (h : Preserves Still p) : Preserves SameSetup p := fun v =>
  (h v).mono (fun _ _ hs => hs.setup) (fun _ _ hs => hs.setup)

theorem setup_readBlk (b : UInt32) : Preserves SameSetup (readBlk b) := setup_of_still (still_readBlk b)

theorem setup_writeBlk (b : UInt32) (blk : Block) : Preserves SameSetup (writeBlk b blk) := fun v =>
  wp_writeBlk (fun _ _ => ⟨.refl v.sb, rfl⟩) (fun _ _ _ _ => ⟨.refl v.sb, rfl⟩)

theorem setup_freeBlocks (f : UInt32 → UInt32) :
    Preserves SameSetup (modifySb fun sb => { sb with freeBlocks := f sb.freeBlocks }) := fun v =>
  ⟨⟨f v.sb.freeBlocks, v.sb.usedEntries, rfl⟩, rfl⟩

theorem setup_markRun (rs count : UInt32) (used : Bool) : Preserves SameSetup (markRun rs count used) := by
  unfold markRun
  exact .bind .get fun v => .forUpto fun i => .bind (setup_readBlk _) fun _ => setup_writeBlk _ _

theorem setup_blockFree (first count : UInt32) : Preserves SameSetup (blockFree first count) := by
  unfold blockFree
  exact .bind .get fun v => .ite (.pure _) (.bind (.failIf _ _) fun _ => .bind (.ofExcept _) fun _ =>
    .bind (setup_markRun _ _ _) fun _ => setup_freeBlocks (· + count))

theorem Still.extent {v v' : Vol} (h : Still v v') : SameExtent v v' := h.setup.extent

theorem extent_of_still {α : Type} {p : UsfsM α} (h : Preserves Still p) : Preserves SameExtent p := fun v =>
  (h v).mono (fun _ _ hs => hs.extent) (fun _ _ hs => hs.extent)

theorem extent_readBlk (b : UInt32) : Preserves SameExtent (readBlk b) := extent_of_still (still_readBlk b)

theorem extent_writeBlk (b : UInt32) (blk : Block) : Preserves SameExtent (writeBlk b blk) := fun _ =>
  wp_writeBlk (fun _ _ => ⟨rfl, rfl, rfl⟩) (fun _ _ _ _ => ⟨rfl, rfl, rfl⟩)

theorem extent_modifySb {f : Superblock → Superblock}
    (hf : ∀ sb, (f sb).totalBlocks = sb.totalBlocks ∧ (f sb).volumeLabel = sb.volumeLabel) :
    Preserves SameExtent (modifySb f) := fun v => ⟨(hf v.sb).1, (hf v.sb).2, rfl⟩

theorem still_fetchFor (rel : UInt32) (cached : Cached) : Preserves Still (fetchFor rel cached) := by
  unfold fetchFor
  refine .bind .get fun v => ?_
  cases cached with
  | none => exact .bind (still_readBlk _) fun _ => .pure _
  | some c => exact .ite (.pure _) (.bind (still_readBlk _) fun _ => .pure _)

theorem extent_blockFree (first count : UInt32) : Preserves SameExtent (blockFree first count) :=
  extent_of_setup (setup_blockFree first count)

end

/-! ## 割り当ての範囲 -/

/-- 番号 `s` から `len` 個のビットを含むブロック。 -/
def Superblock.bitBlocks (sb : Superblock) (s len : Nat) : Set UInt32 :=
  { b | ∃ r, s ≤ r ∧ r < s + len ∧ b = sb.bitmapBlockOf r }

section

variable {v : Vol} {count : UInt32}

theorem SameShape.bitBlocks {sb sb' : Superblock} (h : SameShape sb sb') (s len : Nat) :
    sb'.bitBlocks s len = sb.bitBlocks s len := by
  obtain ⟨_, _, rfl⟩ := h
  rfl

/-- 範囲の書き換えは、範囲のビットを含むブロックだけを書く。 -/
theorem markRun_confined {rs cnt : UInt32} (used : Bool) (hpos : 0 < cnt.toNat) (hfit : rs.toNat + cnt.toNat < 2 ^ 32) :
    wp (markRun rs cnt used) (fun _ v' => v'.sb = v.sb ∧ v.dev.Evolves (v.sb.bitBlocks rs.toNat cnt.toNat) v'.dev)
      (fun _ v' => v'.sb = v.sb ∧ v.dev.Evolves (v.sb.bitBlocks rs.toNat cnt.toNat) v'.dev) v := by
  have hbpb : bitsPerBlock.toNat = 32768 := rfl
  have hfirst : (rs / bitsPerBlock).toNat = rs.toNat / 32768 := by rw [UInt32.toNat_div, hbpb]
  have hlast : ((rs + cnt - 1) / bitsPerBlock).toNat = (rs.toNat + cnt.toNat - 1) / 32768 := by
    have hadd : (rs + cnt).toNat = rs.toNat + cnt.toNat := toNat_add_lt hfit
    have hone : (1 : UInt32).toNat = 1 := rfl
    rw [UInt32.toNat_div, hbpb, toNat_sub_le (by omega), hadd]
    rfl
  unfold markRun
  simp only [wp_bind, wp_get]
  rw [hfirst, hlast]
  refine wp_forUpto (fun _ v' => v'.sb = v.sb ∧ v.dev.Evolves (v.sb.bitBlocks rs.toNat cnt.toNat) v'.dev)
    ⟨rfl, .refl _ _⟩ ?_ (fun _ h => h)
  rintro i v' hi ⟨hsb, hdev⟩
  have hmem : v.sb.bitmapStartBlock + (rs / bitsPerBlock + UInt32.ofNat i) ∈ v.sb.bitBlocks rs.toNat cnt.toNat := by
    refine ⟨max rs.toNat ((rs.toNat / 32768 + i) * 32768), le_max_left _ _, ?_, ?_⟩
    · rw [max_lt_iff]
      omega
    · have hq : max rs.toNat ((rs.toNat / 32768 + i) * 32768) / 32768 = rs.toNat / 32768 + i := by omega
      unfold Superblock.bitmapBlockOf
      rw [hq, ← hfirst, UInt32.ofNat_add, UInt32.ofNat_toNat]
  rw [wp_bind]
  refine wp_readBlk (fun c _ => ?_) (fun c _ => ⟨hsb, hdev.trans .atClock⟩)
  refine wp_writeBlk (fun c' _ => ⟨hsb, ?_⟩) (fun _ c' _ _ => ⟨hsb, hdev.trans (.trans .atClock .atClock)⟩)
  exact hdev.trans (.trans .atClock (.store hmem))

/-- 割り当ては、最も前の空きの並びを取り、そのビットを含むブロックだけを書く。ビットマップがデータ領域を覆うことは仮定しない。 -/
theorem blockAlloc_claims :
    wp (blockAlloc count)
      (fun b v' => v.sb.InRange b count ∧ SameSetup v v' ∧
        FirstFit (bitOf v.dev.disk v.sb) v.sb.dataCount count.toNat (v.sb.relOf b) ∧
        v.dev.Evolves (v.sb.bitBlocks (v.sb.relOf b) count.toNat) v'.dev) (fun _ v' => SameSetup v v') v := by
  have hself : SameSetup v v := refl_of SameSetup v
  have htot := v.sb.totalBlocks.toNat_lt
  unfold blockAlloc
  simp only [wp_bind, wp_get, wp_failIf, wp_ofExcept]
  refine ⟨fun _ => hself, fun hsome => ⟨fun _ => hself, fun hne => ⟨fun _ _ => ?_, fun _ _ => hself⟩⟩⟩
  rw [UInt32.not_le, UInt32.lt_iff_toNat_lt] at hne
  have hpos : 0 < count.toNat := Nat.pos_of_ne_zero fun hz => hsome (.inl (UInt32.toNat_inj.mp hz))
  refine (findRun_spec hpos hne.le).mono ?_ (fun _ _ h => h.1.setup)
  rintro s _ ⟨hfirst, rfl, _⟩
  have hfits := hfirst.fits
  have hcount : v.sb.dataCount = v.sb.totalBlocks.toNat - v.sb.dataRegionStart.toNat := rfl
  refine (markRun_confined (v := v.atClock _) true hpos (by omega)).mono ?_ ?_
  · rintro _ v₁ ⟨hsb, hdev⟩
    have hstart : (v.sb.dataRegionStart + s).toNat = v.sb.dataRegionStart.toNat + s.toNat := toNat_add_lt (by omega)
    have hrel : v.sb.relOf (v.sb.dataRegionStart + s) = s.toNat := by
      unfold Superblock.relOf
      omega
    have hshape : SameShape v.sb v₁.sb := by
      rw [hsb]
      exact .refl _
    refine ⟨⟨hpos, ?_, ?_⟩, ⟨hshape.trans ⟨v₁.sb.freeBlocks - count, v₁.sb.usedEntries, rfl⟩, hdev.config⟩, ?_, ?_⟩
    · rw [hstart]
      exact Nat.le_add_right _ _
    · rw [hstart]
      omega
    · rwa [hrel]
    · rw [hrel]
      exact HtlDevice.Evolves.trans .atClock hdev
  · rintro _ v₁ ⟨hsb, hdev⟩
    exact ⟨by rw [hsb]; exact .refl _, hdev.config⟩

theorem blockAlloc_lands :
    wp (blockAlloc count) (fun b v' => v.sb.InRange b count ∧ SameSetup v v') (fun _ v' => SameSetup v v') v :=
  blockAlloc_claims.mono (fun _ _ h => ⟨h.1, h.2.1⟩) (fun _ _ h => h)

/-- 解放は、返す範囲のビットを含むブロックだけを書く。 -/
theorem blockFree_confined (first count : UInt32) :
    wp (blockFree first count) (fun _ v' => v.dev.Evolves (v.sb.bitBlocks (v.sb.relOf first) count.toNat) v'.dev)
      (fun _ _ => True) v := by
  have htot := v.sb.totalBlocks.toNat_lt
  unfold blockFree
  simp only [wp_bind, wp_get, wp_ite, wp_failIf, wp_ofExcept, wp_pure]
  refine ⟨fun _ => .refl _ _, fun hz => ⟨fun _ => trivial, fun hin => ⟨fun _ _ => ?_, fun _ _ => trivial⟩⟩⟩
  rw [not_or, UInt32.not_lt, UInt32.le_iff_toNat_le, Nat.not_lt] at hin
  have hrel : (first - v.sb.dataRegionStart).toNat = v.sb.relOf first := toNat_sub_le hin.1
  have hrelOf : v.sb.relOf first = first.toNat - v.sb.dataRegionStart.toNat := rfl
  have hmark := @markRun_confined v (first - v.sb.dataRegionStart) count false
    (Nat.pos_of_ne_zero fun h => hz (UInt32.toNat_inj.mp h)) (by omega)
  rw [hrel] at hmark
  exact hmark.mono (fun _ _ h => h.2) (fun _ _ _ => trivial)

theorem blockAlloc_fits :
    wp (blockAlloc count) (fun b v' => b.toNat + count.toNat ≤ v.sb.totalBlocks.toNat ∧ SameExtent v v')
      (fun _ v' => SameExtent v v') v :=
  blockAlloc_lands.mono (fun _ _ h => ⟨h.1.high, h.2.extent⟩) (fun _ _ h => h.extent)

end

/-! ## 項目の表 -/

theorem extent_blockAlloc (count : UInt32) : Preserves SameExtent (blockAlloc count) := fun _ =>
  blockAlloc_fits.mono (fun _ _ h => h.2) (fun _ _ h => h)

theorem still_entryRead (idx : UInt32) : Preserves Still (entryRead idx) := by
  unfold entryRead
  exact .bind .get fun v => .bind (.failIf _ _) fun _ => .bind (still_readBlk _) fun _ => .bind (.failIf _ _) fun _ =>
    .pure _

theorem extent_findSlot : Preserves SameExtent findSlot := by
  unfold findSlot
  refine .bind .get fun v =>
    .bind (.loop fun i _ => .bind (extent_of_still (still_entryRead _)).attempt fun r => ?_) fun r => ?_
  · cases r with
    | ok temp => exact .ite (.pure _) (.pure _)
    | error e => cases e <;> first | exact .pure _ | exact .throw _
  · cases r with
    | inl _ => exact .throw _
    | inr _ => exact .pure _

theorem extent_withEntry (e : Entry) (idx : UInt32) : Preserves SameExtent (withEntry e (entryWrite idx)) := by
  intro v
  rw [wp_withEntry]
  have hwrite : Preserves (Order.Preimage EntryState.vol SameExtent) (entryWrite idx) := by
    unfold entryWrite
    exact .bind .get fun s => .bind (.failIf _ _) fun _ => .bind (.ofExcept _) fun _ =>
      .bind (extent_readBlk _).within fun _ => .bind (fun s => refl_of SameExtent s.vol) fun _ => .bind .get fun _ =>
      (extent_writeBlk _ _).within
  exact hwrite ⟨v, e⟩

theorem extent_allocCatalogBlock : Preserves SameExtent allocCatalogBlock := by
  unfold allocCatalogBlock
  refine .bind (extent_blockAlloc 1) fun b => .bind (extent_writeBlk _ _).attempt fun r => ?_
  cases r with
  | ok _ => exact .pure _
  | error _ => exact .bind (extent_blockFree _ _).attempt fun _ => .throw _

theorem extent_storeFresh (chosen : UInt32) (temp : Entry) : Preserves SameExtent (storeFresh chosen temp) := by
  unfold storeFresh
  refine .bind (extent_withEntry _ _).attempt fun r => ?_
  cases r with
  | ok _ => exact .bind (extent_modifySb fun _ => ⟨rfl, rfl⟩) fun _ => .pure _
  | error _ => exact .ite (.bind (extent_blockFree _ _).attempt fun _ => .throw _) (.throw _)

theorem extent_entryAlloc (who : OwIdentity) (entryType : UInt8) (name : Option (List UInt8)) (nameLen : Nat)
    (parent : UInt32) : Preserves SameExtent (entryAlloc who entryType name nameLen parent) := by
  unfold entryAlloc
  refine .bind (.failIf _ _) fun _ => .bind (.failIf _ _) fun _ => .bind (.failIf _ _) fun _ =>
    .bind (.failIf _ _) fun _ =>
    .bind .get fun v => .bind (.failIf _ _) fun _ => .bind (.ofExcept _) fun _ => .bind (.whenever ?_) fun _ =>
    .bind (.ofExcept _) fun _ => .bind extent_findSlot fun chosen => .ite ?_ (extent_storeFresh _ _)
  · exact .bind (extent_of_still (still_entryRead _)) fun _ => .bind (.failIf _ _) fun _ => .ofExcept _
  · exact .bind extent_allocCatalogBlock fun _ => extent_storeFresh _ _

/-! ## フォーマットからマウントまで -/

theorem extent_bitmapInit : Preserves SameExtent bitmapInit := by
  unfold bitmapInit
  exact .bind .get fun v => .bind (.failIf _ _) fun _ => .forUpto fun i => .bind (.failIf _ _) fun _ =>
    extent_writeBlk _ _

theorem still_bitmapComputeFletcher64 : Preserves Still bitmapComputeFletcher64 := by
  unfold bitmapComputeFletcher64
  refine .bind .get fun v => .bind (.loop fun b s => .bind (still_readBlk _).attempt fun r => ?_) fun r => ?_
  all_goals cases r <;> exact .pure _

theorem still_signatureCompute : Preserves Still signatureCompute := by
  unfold signatureCompute
  refine .bind .get fun v => .bind (.loop fun b s => .bind (still_readBlk _).attempt fun r => ?_) fun r => ?_
  all_goals cases r <;> exact .pure _

section

variable {v : Vol}

/-- 書き終えたスーパーブロックには、メモリの上の大きさとラベルが入る。 -/
theorem flushDirty_records :
    wp flushDirty (fun _ v' => (diskSb v').totalBlocks = v.sb.totalBlocks ∧
      (diskSb v').volumeLabel = v.sb.volumeLabel ∧ v'.dev.toHtlConfig = v.dev.toHtlConfig) (fun _ _ => True) v := by
  unfold flushDirty
  rw [wp_bind]
  refine (still_bitmapComputeFletcher64 v).mono ?_ (fun _ _ _ => trivial)
  rintro sum _ ⟨c, rfl⟩
  simp only [wp_bind, wp_modifySb]
  refine wp_superblockWrite (fun c' _ => ?_) (fun _ _ _ _ => trivial)
  refine wp_flushBlk (fun c'' => ?_) (fun _ _ => trivial)
  rw [diskSb_atClock, diskSb_saved]
  exact ⟨rfl, rfl, rfl⟩

theorem formatBody_records (who : OwIdentity) :
    wp (formatBody who)
      (fun _ v' => (diskSb v').totalBlocks = v.sb.totalBlocks ∧ (diskSb v').volumeLabel = v.sb.volumeLabel ∧
        v'.dev.toHtlConfig = v.dev.toHtlConfig)
      (fun _ _ => True) v := by
  have hskip : ∀ (e : UsfsErr) v₁, SameExtent v v₁ → True := fun _ _ _ => trivial
  unfold formatBody
  rw [wp_bind, wp_get]
  refine Preserves.wp_bind (R := SameExtent) (.forUpto fun i => .bind (extent_writeBlk _ _).attempt fun r => ?_)
    (fun _ v₁ h₁ => ?_) hskip
  · cases r with
    | ok _ => exact .pure _
    | error _ => exact .throw _
  refine extent_bitmapInit.wp_bind (fun _ v₂ h₂ => ?_) (fun _ _ _ => trivial)
  refine (extent_entryAlloc _ _ _ _ _).wp_bind (fun _ v₃ h₃ => ?_) (fun _ _ _ => trivial)
  rw [wp_bind, wp_modifySb]
  refine (extent_of_still still_bitmapComputeFletcher64).wp_bind (fun _ v₄ h₄ => ?_) (fun _ _ _ => trivial)
  rw [wp_bind, wp_modifySb]
  refine (extent_of_still still_signatureCompute).wp_bind (fun _ v₅ h₅ => ?_) (fun _ _ _ => trivial)
  rw [wp_bind, wp_modifySb]
  refine flushDirty_records.mono ?_ (fun _ _ _ => trivial)
  rintro _ v' ⟨htotal, hlabel, hconfig⟩
  have h₁₂₃ := trans_of SameExtent (trans_of SameExtent h₁ h₂) h₃
  have h₄ : SameExtent v₃ v₄ := ⟨h₄.totalBlocks, h₄.label, h₄.config⟩
  have h₅ : SameExtent v₄ v₅ := ⟨h₅.totalBlocks, h₅.label, h₅.config⟩
  have hall := trans_of SameExtent h₁₂₃ (trans_of SameExtent h₄ h₅)
  exact ⟨htotal.trans hall.totalBlocks, hlabel.trans hall.label, hconfig.trans hall.config⟩

end

section

variable {who : OwIdentity} {totalBlocks : UInt32} {label : Option (List UInt8)} {d d' : HtlDevice} {v : Vol}

/-- フォーマットの引数から決まるラベルの欄。 -/
def labelField (label : Option (List UInt8)) : Bytes 64 := (freshSuperblock 0 0 label (Bytes.zero 12)).volumeLabel

theorem formatVolume_records :
    wp (formatVolume who totalBlocks label)
      (fun _ d' => (Superblock.ofBlock (d'.disk 0)).totalBlocks = totalBlocks ∧
        (Superblock.ofBlock (d'.disk 0)).volumeLabel = labelField label ∧ d'.toHtlConfig = d.toHtlConfig)
      (fun _ _ => True) d := by
  unfold formatVolume
  simp only [wp_bind, wp_failIf]
  refine ⟨fun _ => trivial, fun _ => ?_⟩
  cases layoutBitmapBlocks totalBlocks with
  | none => exact trivial
  | some b =>
      have hbody : ∀ nonce, wp (fun d => ((formatBody who ⟨d, freshSuperblock totalBlocks b label nonce⟩).1,
          (formatBody who ⟨d, freshSuperblock totalBlocks b label nonce⟩).2.dev))
          (fun _ d' => (Superblock.ofBlock (d'.disk 0)).totalBlocks = totalBlocks ∧
            (Superblock.ofBlock (d'.disk 0)).volumeLabel = labelField label ∧ d'.toHtlConfig = d.toHtlConfig)
          (fun _ _ => True) d := fun nonce => wp_atDevice.mpr (formatBody_records who)
      exact wp_bind.mpr (wp_attempt.mpr (wp_htlGetEntropy (fun nonce => hbody nonce) (fun _ => hbody _)))

theorem extent_of_opened (hfmt : formatVolume who totalBlocks label d = (.ok (), d')) (hopen : Opened d' v) :
    v.sb.totalBlocks = totalBlocks ∧ v.dev.toHtlConfig = d.toHtlConfig := by
  obtain ⟨htotal, _, hconfig⟩ := formatVolume_records.ok hfmt
  rw [← htotal, ← hconfig]
  cases hopen with
  | @read sb₁ _ hread =>
      have hwp : wp superblockRead (fun _ v' => v'.sb.totalBlocks = (Superblock.ofBlock (d'.disk 0)).totalBlocks ∧
          v'.dev.toHtlConfig = d'.toHtlConfig) (fun _ _ => True) ⟨d', sb₁⟩ :=
        wp_superblockRead (fun _ _ _ => ⟨rfl, rfl⟩) (fun _ _ => trivial) (fun _ _ => trivial)
      exact hwp.ok hread
  | @mount sb₁ _ hmount =>
      have hwp : wp mount (fun _ v' => v'.sb.totalBlocks = (Superblock.ofBlock (d'.disk 0)).totalBlocks ∧
          v'.dev.toHtlConfig = d'.toHtlConfig) (fun _ _ => True) ⟨d', sb₁⟩ := by
        unfold mount
        rw [wp_bind]
        refine wp_superblockRead (fun c _ _ => ?_) (fun _ _ => trivial) (fun _ _ => trivial)
        simp only [wp_bind, wp_get, wp_failIf, wp_ite, wp_modifySb]
        refine ⟨fun _ => trivial, fun _ => ⟨fun _ => ?_, fun _ => ?_⟩⟩
        · exact wp_superblockWrite (fun _ _ => trivial) (fun _ _ _ _ => trivial)
        · exact wp_superblockWrite (fun _ _ => ⟨rfl, rfl⟩) (fun _ _ _ _ => trivial)
      exact hwp.ok hmount

end

end OwStorage.Usfs
