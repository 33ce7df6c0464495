import OwStorage.Owfs.Lemmas.Volume

/-!
# スーパーブロックの書き直し

マウントと同期とアンマウントは、旗と検査値とマウントの回数だけを変えて、スーパーブロックを一度だけ書く。
-/

namespace OwStorage.Owfs

open Lib Prog

/-- 旗と検査値とマウントの回数のほかは同じである。 -/
def SameLedger (sb sb' : Superblock) : Prop :=
  ∃ count flags sum check, sb' =
    { sb with mountCount := count, stateFlags := flags, fletcher64Bitmap := sum, checksum := check }

instance : IsPreorder Superblock SameLedger where
  refl sb := ⟨sb.mountCount, sb.stateFlags, sb.fletcher64Bitmap, sb.checksum, rfl⟩
  trans := by
    rintro sb _ _ ⟨a, b, c, d, rfl⟩ ⟨a', b', c', d', rfl⟩
    exact ⟨a', b', c', d', rfl⟩

section

variable {sb sb' : Superblock} {disk disk' : Disk} {f : UInt32 → Inode}

theorem SameLedger.sealed (sb : Superblock) : SameLedger sb sb.sealed :=
  ⟨sb.mountCount, sb.stateFlags, sb.fletcher64Bitmap, _, rfl⟩

theorem SameLedger.setFlags (mask : UInt32) (sb : Superblock) : SameLedger sb (setFlags mask sb) :=
  ⟨sb.mountCount, _, sb.fletcher64Bitmap, sb.checksum, rfl⟩

theorem SameLedger.clearFlags (mask : UInt32) (sb : Superblock) : SameLedger sb (clearFlags mask sb) :=
  ⟨sb.mountCount, _, sb.fletcher64Bitmap, sb.checksum, rfl⟩

theorem SameLedger.layout (h : SameLedger sb sb') (hl : Layout sb) : Layout sb' := by
  obtain ⟨a, b, c, d, rfl⟩ := h
  exact ⟨hl.1, hl.2, hl.3, hl.4, hl.5, hl.6, hl.7⟩

theorem SameLedger.sound (h : SameLedger sb sb') (hs : Sound disk sb f) : Sound disk sb' f := by
  have hl := h.layout hs.layout
  obtain ⟨a, b, c, d, rfl⟩ := h
  exact ⟨hl, hs.shaped, hs.owns⟩

theorem SameLedger.freeExact (h : SameLedger sb sb') : FreeExact disk sb' ↔ FreeExact disk sb := by
  obtain ⟨a, b, c, d, rfl⟩ := h
  exact Iff.rfl

theorem SameLedger.freeCount (h : SameLedger sb sb') : freeCount disk sb' = freeCount disk sb := by
  obtain ⟨a, b, c, d, rfl⟩ := h
  rfl

theorem SameLedger.freeBlocks (h : SameLedger sb sb') : sb'.freeBlocks = sb.freeBlocks := by
  obtain ⟨a, b, c, d, rfl⟩ := h
  rfl

theorem SameLedger.freeInodes (h : SameLedger sb sb') : sb'.freeInodes = sb.freeInodes := by
  obtain ⟨a, b, c, d, rfl⟩ := h
  rfl

theorem SameLedger.fletcher (h : SameLedger sb sb') : bitmapFletcher disk sb' = bitmapFletcher disk sb := by
  obtain ⟨a, b, c, d, rfl⟩ := h
  rfl

theorem SameLedger.inodeAt (h : SameLedger sb sb') {n : UInt32} : inodeAt disk sb' n = inodeAt disk sb n := by
  obtain ⟨a, b, c, d, rfl⟩ := h
  rfl

theorem SameLedger.slotInode (h : SameLedger sb sb') : slotInode disk sb' = slotInode disk sb := by
  obtain ⟨a, b, c, d, rfl⟩ := h
  rfl

theorem SameLedger.totalInodes (h : SameLedger sb sb') : sb'.totalInodes = sb.totalInodes := by
  obtain ⟨a, b, c, d, rfl⟩ := h
  rfl

theorem SameLedger.serves {c : HtlConfig} (h : SameLedger sb sb') (hs : Serves c sb) : Serves c sb' := by
  obtain ⟨a, b, c, d, rfl⟩ := h
  exact ⟨hs.writes, hs.wholeBlocks⟩

theorem SameLedger.branded (h : SameLedger sb sb') (hb : sb.Branded) : sb'.Branded := by
  obtain ⟨a, b, c, d, rfl⟩ := h
  exact hb

end

/-- 失敗のない装置の上の、領域の並びの正しいボリューム。表の内容は問わない。 -/
structure Online (v : Vol) : Prop where
  layout : Layout v.sb
  faultFree : v.dev.FaultFree
  serves : Serves v.dev.toHtlConfig v.sb

section

variable {v v' : Vol}

/-- スーパーブロックだけを書き直しても、inode の表は変わらない。 -/
theorem resave_inodeAt (hl : Layout v.sb) (hsb : SameLedger v.sb v'.sb)
    (hd : v.dev.Evolves {superblockBlock} v'.dev) {n : UInt32} (hn : n.toNat < v.sb.totalInodes.toNat) :
    inodeAt v'.dev.disk v'.sb n = inodeAt v.dev.disk v.sb n := by
  rw [hsb.inodeAt]
  exact inodeAt_congr hl (fun b hb => hd.disk b (hl.table_ne_superblock hb)) hn

/-- スーパーブロックだけを書き直しても、ビットマップの検査値は変わらない。 -/
theorem resave_fletcher (hl : Layout v.sb) (hsb : SameLedger v.sb v'.sb)
    (hd : v.dev.Evolves {superblockBlock} v'.dev) :
    bitmapFletcher v'.dev.disk v'.sb = bitmapFletcher v.dev.disk v.sb := by
  rw [hsb.fletcher]
  exact bitmapFletcher_congr hl fun b hb => hd.disk b (hl.bitmap_ne_superblock hb)

/-- スーパーブロックだけを書き直しても、ボリュームの条件は変わらない。 -/
theorem WellFormed.resave (h : WellFormed v) (hsb : SameLedger v.sb v'.sb)
    (hd : v.dev.Evolves {superblockBlock} v'.dev) : WellFormed v' := by
  have hl : Layout v.sb := Sound.layout h
  refine hsb.sound ?_
  rw [hsb.slotInode]
  have hsound : Sound v'.dev.disk v.sb (slotInode v.dev.disk v.sb) := by
    refine Sound.congr h (fun b hb => hd.disk b (hl.bitmap_ne_superblock hb)) fun n hn hbc => hd.disk _ ?_
    exact hl.data_ne_superblock (Sound.isData h (Sound.indirect_live h hn hbc))
  refine hsound.congr_table fun n hn => ?_
  unfold Owfs.slotInode
  rw [← hsb.inodeAt, resave_inodeAt hl hsb hd hn]

/-- スーパーブロックだけを書き直しても、どの inode も変わらない。 -/
theorem WellFormed.resave_spares (h : WellFormed v) (hsb : SameLedger v.sb v'.sb)
    (hd : v.dev.Evolves {superblockBlock} v'.dev) : Spares ∅ v v' := by
  have hl : Layout v.sb := Sound.layout h
  refine ⟨fun m hm _ => resave_inodeAt hl hsb hd hm, fun x hx _ => hd.disk _ ?_⟩
  exact hl.data_ne_superblock (Sound.isData h hx)

theorem resave_freeExact (h : FreeExact v.dev.disk v.sb) (hl : Layout v.sb) (hsb : SameLedger v.sb v'.sb)
    (hd : v.dev.Evolves {superblockBlock} v'.dev) : FreeExact v'.dev.disk v'.sb := by
  refine hsb.freeExact.mpr (Eq.trans h (freeCount_congr hl fun b hb => ?_).symm)
  exact hd.disk b (hl.bitmap_ne_superblock hb)

theorem VolInv.resave (h : VolInv v) (hsb : SameLedger v.sb v'.sb)
    (hd : v.dev.Evolves {superblockBlock} v'.dev) : VolInv v' :=
  ⟨h.sound.resave hsb hd, resave_freeExact h.exact (Sound.layout h.sound) hsb hd⟩

theorem Summed.resave (h : Summed v) (hl : Layout v.sb) (hsb : SameLedger v.sb v'.sb)
    (hd : v.dev.Evolves {superblockBlock} v'.dev) : Summed v' := by
  intro n hn
  rw [hsb.totalInodes] at hn
  rw [resave_inodeAt hl hsb hd hn]
  exact h n hn

theorem Ready.resave (h : Ready v) (hsb : SameLedger v.sb v'.sb) (hd : v.dev.Evolves {superblockBlock} v'.dev) :
    Ready v' := by
  refine ⟨h.sound.resave hsb hd, hd.faultFree h.faultFree, ?_⟩
  rw [hd.config]
  exact hsb.serves h.serves

theorem Ready.online (h : Ready v) : Online v := ⟨h.sound.layout, h.faultFree, h.serves⟩

theorem Online.resave (h : Online v) (hsb : SameLedger v.sb v'.sb) (hd : v.dev.Evolves {superblockBlock} v'.dev) :
    Online v' := by
  refine ⟨hsb.layout h.layout, hd.faultFree h.faultFree, ?_⟩
  rw [hd.config]
  exact hsb.serves h.serves

theorem Online.writes_superblock (h : Online v) : v.dev.Writes superblockBlock := by
  have := h.layout.bitmapAfter
  have := h.layout.tableAfter
  have := h.layout.dataAfter
  have := h.layout.dataNonempty
  exact h.serves.writes _ (by rw [toNat_superblockBlock]; omega)

theorem Online.flushes (h : Online v) : v.dev.FaultFree ∧ ¬ v.dev.blockSize < 0x200 :=
  ⟨h.faultFree, h.writes_superblock.valid⟩

theorem Ready.writes_superblock (h : Ready v) : v.dev.Writes superblockBlock := h.online.writes_superblock

theorem Ready.flushes (h : Ready v) : v.dev.FaultFree ∧ ¬ v.dev.blockSize < 0x200 := h.online.flushes

theorem evolves_saved {c : Nat} : v.dev.Evolves {superblockBlock} (v.saved c).dev := .store rfl

theorem wp_resave (h : Ready v) {Q : Unit → Vol → Prop} {E : OwfsErr → Vol → Prop}
    (hQ : ∀ c c', Q () ((v.saved c).atClock c')) : wp (do superblockWrite; flushBlk) Q E v := by
  rw [wp_bind]
  refine wp_superblockWrite (fun c _ => ?_) (fun _ c _ hn => absurd ⟨h.faultFree, h.writes_superblock⟩ hn)
  exact wp_flushBlk (fun c' => hQ c c') (fun c' hn => absurd h.flushes hn)

/-- 検査値 `sum` を書き、旗を下ろしたスーパーブロック。 -/
def syncedSb (sb : Superblock) (sum : UInt64) : Superblock :=
  clearFlags (stateDirty ||| stateLocked) { sb with fletcher64Bitmap := sum }

theorem SameLedger.synced (sb : Superblock) (sum : UInt64) : SameLedger sb (syncedSb sb sum) :=
  ⟨sb.mountCount, _, _, sb.checksum, rfl⟩

theorem syncChanges_spec (hl : Layout v.sb) :
    wp syncChanges
      (fun _ v' => ∃ sum c c', v' = (Vol.saved { v with sb := syncedSb v.sb sum } c).atClock c' ∧
        (v.dev.FaultFree ∧ Serves v.dev.toHtlConfig v.sb → sum = bitmapFletcher v.dev.disk v.sb))
      (fun _ _ => ¬ (v.dev.FaultFree ∧ Serves v.dev.toHtlConfig v.sb)) v := by
  have hsum : wp bitmapComputeFletcher64
      (fun sum v' => Still v v' ∧ (v.dev.FaultFree ∧ Serves v.dev.toHtlConfig v.sb →
        sum = bitmapFletcher v.dev.disk v.sb))
      (fun _ _ => ¬ (v.dev.FaultFree ∧ Serves v.dev.toHtlConfig v.sb)) v := by
    by_cases h : v.dev.FaultFree ∧ Serves v.dev.toHtlConfig v.sb
    · exact (bitmapComputeFletcher64_spec hl h.1 h.2).mono (fun _ _ hs => ⟨hs.2, fun _ => hs.1⟩)
        (fun _ _ hf => hf.elim)
    · exact (still_bitmapComputeFletcher64 v).mono (fun _ _ hs => ⟨hs, fun h' => absurd h' h⟩) (fun _ _ _ => h)
  unfold syncChanges
  rw [wp_bind]
  refine hsum.mono ?_ (fun _ _ h => h)
  rintro sum _ ⟨⟨c₀, rfl⟩, hsum⟩
  simp only [wp_bind, wp_modifySb]
  refine wp_superblockWrite (fun c _ => ?_) (fun _ c _ hn h => hn ⟨h.1, (Online.mk hl h.1 h.2).writes_superblock⟩)
  exact wp_flushBlk (fun c' => ⟨sum, c, c', rfl, hsum⟩) (fun c' hn h => hn (Online.mk hl h.1 h.2).flushes)

theorem unmount_spec (h : Ready v) (hok : v.sb.stateFlags &&& stateError = 0) :
    wp unmount
      (fun _ v' => ∃ c c', v' =
        (Vol.saved { v with sb := clearFlags (stateDirty ||| stateLocked) v.sb } c).atClock c')
      (fun _ _ => False) v := by
  unfold unmount
  simp only [wp_bind, wp_get, wp_failIf, wp_modifySb]
  refine ⟨fun hne => absurd hok hne, fun _ => ?_⟩
  have hr : Ready { v with sb := clearFlags (stateDirty ||| stateLocked) v.sb } :=
    h.resave (.clearFlags _ v.sb) (.refl _ _)
  exact (wp_bind).mp (wp_resave hr fun c c' => ⟨c, c', rfl⟩)

/-- マウントの書くスーパーブロック。 -/
def mountedSb (sb : Superblock) : Superblock :=
  setFlags stateDirty { sb with mountCount := sb.mountCount + 1 }

theorem SameLedger.mounted (sb : Superblock) : SameLedger sb (mountedSb sb) :=
  ⟨_, _, sb.fletcher64Bitmap, sb.checksum, rfl⟩

/-- 通ったマウントは、旗の下りたスーパーブロックを読み、汚れの旗を立てて書く。 -/
theorem mount_ok_spec :
    wp mount
      (fun _ v' => superblockValidate (diskSb v) = true ∧ (diskSb v).stateFlags &&& stateError = 0 ∧
        (diskSb v).stateFlags &&& (stateDirty ||| stateLocked) = 0 ∧
        ∃ c, v' = Vol.saved { v with sb := mountedSb (diskSb v) } c)
      (fun _ _ => True) v := by
  unfold mount
  rw [wp_bind]
  refine wp_superblockRead (fun c _ hvalid => ?_) (fun _ _ => trivial) (fun _ _ => trivial)
  simp only [wp_bind, wp_get, wp_failIf, wp_ite, wp_modifySb, wp_throw]
  refine ⟨fun _ => trivial, fun herr => ⟨fun _ => ?_, fun hdirty => ?_⟩⟩
  · exact wp_superblockWrite (fun _ _ => trivial) (fun _ _ _ _ => trivial)
  · exact wp_superblockWrite (fun c' _ => ⟨hvalid, not_not.mp herr, not_not.mp hdirty, c', rfl⟩)
      (fun _ _ _ _ => trivial)

/-- 断る旗の下りたディスクのマウントは、失敗のない装置の上で必ず通る。 -/
theorem mount_of_clean (hff : v.dev.FaultFree) (hw : v.dev.Writes superblockBlock)
    (hvalid : superblockValidate (diskSb v) = true) (herr : (diskSb v).stateFlags &&& stateError = 0)
    (hdirty : (diskSb v).stateFlags &&& (stateDirty ||| stateLocked) = 0) :
    mount v = (.ok (), Vol.saved { v with sb := mountedSb (diskSb v) } (v.dev.clock + 2)) := by
  unfold mount
  refine run_bind (superblockRead_faultFree hff hw.toReads hvalid)
    (run_bind rfl (run_bind (run_failIf (not_not.mpr herr)) ?_))
  rw [sb_atClock, if_neg (not_not.mpr hdirty)]
  refine run_bind rfl (run_bind rfl ?_)
  exact superblockWrite_faultFree (v := Vol.atClock { v with sb := mountedSb (diskSb v) } (v.dev.clock + 1)) hff hw

theorem mount_faultFree (hff : v.dev.FaultFree) (hw : v.dev.Writes superblockBlock)
    (hvalid : superblockValidate (diskSb v) = true) (hflags : (diskSb v).stateFlags = 0) :
    mount v = (.ok (), Vol.saved { v with sb := mountedSb (diskSb v) } (v.dev.clock + 2)) :=
  mount_of_clean hff hw hvalid (by rw [hflags]; decide) (by rw [hflags]; decide)

end

end OwStorage.Owfs
