import OwStorage.Owfs.Lemmas.Catalog
import OwStorage.Owfs.Lemmas.Format
import OwStorage.Owfs.Lemmas.Check

/-!
# 解放と参照の消去の順序

切り詰めと inode の解放は、ブロックのビットを先に下ろし、参照を消した inode を後から書く。このため、解放するブロックが
一つでもあれば、その間に、生きている inode の記録が空きブロックを指すディスクができる。
-/

namespace OwStorage.Owfs

open Lib Prog

/-- 生きている inode の記録の参照の先は、どれも使用中である。 -/
def RefsUsed (disk : Disk) (sb : Superblock) : Prop :=
  ∀ (m : UInt32) (r : Option Nat), m.toNat < sb.totalInodes.toNat → slotVacant (inodeAt disk sb m) = false →
    (inodeAt disk sb m).HasRef r → refBlock disk (inodeAt disk sb m) r ∈ usedSet disk sb

/-- ブロックを解放する二つの操作。 -/
inductive ReclaimOp where
  | truncate (who : OwIdentity) (n newSize : UInt32)
  | free (who : OwIdentity) (n : UInt32)

def ReclaimOp.run : ReclaimOp → OwfsM Unit
  | truncate who n newSize => withFresh n (fileTruncate who n newSize)
  | free who n => inodeFree who n

/-- 生きている inode `n` が検査をすべて通り、論理番号 `fromIdx` からのブロックを持つ。 -/
structure Reclaims (who : OwIdentity) (v : Vol) (n fromIdx : UInt32) : Prop where
  inTable : n.toNat < v.sb.totalInodes.toNat
  sums : inodeVerifyChecksum (inodeAt v.dev.disk v.sb n) = true
  live : slotVacant (inodeAt v.dev.disk v.sb n) = false
  writable : volumeWritable v.sb = .ok ()
  unprotected : (inodeAt v.dev.disk v.sb n).securityFlags.toUInt32 &&& secReadonly = 0
  granted : inodeAccessCheck who (inodeAt v.dev.disk v.sb n) accessWrite = .ok ()
  blocks : fromIdx < (inodeAt v.dev.disk v.sb n).blockCount

theorem Reclaims.atClock {who : OwIdentity} {v : Vol} {n fromIdx : UInt32} (h : Reclaims who v n fromIdx) (c : Nat) :
    Reclaims who (v.atClock c) n fromIdx := ⟨h.1, h.2, h.3, h.4, h.5, h.6, h.7⟩

/-- 操作が少なくとも一つのブロックを解放する。 -/
def ReclaimOp.Releases (v : Vol) : ReclaimOp → Prop
  | truncate who n newSize =>
      Reclaims who v n (blocksFor newSize) ∧ (inodeAt v.dev.disk v.sb n).entryType &&& entryFile ≠ 0 ∧
        newSize < (inodeAt v.dev.disk v.sb n).sizeBytes
  | free who n => Reclaims who v n 0

/-- 書き込みの直後のどのディスクでも、参照の先は使用中である。 -/
def Kept (v v' : Vol) : Prop := ∃ new, v'.dev.trail = new ++ v.dev.trail ∧ ∀ k ∈ new, RefsUsed k v.sb

/-! ## 書き込みの記録 -/

/-- 今のディスクは、変わっていないか、書き込みの記録にある。 -/
def Traced (v v' : Vol) : Prop :=
  ∃ new, v'.dev.trail = new ++ v.dev.trail ∧ (v'.dev.disk = v.dev.disk ∨ v'.dev.disk ∈ new)

instance : IsPreorder Vol Traced where
  refl _ := ⟨[], rfl, .inl rfl⟩
  trans := by
    rintro v v' v'' ⟨new, ht, hd⟩ ⟨new', ht', hd'⟩
    refine ⟨new' ++ new, by rw [ht', ht, List.append_assoc], ?_⟩
    rcases hd' with hd' | hd'
    · rcases hd with hd | hd
      · exact .inl (hd'.trans hd)
      · exact .inr (List.mem_append_right _ (by rwa [hd']))
    · exact .inr (List.mem_append_left _ hd')

theorem Still.traced {v v' : Vol} (h : Still v v') : Traced v v' := by
  obtain ⟨c, rfl⟩ := h
  exact ⟨[], rfl, .inl rfl⟩

section

variable {α : Type}

theorem traced_of_still {p : OwfsM α} (h : Preserves Still p) : Preserves Traced p :=
  fun v => (h v).mono (fun _ _ hs => hs.traced) (fun _ _ hs => hs.traced)

theorem traced_writeBlk (b : UInt32) (blk : Block) : Preserves Traced (writeBlk b blk) := fun _ =>
  wp_writeBlk (fun _ _ => ⟨[_], rfl, .inr List.mem_cons_self⟩) (fun _ _ _ _ => still_atClock.traced)

theorem traced_modifySb (f : Superblock → Superblock) : Preserves Traced (modifySb f) := fun _ => ⟨[], rfl, .inl rfl⟩

theorem traced_bitmapFree (b : UInt32) : Preserves Traced (bitmapFree b) := by
  unfold bitmapFree
  exact .bind .get fun _ => .bind (.failIf _ _) fun _ => .bind (.failIf _ _) fun _ =>
    .bind (traced_of_still (still_readBlk _)) fun _ =>
      .whenever (.bind (traced_writeBlk _ _) fun _ => traced_modifySb _)

/-- 呼び出し側の inode を持つ計算でも、ボリュームの書き込みが記録される。 -/
abbrev FileTraced : FileState → FileState → Prop := Order.Preimage FileState.volLens.get Traced

theorem traced_onVol {p : OwfsM α} (h : Preserves Traced p) : Preserves FileTraced (onVol p) := h.within

theorem traced_modifyInode (f : Inode → Inode) : Preserves FileTraced (modifyInode f) :=
  fun s => refl_of Traced s.vol

theorem traced_releaseTarget (ino : Inode) (idx : UInt32) (ibuf : Option Block) :
    Preserves FileTraced (releaseTarget ino idx ibuf) := fun s =>
  (still_releaseTarget ino idx ibuf s).mono (fun _ _ hs => hs.traced) (fun _ _ hs => hs.traced)

theorem traced_inodeWrite (n : UInt32) : Preserves FileTraced (inodeWrite n) := by
  unfold inodeWrite
  exact .bind .get fun _ => .bind (.failIf _ _) fun _ => .bind (.ofExcept _) fun _ =>
    .bind (traced_onVol (traced_of_still (still_readBlk _))) fun _ => .bind (traced_modifyInode _) fun _ =>
      .bind .get fun _ => traced_onVol (traced_writeBlk _ _)

end

/-! ## 参照より先に空いたブロック -/

/-- 途中のディスクに、空きブロックへの参照がある。 -/
def Exposed (v v' : Vol) : Prop :=
  ∃ new, v'.dev.trail = new ++ v.dev.trail ∧ ∃ k ∈ new, ¬ RefsUsed k v.sb

section

variable {v v' v'' : Vol} {n : UInt32} {α β : Type}

theorem Exposed.traced (h : Exposed v v') (ht : Traced v' v'') : Exposed v v'' := by
  obtain ⟨new, htrail, k, hk, hbad⟩ := h
  obtain ⟨new', htrail', _⟩ := ht
  exact ⟨new' ++ new, by rw [htrail', htrail, List.append_assoc], k, List.mem_append_right _ hk, hbad⟩

/-- 一度できた途中のディスクは、続きの計算の後も記録に残る。 -/
theorem Exposed.bind {s : FileState} {p : FileM α} {f : α → FileM β} (hf : ∀ a, Preserves FileTraced (f a))
    (h : wp p (fun _ s' => Exposed v s'.vol) (fun _ s' => Exposed v s'.vol) s) :
    wp (p >>= f) (fun _ s' => Exposed v s'.vol) (fun _ s' => Exposed v s'.vol) s := by
  rw [wp_bind]
  refine h.mono (fun a s' he => ?_) (fun _ _ he => he)
  exact (hf a s').mono (fun _ _ ht => he.traced ht) (fun _ _ ht => he.traced ht)

theorem WellFormed.refsUsed (h : WellFormed v) : RefsUsed v.dev.disk v.sb := by
  intro m r hm hlive href
  have ht : (inodeAt v.dev.disk v.sb m).entryType ≠ 0 := by
    intro hz
    rw [slotVacant, hz] at hlive
    cases hlive
  have hslot := slotInode_of_live ht
  have hmem : (m, r) ∈ refs v.sb (slotInode v.dev.disk v.sb) := by
    refine ⟨hm, ?_⟩
    rw [hslot]
    exact href
  have hused := (Sound.owns h).mapsTo hmem
  unfold target at hused
  rwa [hslot] at hused

/-- 生きている inode の参照の先のビットを下ろしたディスクでは、その参照が空きブロックを指す。 -/
theorem Flipped.not_refsUsed {r : Option Nat} (h : WellFormed v) (hn : n.toNat < v.sb.totalInodes.toNat)
    (hlive : slotVacant (inodeAt v.dev.disk v.sb n) = false) (href : (inodeAt v.dev.disk v.sb n).HasRef r)
    (hf : Flipped v v' (refBlock v.dev.disk (inodeAt v.dev.disk v.sb n) r) false) :
    ¬ RefsUsed v'.dev.disk v.sb := by
  have hl : Layout v.sb := Sound.layout h
  have ht : (inodeAt v.dev.disk v.sb n).entryType ≠ 0 := by
    intro hz
    rw [slotVacant, hz] at hlive
    cases hlive
  have hslot := slotInode_of_live ht
  have hmem : (n, r) ∈ refs v.sb (slotInode v.dev.disk v.sb) := by
    refine ⟨hn, ?_⟩
    rw [hslot]
    exact href
  -- ビットマップだけが変わるので、記録もその参照の先も同じである。
  have hrow : inodeAt v'.dev.disk v.sb n = inodeAt v.dev.disk v.sb n :=
    inodeAt_congr hl (fun b hb => hf.dev.disk b (hl.table_not_bitmap hb)) hn
  have hblock := Sound.target_of_bitmap h hf.dev.disk hmem
  unfold target at hblock
  rw [hslot] at hblock
  intro hall
  have hused := hall n r hn (by rw [hrow]; exact hlive) (by rw [hrow]; exact href)
  rw [hrow, hblock, ← hf.sameShape.usedSet, hf.mem_usedSet hf.isData, if_pos rfl] at hused
  cases hused

/-- 最初の一つのビットを下ろしたところで、途中のディスクができる。 -/
theorem exposed_bitmapFree {r : Option Nat} (hr : Ready v) (hn : n.toNat < v.sb.totalInodes.toNat)
    (hlive : slotVacant (inodeAt v.dev.disk v.sb n) = false) (href : (inodeAt v.dev.disk v.sb n).HasRef r)
    {c : Nat} : wp (bitmapFree (refBlock v.dev.disk (inodeAt v.dev.disk v.sb n) r)) (fun _ v' => Exposed v v')
      (fun _ v' => Exposed v v') (v.atClock c) := by
  have hused := hr.sound.refsUsed n r hn hlive href
  refine ((bitmapFree_spec (v := v.atClock c) hr.sound.layout _).and (traced_bitmapFree _ (v.atClock c))).mono ?_ ?_
  · rintro _ v' ⟨⟨_, hflip | ⟨hno, _⟩⟩, new, htrail, hdisk⟩
    · have hbad := Flipped.not_refsUsed (v := v.atClock c) hr.sound hn hlive href hflip
      rcases hdisk with hsame | hmem
      · rw [hsame] at hbad
        exact absurd hr.sound.refsUsed hbad
      · exact ⟨new, htrail, _, hmem, hbad⟩
    · exact absurd hused hno
  · rintro e v' ⟨⟨_, ⟨_, hno⟩ | ⟨_, hno⟩⟩, _⟩
    · exact absurd hused.1 hno
    · exact absurd ⟨hr.faultFree, hr.serves⟩ hno

/-- 解放するブロックがあれば、解放の途中で、参照より先にブロックが空く。 -/
theorem exposed_blockmapRelease {who : OwIdentity} {fromIdx : UInt32} (hr : Ready v)
    (hrec : Reclaims who v n fromIdx) :
    wp (blockmapRelease fromIdx) (fun _ s' => Exposed v s'.vol) (fun _ s' => Exposed v s'.vol)
      ⟨v, inodeAt v.dev.disk v.sb n⟩ := by
  have ht : (inodeAt v.dev.disk v.sb n).entryType ≠ 0 := by
    intro hz
    have hlive := hrec.live
    rw [slotVacant, hz] at hlive
    cases hlive
  have hsound := hr.sound.fresh ht
  have hlt := UInt32.lt_iff_toNat_lt.mp hrec.blocks
  obtain ⟨k, hk⟩ : ∃ k, ((inodeAt v.dev.disk v.sb n).blockCount - fromIdx).toNat = k + 1 := by
    refine ⟨((inodeAt v.dev.disk v.sb n).blockCount - fromIdx).toNat - 1, ?_⟩
    rw [toNat_sub_le hlt.le]
    omega
  unfold blockmapRelease
  rw [wp_bind, wp_get, wp_bind, wp_ofExcept]
  refine ⟨fun _ _ => ?_, fun e he => ?_⟩
  · rw [if_neg (UInt32.not_le.mpr hrec.blocks)]
    refine Exposed.bind (fun _ => ?_) ?_
    · exact .bind (traced_modifyInode _) fun _ => .bind (.whenever (.bind (traced_onVol (traced_bitmapFree _)) fun _ =>
        traced_modifyInode _)) fun _ => traced_modifyInode _
    · rw [hk]
      refine Exposed.bind (fun r => ?_) ?_
      · cases r with
        | inl b =>
            refine .loopFrom (fun i ibuf => ?_) k 1 b
            exact .bind (traced_releaseTarget _ _ _) fun _ =>
              .bind (.whenever (traced_onVol (traced_bitmapFree _))) fun _ => .pure _
        | inr c => exact .pure _
      · have hidx : (fromIdx + UInt32.ofNat 0).toNat = fromIdx.toNat := by simp
        rw [wp_bind]
        refine ((releaseTarget_spec (s := ⟨v, inodeAt v.dev.disk v.sb n⟩)
          (.start hsound) hsound hrec.inTable hr.faultFree
          hr.serves (by rw [hidx]; exact hlt) (by simp)).and (still_releaseTarget _ _ _ _)).mono ?_
          (fun _ _ hno => hno.1.elim)
        rintro ⟨b, ibuf⟩ ⟨v₁, ino⟩ ⟨⟨hb, _⟩, c, hv₁⟩
        obtain rfl : v₁ = v.atClock c := hv₁
        obtain rfl : b = refBlock v.dev.disk (inodeAt v.dev.disk v.sb n) (some fromIdx.toNat) := by
          rw [← hidx]
          exact hb
        refine Exposed.bind (fun _ => .pure _) ?_
        rw [wp_whenever, wp_onVol]
        refine ⟨fun _ => exposed_bitmapFree (r := some fromIdx.toNat) hr hrec.inTable hrec.live hlt, fun hz => ?_⟩
        exact absurd (hr.sound.layout.data_ne_zero (hsound.mapBlock_isData hrec.inTable hlt)) hz
  · rw [hrec.writable] at he
    cases he

theorem Exposed.not_kept (h : Exposed v v') : ¬ Kept v v' := by
  rintro ⟨new, htrail, hall⟩
  obtain ⟨new', htrail', k, hk, hbad⟩ := h
  rw [htrail] at htrail'
  rw [← List.append_cancel_right htrail'] at hk
  exact hbad (hall k hk)

/-! ## 最後の書き込み -/

/-- 最後に書いたディスクのほかは、参照の先が使用中である。 -/
def KeptButLast (v v' : Vol) : Prop :=
  ∃ new, v'.dev.trail = new ++ v.dev.trail ∧ ∀ k ∈ new, RefsUsed k v.sb ∨ k = v'.dev.disk

theorem Still.kept (h : Still v v') : Kept v v' := by
  obtain ⟨c, rfl⟩ := h
  exact ⟨[], rfl, fun _ hk => absurd hk List.not_mem_nil⟩

theorem Kept.butLast (h : Kept v v') : KeptButLast v v' := by
  obtain ⟨new, htrail, hall⟩ := h
  exact ⟨new, htrail, fun k hk => .inl (hall k hk)⟩

theorem keptButLast_inodeWrite {s : FileState} (h : Kept v s.vol) :
    wp (inodeWrite n) (fun _ s' => KeptButLast v s'.vol) (fun _ s' => KeptButLast v s'.vol) s := by
  obtain ⟨new, htrail, hall⟩ := h
  have hkept : ∀ c, KeptButLast v (s.vol.atClock c) := fun c => ⟨new, htrail, fun k hk => .inl (hall k hk)⟩
  unfold inodeWrite
  simp only [wp_bind, wp_get, wp_failIf, wp_ofExcept, wp_onVol, wp_modifyInode]
  refine ⟨fun _ => hkept s.vol.dev.clock, fun _ => ⟨fun _ _ => ?_, fun _ _ => hkept s.vol.dev.clock⟩⟩
  refine wp_readBlk (fun c _ => ?_) (fun c _ => hkept c)
  refine wp_writeBlk (fun c' _ => ⟨_ :: new, congrArg (List.cons _) htrail, fun k hk => ?_⟩) (fun _ c' _ _ => hkept c')
  rcases List.mem_cons.mp hk with rfl | hk
  · exact .inr rfl
  · exact .inl (hall k hk)

/-- 操作の後のボリュームが条件を満たすなら、最後のディスクでも参照の先は使用中である。 -/
theorem KeptButLast.kept (h : KeptButLast v v') (hm : Moved Set.univ v v') : Kept v v' := by
  obtain ⟨new, htrail, hall⟩ := h
  refine ⟨new, htrail, fun k hk => ?_⟩
  rcases hall k hk with hused | rfl
  · exact hused
  · have hused := hm.ready.sound.refsUsed
    obtain ⟨a, b, hsb⟩ := hm.carry.shape
    rw [hsb] at hused
    exact hused

/-! ## 二つの操作 -/

theorem exposed_truncate {who : OwIdentity} {newSize : UInt32} (hr : Ready v)
    (h : (ReclaimOp.truncate who n newSize).Releases v) : Exposed v ((ReclaimOp.truncate who n newSize).run v).2 := by
  obtain ⟨hrec, hfile, hsize⟩ := h
  have hwp : wp (withFresh n (fileTruncate who n newSize)) (fun _ v' => Exposed v v') (fun _ v' => Exposed v v') v := by
    unfold withFresh discard
    rw [wp_bind]
    refine wp_inodeRead_ok hr hrec.inTable hrec.sums fun c => ?_
    have hr' : Ready (v.atClock c) := ⟨hr.sound, hr.faultFree, hr.serves⟩
    simp only [wp_bind, wp_withInode, wp_pure]
    unfold fileTruncate
    rw [wp_bind, wp_get, wp_bind, wp_failIf]
    refine ⟨fun hno => absurd hno hfile, fun _ => ?_⟩
    rw [wp_bind, wp_ofExcept]
    refine ⟨fun _ _ => ?_, fun e he => ?_⟩
    · rw [wp_bind, wp_failIf]
      refine ⟨fun hno => absurd hrec.unprotected hno, fun _ => ?_⟩
      rw [wp_bind, wp_ofExcept]
      refine ⟨fun _ _ => ?_, fun e he => ?_⟩
      · rw [if_neg (UInt32.not_le.mpr hsize), wp_bind, wp_failIf]
        refine ⟨fun hno => ?_, fun _ => ?_⟩
        · exact absurd (UInt32.lt_iff_toNat_lt.mpr hrec.inTable) (UInt32.not_lt.mpr hno)
        · refine Exposed.bind (v := v.atClock c) (fun _ => .bind (traced_modifyInode _) fun _ => traced_inodeWrite _) ?_
          rw [wp_whenever]
          exact ⟨fun _ => exposed_blockmapRelease hr' (hrec.atClock c), fun hno => absurd hrec.blocks hno⟩
      · cases hrec.granted.symm.trans he
    · cases hrec.writable.symm.trans he
  exact hwp.state

theorem exposed_free {who : OwIdentity} (hr : Ready v) (hrec : (ReclaimOp.free who n).Releases v) :
    Exposed v ((ReclaimOp.free who n).run v).2 := by
  have hwp : wp (inodeFree who n) (fun _ v' => Exposed v v') (fun _ v' => Exposed v v') v := by
    unfold inodeFree
    rw [wp_bind, wp_get, wp_bind, wp_ofExcept]
    refine ⟨fun _ _ => ?_, fun e he => ?_⟩
    · rw [wp_bind]
      refine wp_inodeRead_ok hr hrec.inTable hrec.sums fun c => ?_
      have hr' : Ready (v.atClock c) := ⟨hr.sound, hr.faultFree, hr.serves⟩
      have hlive := hrec.live
      unfold slotVacant at hlive
      rw [Bool.or_eq_false_iff, beq_eq_false_iff_ne, bne_eq_false_iff_eq] at hlive
      rw [wp_bind, wp_failIf]
      refine ⟨fun hz => absurd hz hlive.1, fun _ => ?_⟩
      rw [if_neg (not_not.mpr hlive.2), wp_bind, wp_failIf]
      refine ⟨fun hno => absurd hrec.unprotected hno, fun _ => ?_⟩
      rw [wp_bind, wp_ofExcept]
      refine ⟨fun _ _ => ?_, fun e he => ?_⟩
      · rw [wp_bind, wp_withInode]
        have hbody := Exposed.bind (v := v.atClock c) (f := fun _ => do
          modifyInode markDeleted
          inodeWrite n) (fun _ => .bind (traced_modifyInode _) fun _ => traced_inodeWrite _)
          (exposed_blockmapRelease hr' (hrec.atClock c))
        exact hbody.mono (fun _ _ he => he) (fun _ _ he => he)
      · cases hrec.granted.symm.trans he
    · cases hrec.writable.symm.trans he
  exact hwp.state

/-! ## 生きている inode のブロックを解放しない場合 -/

/-- 消された inode の解放の途中では、生きている inode の参照の先は使用中のままである。 -/
theorem kept_of_othersKept {c : Nat} (hw : WellFormed v) (hdead : slotVacant (inodeAt v.dev.disk v.sb n) = true)
    (h : OthersKept (slotInode v.dev.disk v.sb) n ⟨v.atClock c, inodeAt v.dev.disk v.sb n⟩ v') : Kept v v' := by
  have hl : Layout v.sb := Sound.layout hw
  obtain ⟨new, htrail, hall⟩ := h
  refine ⟨new, htrail, fun k hk m r hm hlive href => ?_⟩
  obtain ⟨hsame, hothers⟩ := hall k hk
  have hrow : inodeAt k v.sb m = inodeAt v.dev.disk v.sb m :=
    inodeAt_congr hl (fun b hb => hsame b (hl.table_not_bitmap hb)) hm
  rw [hrow] at hlive href ⊢
  have hmn : m ≠ n := by
    rintro rfl
    rw [hdead] at hlive
    cases hlive
  have ht : (inodeAt v.dev.disk v.sb m).entryType ≠ 0 := by
    intro hz
    rw [slotVacant, hz] at hlive
    cases hlive
  have hslot := slotInode_of_live ht
  have hmem : (m, r) ∈ refs v.sb (slotInode v.dev.disk v.sb) := by
    refine ⟨hm, ?_⟩
    rw [hslot]
    exact href
  have hused := hothers (m, r) ((mem_refs_update_other hmn).mpr hmem) hmn
  have hblock := Sound.target_of_bitmap hw hsame hmem
  rw [target_update_other hmn] at hused
  unfold target at hused hblock
  rw [hslot] at hused hblock
  rw [hblock]
  exact hused

theorem kept_truncate {who : OwIdentity} {newSize : UInt32} (hr : Ready v)
    (hno : ¬ (ReclaimOp.truncate who n newSize).Releases v) : Kept v ((ReclaimOp.truncate who n newSize).run v).2 := by
  have hwp : wp (withFresh n (fileTruncate who n newSize)) (fun _ v' => KeptButLast v v')
      (fun _ v' => KeptButLast v v') v := by
    unfold withFresh discard
    rw [wp_bind]
    refine (inodeRead_spec hr.sound.layout n).mono ?_ (fun _ _ he => he.1.kept.butLast)
    rintro _ _ ⟨hn, rfl, hsum, c, rfl⟩
    have hstill : KeptButLast v (v.atClock c) := still_atClock.kept.butLast
    simp only [wp_bind, wp_withInode, wp_pure]
    unfold fileTruncate
    rw [wp_bind, wp_get, wp_bind, wp_failIf]
    refine ⟨fun _ => hstill, fun hfile => ?_⟩
    have ht : (inodeAt v.dev.disk v.sb n).entryType ≠ 0 := by
      intro hz
      refine hfile ?_
      change (inodeAt v.dev.disk v.sb n).entryType &&& entryFile = 0
      rw [hz]
      rfl
    rw [wp_bind, wp_ofExcept]
    refine ⟨fun _ hw => ?_, fun _ _ => hstill⟩
    rw [wp_bind, wp_failIf]
    refine ⟨fun _ => hstill, fun hro => ?_⟩
    rw [wp_bind, wp_ofExcept]
    refine ⟨fun _ hacc => ?_, fun _ _ => hstill⟩
    rw [wp_ite]
    refine ⟨fun _ => hstill, fun hsize => ?_⟩
    rw [wp_bind, wp_failIf]
    refine ⟨fun _ => hstill, fun _ => ?_⟩
    rw [wp_bind, wp_whenever]
    refine ⟨fun hlt => ?_, fun _ => keptButLast_inodeWrite still_atClock.kept⟩
    -- 生きている inode なら、ここで解放が起こる。
    have hdead : slotVacant (inodeAt v.dev.disk v.sb n) = true := by
      by_contra hlive
      exact hno ⟨⟨hn, hsum ht, Bool.eq_false_iff.mpr hlive, hw, not_not.mp hro, hacc, hlt⟩, hfile,
        UInt32.not_le.mp hsize⟩
    refine (blockmapRelease_spec (s := ⟨v.atClock c, inodeAt v.dev.disk v.sb n⟩) (hr.sound.fresh ht) hn hr.faultFree
      hr.serves _).mono ?_ (fun _ _ he => absurd hw he.2)
    intro _ s₁ hrel
    exact keptButLast_inodeWrite (kept_of_othersKept hr.sound hdead hrel.cuts)
  exact hwp.state.kept (hr.after (upholds_univ (upholds_fileTruncate who n newSize)))

theorem kept_free {who : OwIdentity} (hr : Ready v) (hno : ¬ (ReclaimOp.free who n).Releases v) :
    Kept v ((ReclaimOp.free who n).run v).2 := by
  have hwp : wp (inodeFree who n) (fun _ v' => KeptButLast v v') (fun _ v' => KeptButLast v v') v := by
    have hrefl : KeptButLast v v := (refl_of Still v).kept.butLast
    unfold inodeFree
    rw [wp_bind, wp_get, wp_bind, wp_ofExcept]
    refine ⟨fun _ hw => ?_, fun _ _ => hrefl⟩
    rw [wp_bind]
    refine (inodeRead_spec hr.sound.layout n).mono ?_ (fun _ _ he => he.1.kept.butLast)
    rintro _ _ ⟨hn, rfl, hsum, c, rfl⟩
    have hstill : KeptButLast v (v.atClock c) := still_atClock.kept.butLast
    rw [wp_bind, wp_failIf]
    refine ⟨fun _ => hstill, fun ht => ?_⟩
    rw [wp_ite]
    refine ⟨fun _ => hstill, fun hdel => ?_⟩
    rw [wp_bind, wp_failIf]
    refine ⟨fun _ => hstill, fun hro => ?_⟩
    rw [wp_bind, wp_ofExcept]
    refine ⟨fun _ hacc => ?_, fun _ _ => hstill⟩
    have hlive : slotVacant (inodeAt v.dev.disk v.sb n) = false := by
      unfold slotVacant
      rw [Bool.or_eq_false_iff, beq_eq_false_iff_ne, bne_eq_false_iff_eq]
      exact ⟨ht, not_not.mp hdel⟩
    have hempty : ¬ 0 < (inodeAt v.dev.disk v.sb n).blockCount := fun hlt =>
      hno ⟨hn, hsum ht, hlive, hw, not_not.mp hro, hacc, hlt⟩
    rw [wp_bind, wp_withInode, wp_bind]
    unfold blockmapRelease
    rw [wp_bind, wp_get, wp_bind, wp_ofExcept]
    refine ⟨fun _ _ => ?_, fun _ _ => hstill⟩
    rw [if_pos (UInt32.not_lt.mp hempty), wp_pure, wp_bind, wp_modifyInode]
    exact (keptButLast_inodeWrite (v := v) still_atClock.kept).mono (fun _ _ hk => hk) (fun _ _ hk => hk)
  exact hwp.state.kept (hr.after (upholds_univ (upholds_inodeFree who n)))

/-- 途中のどのディスクでも参照の先が使用中なのは、生きている inode のブロックを一つも解放しないときに限る。 -/
theorem release_order_iff (hr : Ready v) (op : ReclaimOp) : Kept v (op.run v).2 ↔ ¬ op.Releases v := by
  cases op with
  | truncate who n newSize => exact ⟨fun hk h => (exposed_truncate hr h).not_kept hk, fun h => kept_truncate hr h⟩
  | free who n => exact ⟨fun hk h => (exposed_free hr h).not_kept hk, fun h => kept_free hr h⟩

end

/-! ## 一ブロックのファイルの例 -/

/-- 一ブロックのファイルの解放は、ブロックを解放する。 -/
theorem releases_wrote : (ReclaimOp.free ⟨0, 0⟩ 1).Releases (wrote mountedVolume) := by
  have hn : (1 : UInt32).toNat < (wrote mountedVolume).sb.totalInodes.toNat := by decide +kernel
  have hlive : slotVacant (inodeAt (wrote mountedVolume).dev.disk (wrote mountedVolume).sb 1) = false := by
    decide +kernel
  refine ⟨hn, inSession_wrote.sums 1 hn ?_, hlive, by decide +kernel, by decide +kernel, rfl, by decide +kernel⟩
  intro hz
  rw [slotVacant, hz] at hlive
  cases hlive

/-- 一ブロックのファイルを解放する途中で電源が落ちると、空きブロックへの参照が残る。 -/
theorem free_exposes_block :
    ¬ ∀ (v : Vol) (op : ReclaimOp), Ready v → Kept v (op.run v).2 := fun hclaim =>
  (exposed_free inSession_wrote.toReady releases_wrote).not_kept (hclaim _ (.free ⟨0, 0⟩ 1) inSession_wrote.toReady)

/-- 消す inode のない解放と、一ブロックのファイルの解放の例。 -/
theorem release_order_on_wrote :
    Kept mountedVolume ((ReclaimOp.free ⟨0, 0⟩ 1).run mountedVolume).2 ∧
      ¬ Kept (wrote mountedVolume) ((ReclaimOp.free ⟨0, 0⟩ 1).run (wrote mountedVolume)).2 := by
  refine ⟨(release_order_iff inSession_mountedVolume.toReady _).mpr fun h => ?_, fun h => ?_⟩
  · exact absurd h.live (by decide +kernel)
  · exact (release_order_iff inSession_wrote.toReady _).mp h releases_wrote

end OwStorage.Owfs
