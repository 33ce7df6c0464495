import OwStorage.Owfs.Lemmas.Volume
import OwStorage.Owfs.InodeTable

/-!
# inode の割り当てと解放、ファイルの操作

どの操作も、失敗のない装置の上でボリュームの条件を保つ。
-/

namespace OwStorage.Owfs

open Lib Prog

section

variable {v v' v₀ : Vol} {n : UInt32} {f : UInt32 → Inode} {p ino : Inode} {T : Set UInt32}

/-- 読み直した inode は、所有の関係の中で表のその inode である。 -/
theorem WellFormed.fresh (h : WellFormed v) (ht : (inodeAt v.dev.disk v.sb n).entryType ≠ 0) :
    Sound v.dev.disk v.sb (Function.update (slotInode v.dev.disk v.sb) n (inodeAt v.dev.disk v.sb n)) := by
  rw [update_slotInode ht]
  exact h

theorem wp_inodeRead_ok (hr : Ready v) (hn : n.toNat < v.sb.totalInodes.toNat)
    (hsum : inodeVerifyChecksum (inodeAt v.dev.disk v.sb n) = true) {Q : Inode → Vol → Prop}
    {E : OwfsErr → Vol → Prop} (h : ∀ c, Q (inodeAt v.dev.disk v.sb n) (v.atClock c)) : wp (inodeRead n) Q E v := by
  refine (inodeRead_spec hr.sound.layout n).mono ?_ ?_
  · rintro _ _ ⟨_, rfl, _, c, rfl⟩
    exact h c
  · rintro e _ ⟨_, ⟨_, hno⟩ | ⟨_, _, hbad⟩ | ⟨_, hno⟩⟩
    · exact absurd hn hno
    · rw [hsum] at hbad
      cases hbad
    · exact absurd ⟨hr.faultFree, hr.serves⟩ hno

/-- 読み直した、生きている inode は、所有の関係の中で表のその inode である。 -/
theorem Ready.freshRead (hr : Ready v) (hread : inodeRead n v = (.ok ino, v₀)) (hlive : ino.entryType ≠ 0) :
    Still v v₀ ∧ n.toNat < v₀.sb.totalInodes.toNat ∧ inodeAt v₀.dev.disk v₀.sb n = ino ∧
      Sound v₀.dev.disk v₀.sb (Function.update (slotInode v.dev.disk v.sb) n ino) := by
  obtain ⟨hn, rfl, _, c, rfl⟩ := (inodeRead_spec hr.sound.layout n).ok hread
  refine ⟨⟨c, rfl⟩, hn, rfl, ?_⟩
  change Sound v.dev.disk v.sb _
  rw [update_slotInode hlive]
  exact hr.sound

theorem Ready.freshRead_sb (hr : Ready v) (hread : inodeRead n v = (.ok ino, v₀)) : v₀.sb = v.sb := by
  obtain ⟨_, _, _, c, rfl⟩ := (inodeRead_spec hr.sound.layout n).ok hread
  rfl

theorem live_of_file (h : ino.entryType &&& entryFile ≠ 0) : ino.entryType ≠ 0 := by
  intro hz
  rw [hz] at h
  exact h (by decide)

theorem Recorded.map_eq {ino : Inode} (hrec : Recorded v v' n p)
    (h : Sound v.dev.disk v.sb (Function.update f n ino)) (hn : n.toNat < v.sb.totalInodes.toNat)
    (hd : p.directBlocks = ino.directBlocks) (hi : p.indirectBlock = ino.indirectBlock) {i : Nat}
    (hlt : i < ino.blockCount.toNat) : mapBlock v'.dev.disk p i = mapBlock v.dev.disk ino i := by
  unfold mapBlock
  rw [hd, hi]
  by_cases h10 : i < 10
  · rw [if_pos h10, if_pos h10]
  · have hind := (h.shaped_self hn).indirect.mpr (by omega)
    have hdind : v.sb.IsData ino.indirectBlock := by
      have hd := h.isData (x := (n, none)) (mem_refs_update_self.mpr ⟨hn, hind⟩)
      rwa [target_update_self] at hd
    rw [if_neg h10, if_neg h10, hrec.dev.disk _ fun ht => h.layout.data_not_table hdind ht]

theorem Recorded.block_eq {ino : Inode} (hrec : Recorded v v' n p)
    (h : Sound v.dev.disk v.sb (Function.update f n ino)) (hn : n.toNat < v.sb.totalInodes.toNat)
    (hd : p.directBlocks = ino.directBlocks) (hi : p.indirectBlock = ino.indirectBlock) {i : Nat}
    (hlt : i < ino.blockCount.toNat) :
    v'.dev.disk (mapBlock v'.dev.disk p i) = v.dev.disk (mapBlock v.dev.disk ino i) := by
  rw [hrec.map_eq h hn hd hi hlt]
  exact hrec.dev.disk _ fun ht => h.layout.data_not_table (h.mapBlock_isData hn hlt) ht

/-- 書き換えられない inode の対応するブロックは、番号も中身も変わらない。 -/
theorem Spares.mapped_eq (h : Spares T v v') (hw : WellFormed v) (hn : n.toNat < v.sb.totalInodes.toNat) (hT : n ∉ T)
    (ht : (inodeAt v.dev.disk v.sb n).entryType ≠ 0) {i : Nat} (hi : i < (inodeAt v.dev.disk v.sb n).blockCount.toNat) :
    mapBlock v'.dev.disk (inodeAt v.dev.disk v.sb n) i = mapBlock v.dev.disk (inodeAt v.dev.disk v.sb n) i ∧
      v'.dev.disk (mapBlock v.dev.disk (inodeAt v.dev.disk v.sb n) i) =
        v.dev.disk (mapBlock v.dev.disk (inodeAt v.dev.disk v.sb n) i) := by
  have hslot : slotInode v.dev.disk v.sb n = inodeAt v.dev.disk v.sb n := slotInode_of_live ht
  have hslot' : slotInode v'.dev.disk v'.sb n = inodeAt v.dev.disk v.sb n := by rw [h.slotInode_eq hn hT, hslot]
  have hx : (n, some i) ∈ refs v.sb (slotInode v.dev.disk v.sb) := by
    refine ⟨hn, ?_⟩
    rw [hslot]
    exact hi
  have hmap := h.target_eq hw hx hT
  have hblk := h.blocks _ hx hT
  unfold target refBlock at hmap hblk
  rw [hslot', hslot] at hmap
  rw [hslot] at hblk
  exact ⟨hmap, hblk⟩

/-! ## ファイル -/

/-- inode `n` だけを、種類を変えずに書き換えた。 -/
structure Reworked (n : UInt32) (v v' : Vol) : Prop where
  moved : Moved {n} v v'
  type : n.toNat < v.sb.totalInodes.toNat →
    (inodeAt v'.dev.disk v'.sb n).entryType = (inodeAt v.dev.disk v.sb n).entryType

theorem Still.reworked (hr : Ready v) (h : Still v v') : Reworked n v v' := by
  have hm := h.upholds (T := {n}) hr
  obtain ⟨c, rfl⟩ := h
  exact ⟨hm, fun _ => rfl⟩

theorem Settled.reworked (h : Settled (slotInode v.dev.disk v.sb) n v v' p) (hr : Ready v)
    (ht : (inodeAt v.dev.disk v.sb n).entryType ≠ 0) (htype : p.entryType = (inodeAt v.dev.disk v.sb n).entryType)
    (hp : Summed v → inodeVerifyChecksum p = true) : Reworked n v v' := by
  refine ⟨h.upholds (by rwa [htype]) hp hr, fun hn => ?_⟩
  rw [h.table n hn, if_pos rfl, htype]

/-- 読み直した inode への操作は、種類を変えずにその inode だけを書き換える。 -/
theorem reworked_withFresh {α : Type} {q : FileM α} (hr : Ready v)
    (h : ∀ c, n.toNat < v.sb.totalInodes.toNat → wp q (fun _ s' => Reworked n (v.atClock c) s'.vol)
      (fun _ s' => Reworked n (v.atClock c) s'.vol) ⟨v.atClock c, inodeAt v.dev.disk v.sb n⟩) :
    wp (withFresh n q) (fun _ v' => Reworked n v v') (fun _ v' => Reworked n v v') v := by
  unfold withFresh discard
  rw [wp_bind]
  refine (inodeRead_spec hr.sound.layout n).mono ?_ (fun _ _ he => he.1.reworked hr)
  rintro _ _ ⟨hn, rfl, _, c, rfl⟩
  have hstep : Reworked n v (v.atClock c) := Still.reworked hr ⟨c, rfl⟩
  have hstep₁ : ∀ v', Reworked n (v.atClock c) v' → Reworked n v v' := fun v' h' =>
    ⟨hstep.moved.trans h'.moved hr.sound, h'.type⟩
  simp only [wp_bind, wp_withInode, wp_pure]
  exact (h c hn).mono (fun _ _ h' => hstep₁ _ h') (fun _ _ h' => hstep₁ _ h')

theorem fileWrite_reworks (hr : Ready v) (who : OwIdentity) (n : UInt32) {buf : List UInt8} {offset len : UInt32}
    (hbuf : len.toNat ≤ buf.length) : wp (withFresh n (fileWrite who n buf offset len))
      (fun _ v' => Reworked n v v') (fun _ v' => Reworked n v v') v := by
  refine reworked_withFresh hr fun c hn => ?_
  have hr : Ready (v.atClock c) := (Still.reworked (n := n) hr ⟨c, rfl⟩).moved.ready
  by_cases ht : (inodeAt v.dev.disk v.sb n).entryType = 0
  · unfold fileWrite
    simp only [wp_bind, wp_get, wp_failIf, ht]
    exact ⟨fun _ => Still.reworked hr (refl_of Still _), fun hno => absurd rfl hno⟩
  · have hsum : Summed (v.atClock c) → inodeVerifyChecksum (inodeAt v.dev.disk v.sb n) = true := fun hs => hs n hn ht
    refine (fileWrite_spec (s := ⟨v.atClock c, inodeAt v.dev.disk v.sb n⟩)
      (hr.sound.fresh ht) hn rfl who hbuf).mono ?_ ?_
    · rintro w s' ⟨_, _, hover⟩
      exact hover.settled.reworked hr ht hover.entryType_eq fun hs => hover.verified (hsum hs)
    · rintro e s' (hset | hover)
      · exact hset.reworked hr ht rfl hsum
      · exact hover.settled.reworked hr ht hover.entryType_eq fun hs => hover.verified (hsum hs)

theorem fileTruncate_reworks (hr : Ready v) (who : OwIdentity) (n newSize : UInt32) :
    wp (withFresh n (fileTruncate who n newSize)) (fun _ v' => Reworked n v v') (fun _ v' => Reworked n v v') v := by
  refine reworked_withFresh hr fun c hn => ?_
  have hr : Ready (v.atClock c) := (Still.reworked (n := n) hr ⟨c, rfl⟩).moved.ready
  by_cases ht : (inodeAt v.dev.disk v.sb n).entryType = 0
  · unfold fileTruncate
    simp only [wp_bind, wp_get, wp_failIf, ht]
    exact ⟨fun _ => Still.reworked hr (refl_of Still _), fun hno => absurd rfl hno⟩
  · have hsum : Summed (v.atClock c) → inodeVerifyChecksum (inodeAt v.dev.disk v.sb n) = true := fun hs => hs n hn ht
    refine (fileTruncate_spec (s := ⟨v.atClock c, inodeAt v.dev.disk v.sb n⟩) (hr.sound.fresh ht) hn rfl hr.faultFree
      hr.serves who newSize).mono ?_ ?_
    · rintro _ s' ⟨hset, htype, hver⟩
      exact hset.reworked hr ht htype fun hs => hver (hsum hs)
    · rintro _ s' rfl
      exact Still.reworked hr (refl_of Still _)

theorem upholds_fileWrite (who : OwIdentity) (n : UInt32) {buf : List UInt8} {offset len : UInt32}
    (hbuf : len.toNat ≤ buf.length) : Preserves (Upholds {n}) (withFresh n (fileWrite who n buf offset len)) :=
  upholds_of_ready fun _ hr => (fileWrite_reworks hr who n hbuf).mono (fun _ _ h _ => h.moved) (fun _ _ h _ => h.moved)

theorem upholds_fileTruncate (who : OwIdentity) (n newSize : UInt32) :
    Preserves (Upholds {n}) (withFresh n (fileTruncate who n newSize)) :=
  upholds_of_ready fun _ hr => (fileTruncate_reworks hr who n newSize).mono (fun _ _ h _ => h.moved)
    (fun _ _ h _ => h.moved)

/-! ## 割り当て -/

theorem shaped_freshInode {who : OwIdentity} {sb : Superblock} {entryType : UInt8} {name : Option (List UInt8)}
    {nameLen : Nat} {parent : UInt32} : (freshInode who sb n entryType name nameLen parent).sealed.sealed.Shaped :=
  ⟨Nat.zero_le _, Nat.zero_le _, ⟨fun h => absurd rfl h, fun h => absurd h (Nat.not_lt_zero _)⟩⟩

theorem upholds_freeInodes (k : UInt32) : Upholds T v { v with sb := { v.sb with freeInodes := k } } := by
  have hshape : SameShape v.sb { v.sb with freeInodes := k } := ⟨v.sb.freeBlocks, k, rfl⟩
  intro hr
  refine ⟨⟨?_, hr.faultFree, hshape.serves hr.serves⟩, ⟨hshape, .refl _ _, id, id⟩, fun _ _ _ => rfl,
    fun _ _ _ => rfl⟩
  change Sound v.dev.disk { v.sb with freeInodes := k } (slotInode v.dev.disk { v.sb with freeInodes := k })
  rw [hshape.slotInode]
  exact hr.sound.sameShape hshape

/-- 何も指さない inode を、空いているスロットに記録する。 -/
theorem Sound.vacate {disk : Disk} {sb : Superblock} (h : Sound disk sb f) (hs : p.Shaped)
    (hno : ∀ r, ¬ p.HasRef r) : Sound disk sb (Function.update f n p) := by
  have hself : Function.update f n (f n) = f := Function.update_eq_self n f
  have h' : Sound disk sb (Function.update f n (f n)) := by rwa [hself]
  exact h'.replace hs (owns_shrink h'.owns fun r hr => absurd hr (hno r))

/-- 割り当ての結果。最初の空いているスロットに新しい inode を作る。 -/
structure Allocated (who : OwIdentity) (entryType : UInt8) (name : Option (List UInt8)) (nameLen : Nat)
    (parent : UInt32) (v v' : Vol) (n : UInt32) : Prop where
  moved : Moved {n} v v'
  type : entryType = entryFile ∨ entryType = entryCatalog
  writable : volumeWritable v.sb = .ok ()
  inTable : n.toNat < v.sb.totalInodes.toNat
  vacant : slotVacant (inodeAt v.dev.disk v.sb n) = true
  first : ∀ m : UInt32, m.toNat < n.toNat → slotVacant (inodeAt v.dev.disk v.sb m) = false
  record : inodeAt v'.dev.disk v'.sb n = (freshInode who v.sb n entryType name nameLen parent).sealed.sealed

theorem inodeAlloc_spec (hr : Ready v) (who : OwIdentity) (entryType : UInt8) (name : Option (List UInt8))
    (nameLen : Nat) (parent : UInt32) :
    wp (inodeAlloc who entryType name nameLen parent)
      (fun n v' => Allocated who entryType name nameLen parent v v' n) (fun _ v' => Still v v') v := by
  have hrefl := refl_of Still v
  unfold inodeAlloc
  simp only [wp_bind, wp_get, wp_failIf, wp_ofExcept]
  refine ⟨fun _ => hrefl, fun htype => ⟨fun _ => hrefl, fun _ => ⟨fun _ => hrefl, fun _ =>
    ⟨fun _ hw => ⟨fun _ => hrefl, fun _ => ?_⟩, fun _ _ => hrefl⟩⟩⟩⟩
  have htype : entryType = entryFile ∨ entryType = entryCatalog := by
    by_contra hno
    exact htype (not_or.mp hno)
  have ht : entryType ≠ 0 := by
    rintro rfl
    exact htype.elim (by decide) (by decide)
  refine wp_loop (fun k _ v' => Still v v' ∧
    ∀ m : UInt32, m.toNat < k → slotVacant (inodeAt v.dev.disk v.sb m) = false)
    ⟨hrefl, fun _ hm => absurd hm (Nat.not_lt_zero _)⟩ ?_ (fun _ _ hs => hs.1)
  rintro k _ _ hk ⟨⟨c, rfl⟩, hfirst⟩
  have hlt := v.sb.totalInodes.toNat_lt
  have hidx : (UInt32.ofNat k).toNat = k := toNat_ofNat_lt (by omega)
  have hn : (UInt32.ofNat k).toNat < v.sb.totalInodes.toNat := by rwa [hidx]
  rw [wp_bind]
  refine (inodeLoad_spec (v := v.atClock c) hr.sound.layout _).mono ?_ (fun _ _ he => trans_of Still ⟨c, rfl⟩ he.1)
  rintro _ _ ⟨_, rfl, c', rfl⟩
  rw [wp_ite]
  refine ⟨fun hvac => ?_, fun hvac => ⟨⟨c', rfl⟩, fun m hm => ?_⟩⟩
  · simp only [wp_bind, wp_withInode, wp_modifySb, wp_pure]
    have hstaged : Staged v (v.atClock c') := (refl_of Staged v).still ⟨c', rfl⟩
    have hvacant : Sound v.dev.disk v.sb (Function.update (slotInode v.dev.disk v.sb) (UInt32.ofNat k)
        (freshInode who v.sb (UInt32.ofNat k) entryType name nameLen parent).sealed.sealed) := by
      refine hr.sound.vacate shaped_freshInode fun r hx => ?_
      cases r with
      | none => exact hx rfl
      | some i => exact absurd hx (Nat.not_lt_zero _)
    refine (hstaged.record (f := slotInode v.dev.disk v.sb) (n := UInt32.ofNat k)
      (s := ⟨v.atClock c', (freshInode who v.sb (UInt32.ofNat k) entryType name nameLen parent).sealed⟩)
      hn hr.faultFree hr.serves hw hvacant hvacant fun _ _ _ => rfl).mono ?_ (fun _ _ hno => hno.elim)
    rintro _ s' ⟨_, hset⟩
    have hmoved := trans_of (Upholds {UInt32.ofNat k}) (hset.upholds ht fun _ => verify_sealed _)
      (upholds_freeInodes (s'.vol.sb.freeInodes - 1)) hr
    refine ⟨hmoved, htype, hw, hn, hvac, by rw [hidx]; exact hfirst, ?_⟩
    have hrow := hset.table _ hn
    rw [if_pos rfl] at hrow
    exact hrow
  · by_cases hmk : m.toNat < k
    · exact hfirst m hmk
    · obtain rfl : m = UInt32.ofNat k := UInt32.toNat_inj.mp (by rw [hidx]; omega)
      exact Bool.eq_false_iff.mpr hvac

theorem upholds_inodeAlloc (who : OwIdentity) (entryType : UInt8) (name : Option (List UInt8)) (nameLen : Nat)
    (parent : UInt32) : Preserves (Upholds Set.univ) (inodeAlloc who entryType name nameLen parent) :=
  upholds_of_ready fun _ hr => (inodeAlloc_spec hr who entryType name nameLen parent).mono
    (fun _ _ ha _ => ha.moved.mono (Set.subset_univ _)) (fun _ _ hs => hs.upholds)

theorem type_ne_zero_of_live {ino : Inode} (h : slotVacant ino = false) : ino.entryType ≠ 0 := by
  unfold slotVacant at h
  rw [Bool.or_eq_false_iff] at h
  exact beq_eq_false_iff_ne.mp h.1

theorem Allocated.ne_of_live {who : OwIdentity} {entryType : UInt8} {name : Option (List UInt8)} {nameLen : Nat}
    {parent : UInt32} (h : Allocated who entryType name nameLen parent v v' n) {m : UInt32}
    (hm : slotVacant (inodeAt v.dev.disk v.sb m) = false) : n ≠ m := by
  rintro rfl
  exact Bool.noConfusion (h.vacant.symm.trans hm)

/-! ## 解放 -/

/-- 解放の結果。消された印のある inode の解放は、何も変えない。 -/
structure Freed (v v' : Vol) (n : UInt32) : Prop where
  moved : Moved {n} v v'
  inTable : n.toNat < v.sb.totalInodes.toNat
  deleted : (inodeAt v'.dev.disk v'.sb n).entryType &&& entryDeleted ≠ 0
  emptied : (inodeAt v'.dev.disk v'.sb n).blockCount = 0 ∨ Still v v'

theorem inodeFree_spec (hr : Ready v) (who : OwIdentity) (n : UInt32) :
    wp (inodeFree who n) (fun _ v' => Freed v v' n) (fun _ v' => Still v v') v := by
  unfold inodeFree
  rw [wp_bind, wp_get, wp_bind, wp_ofExcept]
  refine ⟨fun _ hw => ?_, fun _ _ => refl_of Still v⟩
  rw [wp_bind]
  refine (inodeRead_spec hr.sound.layout n).mono ?_ (fun _ _ he => he.1)
  rintro _ _ ⟨hn, rfl, _, c, rfl⟩
  have hstill : Still v (v.atClock c) := ⟨c, rfl⟩
  simp only [wp_bind, wp_failIf, wp_ite, wp_ofExcept, wp_withInode, wp_modifySb, wp_modifyInode]
  refine ⟨fun _ => hstill, fun ht => ⟨fun hdel => ⟨hstill.upholds hr, hn, hdel, .inr hstill⟩, fun _ =>
    ⟨fun _ => hstill, fun _ => ⟨fun _ _ => ?_, fun _ _ => hstill⟩⟩⟩⟩
  have hr₁ : Ready (v.atClock c) := (hstill.upholds (T := ∅) hr).ready
  have h := hr₁.sound.fresh ht
  refine (blockmapRelease_spec (s := ⟨v.atClock c, inodeAt v.dev.disk v.sb n⟩) h hn hr.faultFree hr.serves 0).mono ?_
    (fun _ _ he => absurd hw he.2)
  rintro _ s₁ hrel
  have hz : s₁.inode.blockCount = 0 := UInt32.toNat_inj.mp (by rw [hrel.count]; simp)
  have hsound := hrel.sound h hn (markDeleted s₁.inode).sealed ⟨hz.symm, rfl, rfl, rfl⟩ (Nat.zero_le _)
  refine ((hrel.staged h.layout).record (s := ⟨s₁.vol, markDeleted s₁.inode⟩) hn hr.faultFree hr.serves hw
    hsound h (hrel.untouched h)).mono ?_ (fun _ _ hno => hno.elim)
  rintro _ s' ⟨_, hset⟩
  have hmask : (s₁.inode.entryType ||| entryDeleted) &&& entryDeleted ≠ 0 := by
    rw [or_and_mask]
    decide
  have hrow : inodeAt s'.vol.dev.disk s'.vol.sb n = (markDeleted s₁.inode).sealed := by
    rw [hset.table n hn, if_pos rfl]
  have hup := trans_of (Upholds {n}) (trans_of (Upholds {n}) hstill.upholds (hset.upholds (fun hzero => hmask ?_)
    fun _ => verify_sealed _)) (upholds_freeInodes (s'.vol.sb.freeInodes + 1))
  · refine ⟨hup hr, hn, ?_, .inl ?_⟩
    · change (inodeAt s'.vol.dev.disk s'.vol.sb n).entryType &&& entryDeleted ≠ 0
      rw [hrow]
      exact hmask
    · change (inodeAt s'.vol.dev.disk s'.vol.sb n).blockCount = 0
      rw [hrow]
      rfl
  · change (s₁.inode.entryType ||| entryDeleted) = 0 at hzero
    rw [hzero]
    rfl

/-- inode の表と、空きの inode の数 `k` のほかは変わらない。 -/
structure TableOnly (v v' : Vol) (k : UInt32) : Prop where
  sb : v'.sb = { v.sb with freeInodes := k }
  dev : v.dev.Evolves v.sb.tableRegion v'.dev

theorem TableOnly.bitmap {k : UInt32} (h : TableOnly v v' k) (hl : Layout v.sb) :
    ∀ x ∈ v.sb.bitmapRegion, v'.dev.disk x = v.dev.disk x :=
  fun x hx => h.dev.disk x fun ht => hl.table_not_bitmap ht hx

theorem inodeAlloc_tableOnly (hl : Layout v.sb) (who : OwIdentity) (entryType : UInt8) (name : Option (List UInt8))
    (nameLen : Nat) (parent : UInt32) :
    wp (inodeAlloc who entryType name nameLen parent) (fun _ v' => TableOnly v v' (v.sb.freeInodes - 1))
      (fun _ v' => Still v v') v := by
  have hrefl := refl_of Still v
  unfold inodeAlloc
  simp only [wp_bind, wp_get, wp_failIf, wp_ofExcept]
  refine ⟨fun _ => hrefl, fun _ => ⟨fun _ => hrefl, fun _ => ⟨fun _ => hrefl, fun _ =>
    ⟨fun _ _ => ⟨fun _ => hrefl, fun _ => ?_⟩, fun _ _ => hrefl⟩⟩⟩⟩
  refine wp_loop (fun _ _ v' => Still v v') hrefl ?_ (fun _ _ hs => hs)
  rintro k _ _ _ ⟨c, rfl⟩
  rw [wp_bind]
  refine (inodeLoad_spec (v := v.atClock c) hl _).mono ?_ (fun _ _ he => trans_of Still ⟨c, rfl⟩ he.1)
  rintro _ _ ⟨_, _, c', rfl⟩
  rw [wp_ite]
  refine ⟨fun _ => ?_, fun _ => ⟨c', rfl⟩⟩
  simp only [wp_bind, wp_withInode, wp_modifySb, wp_pure]
  refine (inodeWrite_spec (s := ⟨v.atClock c', _⟩) hl _).mono ?_ (fun _ _ he => trans_of Still ⟨c', rfl⟩ he.1)
  rintro _ s' ⟨_, hrec⟩
  refine ⟨?_, HtlDevice.Evolves.atClock.trans hrec.dev⟩
  rw [hrec.sb]
  rfl

/-- ブロックを持たない、書ける inode の解放は通り、表の一つの記録と数だけを変える。 -/
theorem inodeFree_tableOnly (hr : Ready v) (hn : n.toNat < v.sb.totalInodes.toNat)
    (hw : volumeWritable v.sb = .ok ()) (hsum : inodeVerifyChecksum (inodeAt v.dev.disk v.sb n) = true)
    (hlive : slotVacant (inodeAt v.dev.disk v.sb n) = false) (hempty : (inodeAt v.dev.disk v.sb n).blockCount = 0)
    {who : OwIdentity} (hopen : ¬ Fenced who (inodeAt v.dev.disk v.sb n)) :
    wp (inodeFree who n) (fun _ v' => TableOnly v v' (v.sb.freeInodes + 1)) (fun _ _ => False) v := by
  have hl := hr.sound.layout
  have htype : (inodeAt v.dev.disk v.sb n).entryType ≠ 0 ∧
      (inodeAt v.dev.disk v.sb n).entryType &&& entryDeleted = 0 := by
    simpa [slotVacant] using hlive
  unfold inodeFree
  rw [wp_bind, wp_get, wp_bind, wp_ofExcept]
  refine ⟨fun _ _ => ?_, fun _ he => by rw [hw] at he; cases he⟩
  rw [wp_bind]
  refine wp_inodeRead_ok hr hn hsum fun c => ?_
  simp only [wp_bind, wp_failIf, wp_ite, wp_ofExcept, wp_withInode, wp_modifySb, wp_modifyInode]
  refine ⟨fun hz => htype.1 hz, fun _ =>
    ⟨fun hdel => absurd htype.2 hdel, fun _ => ⟨fun hro => hopen (.inl hro), fun _ =>
    ⟨fun _ _ => ?_, fun _ he => hopen (.inr fun hacc => by rw [hacc] at he; cases he)⟩⟩⟩⟩
  -- 解放するブロックがないので、ビットマップは変わらない。
  have hrelease : blockmapRelease 0 ⟨v.atClock c, inodeAt v.dev.disk v.sb n⟩ =
      (.ok (), ⟨v.atClock c, inodeAt v.dev.disk v.sb n⟩) := by
    refine run_bind rfl ?_
    change (Prog.ofExcept (volumeWritable v.sb) >>= _) _ = _
    rw [hw]
    refine run_bind rfl ?_
    rw [hempty]
    rfl
  rw [wp, hrelease]
  refine (inodeWrite_spec (s := ⟨v.atClock c, markDeleted (inodeAt v.dev.disk v.sb n)⟩) hl n).mono ?_ ?_
  · rintro _ s' ⟨_, hrec⟩
    refine ⟨?_, HtlDevice.Evolves.atClock.trans hrec.dev⟩
    rw [hrec.sb]
    rfl
  · rintro _ s' ⟨_, hno⟩
    exact hno ⟨hr.faultFree, hr.serves⟩ ⟨hn, hw⟩

theorem upholds_inodeFree (who : OwIdentity) (n : UInt32) : Preserves (Upholds {n}) (inodeFree who n) :=
  upholds_of_ready fun _ hr => (inodeFree_spec hr who n).mono (fun _ _ h _ => h.moved) (fun _ _ h => h.upholds)

/-- 解放のうち、記録を読んだ後の部分。 -/
def freeRecord (who : OwIdentity) (n : UInt32) (temp : Inode) : OwfsM Unit := do
  Prog.failIf (temp.entryType = 0) .notFound
  if temp.entryType &&& entryDeleted ≠ 0 then pure ()
  else do
    Prog.failIf (temp.securityFlags.toUInt32 &&& secReadonly ≠ 0) .writeProtected
    Prog.ofExcept (inodeAccessCheck who temp accessWrite)
    let _ ← withInode temp do
      blockmapRelease 0
      modifyInode markDeleted
      inodeWrite n
    modifySb fun sb => { sb with freeInodes := sb.freeInodes + 1 }

theorem inodeFree_eq {who : OwIdentity} (hr : Ready v) (hs : Summed v)
    (hn : n.toNat < v.sb.totalInodes.toNat) (hw : volumeWritable v.sb = .ok ()) :
    inodeFree who n v = freeRecord who n (inodeAt v.dev.disk v.sb n) (inodeLoad n v).2 := by
  refine run_bind rfl (run_bind (a := ()) ?_ (run_bind (hr.inodeRead_eq hs hn) rfl))
  rw [hw]
  rfl

end

end OwStorage.Owfs
