import OwStorage.Owfs.Lemmas.Format

/-!
# 空きの inode の数

フォーマットは空きの数の欄に表の大きさを書き、その後で 0 番のスロットに根のカタログを作る。このとき欄を減らさないので、
欄は空きのスロットの数より 1 だけ大きい。割り当てと解放は欄とスロットを同じだけ変えるから、この差はどの実行でも残る。
-/

namespace OwStorage.Owfs

open Lib Prog

/-- 種類が 0 か、消された印のあるスロットの数。 -/
def vacantCount (v : Vol) : Nat :=
  Nat.count (fun m => slotVacant (inodeAt v.dev.disk v.sb (UInt32.ofNat m)) = true) v.sb.totalInodes.toNat

/-- 空きの数の欄が、空きのスロットの数より 1 だけ大きい。 -/
structure Surplus (v : Vol) : Prop extends Ready v where
  small : v.sb.totalInodes.toNat + 1 < 2 ^ 32
  surplus : v.sb.freeInodes.toNat = vacantCount v + 1

/-- `Surplus` を保つ。 -/
def KeepsSurplus (v v' : Vol) : Prop := Surplus v → Surplus v'

instance : IsPreorder Vol KeepsSurplus where
  refl _ h := h
  trans _ _ _ h h' hv := h' (h hv)

/-! ## 割り当てと解放の数える分 -/

section

variable {v : Vol}

/-- 通った割り当ては、欄を 1 減らす。 -/
theorem inodeAlloc_count (hl : Layout v.sb) (who : OwIdentity) (entryType : UInt8) (name : Option (List UInt8))
    (nameLen : Nat) (parent : UInt32) :
    wp (inodeAlloc who entryType name nameLen parent) (fun _ v' => v'.sb.freeInodes = v.sb.freeInodes - 1)
      (fun _ v' => v'.sb.freeInodes = v.sb.freeInodes) v := by
  refine (inodeAlloc_tableOnly hl who entryType name nameLen parent).mono ?_ ?_
  · intro _ v' h
    rw [h.sb]
  · rintro _ _ ⟨c, rfl⟩
    rfl

/-- 通った解放は、生きている inode についてだけ、欄を 1 増やす。 -/
theorem inodeFree_count (hr : Ready v) (who : OwIdentity) (n : UInt32) :
    wp (inodeFree who n)
      (fun _ v' => v'.sb.freeInodes =
        if slotVacant (inodeAt v.dev.disk v.sb n) then v.sb.freeInodes else v.sb.freeInodes + 1)
      (fun _ v' => v'.sb.freeInodes = v.sb.freeInodes) v := by
  unfold inodeFree
  rw [wp_bind, wp_get, wp_bind, wp_ofExcept]
  refine ⟨fun _ _ => ?_, fun _ _ => rfl⟩
  rw [wp_bind]
  refine (inodeRead_spec hr.sound.layout n).mono ?_ (fun _ _ he => he.1.spends.freeInodes)
  rintro _ _ ⟨_, rfl, _, c, rfl⟩
  simp only [wp_bind, wp_failIf, wp_ite, wp_ofExcept]
  refine ⟨fun _ => rfl, fun ht =>
    ⟨fun hdel => ?_, fun hdel => ⟨fun _ => rfl, fun _ => ⟨fun _ _ => ?_, fun _ _ => rfl⟩⟩⟩⟩
  · have hvac : slotVacant (inodeAt v.dev.disk v.sb n) = true := by
      unfold slotVacant
      rw [bne_iff_ne.mpr hdel, Bool.or_true]
    rw [wp_pure, if_pos hvac]
    rfl
  · have hlive : ¬ slotVacant (inodeAt v.dev.disk v.sb n) = true := by
      unfold slotVacant
      simp [ht, not_not.mp hdel]
    have hbody : Preserves SpendsIn (do
        blockmapRelease 0
        modifyInode markDeleted
        inodeWrite n) :=
      (spends_blockmapRelease 0).bind fun _ => (spends_modifyInode _).bind fun _ => spends_inodeWrite n
    refine (spends_withInode hbody _ (v.atClock c)).mono ?_ (fun _ _ hs => hs.freeInodes)
    intro _ v' hs
    rw [if_neg hlive]
    exact congrArg (· + 1) hs.freeInodes

end

/-! ## 一回の操作 -/

section

variable {v v' : Vol} {n : UInt32} {α : Type} {p : OwfsM α}

theorem vacantCount_le (v : Vol) : vacantCount v ≤ v.sb.totalInodes.toNat := Nat.count_le _

/-- 番号 `n` のほかのスロットが変わらないときの、空きの数の比べ方。 -/
theorem Moved.slotVacant_iff (hm : Moved {n} v v') {x : Nat} (hx : x < v.sb.totalInodes.toNat) (hne : x ≠ n.toNat) :
    slotVacant (inodeAt v'.dev.disk v'.sb (UInt32.ofNat x)) =
      slotVacant (inodeAt v.dev.disk v.sb (UInt32.ofNat x)) := by
  have hlt := v.sb.totalInodes.toNat_lt
  have hat : (UInt32.ofNat x).toNat = x := toNat_ofNat_lt (by omega)
  rw [hm.spares.record _ (by rwa [hat]) fun he => hne (by rw [← hat, Set.mem_singleton_iff.mp he])]

theorem Surplus.still (h : Surplus v) (hs : Still v v') : Surplus v' := by
  have hr : Ready v' := (hs.upholds (T := ∅) h.toReady).ready
  obtain ⟨c, rfl⟩ := hs
  exact ⟨hr, h.small, h.surplus⟩

/-- 種類を変えない書き換えでは、差は変わらない。 -/
theorem Surplus.reworked (h : Surplus v) (hw : Reworked n v v') (hs : Spends v v') : Surplus v' := by
  have htotal := hw.moved.carry.shape.totalInodes
  refine ⟨hw.moved.ready, by rw [htotal]; exact h.small, ?_⟩
  have hcount : vacantCount v' = vacantCount v := by
    unfold vacantCount
    rw [htotal]
    refine count_congr fun x hx => ?_
    by_cases hxn : x = n.toNat
    · have hat : UInt32.ofNat x = n := by rw [hxn, UInt32.ofNat_toNat]
      have hty := hw.type (by rwa [← hxn])
      rw [hat]
      unfold slotVacant
      rw [hty]
    · rw [hw.moved.slotVacant_iff hx hxn]
  rw [hs.freeInodes, hcount]
  exact h.surplus

theorem Surplus.allocated {who : OwIdentity} {entryType : UInt8} {name : Option (List UInt8)} {nameLen : Nat}
    {parent : UInt32} (h : Surplus v) (ha : Allocated who entryType name nameLen parent v v' n)
    (hfree : v'.sb.freeInodes = v.sb.freeInodes - 1) : Surplus v' := by
  have htotal := ha.moved.carry.shape.totalInodes
  have hat : UInt32.ofNat n.toNat = n := UInt32.ofNat_toNat
  have hlive : ¬ slotVacant (inodeAt v'.dev.disk v'.sb n) = true := by
    rw [ha.record]
    rcases ha.type with rfl | rfl
    · exact (by decide : ¬ slotVacant { Inode.zero with entryType := entryFile } = true)
    · exact (by decide : ¬ slotVacant { Inode.zero with entryType := entryCatalog } = true)
  have hcount : vacantCount v = vacantCount v' + 1 := by
    unfold vacantCount
    rw [htotal]
    refine count_of_gain ha.inTable (by rwa [hat]) (by rw [hat]; exact ha.vacant) fun x hx hne => ?_
    rw [ha.moved.slotVacant_iff hx hne]
  refine ⟨ha.moved.ready, by rw [htotal]; exact h.small, ?_⟩
  have hsur := h.surplus
  rw [hfree, toNat_sub_le (by rw [hsur]; exact Nat.le_add_left _ _), hsur, hcount]
  rfl

theorem Surplus.freed (h : Surplus v) (hf : Freed v v' n)
    (hfree : v'.sb.freeInodes =
      if slotVacant (inodeAt v.dev.disk v.sb n) then v.sb.freeInodes else v.sb.freeInodes + 1) : Surplus v' := by
  have htotal := hf.moved.carry.shape.totalInodes
  have hat : UInt32.ofNat n.toNat = n := UInt32.ofNat_toNat
  have hdead : slotVacant (inodeAt v'.dev.disk v'.sb n) = true := by
    unfold slotVacant
    rw [bne_iff_ne.mpr hf.deleted, Bool.or_true]
  refine ⟨hf.moved.ready, by rw [htotal]; exact h.small, ?_⟩
  have hsur := h.surplus
  by_cases hvac : slotVacant (inodeAt v.dev.disk v.sb n) = true
  · have hcount : vacantCount v' = vacantCount v := by
      unfold vacantCount
      rw [htotal]
      refine count_congr fun x hx => ?_
      by_cases hxn : x = n.toNat
      · rw [hxn, hat, hdead, hvac]
      · rw [hf.moved.slotVacant_iff hx hxn]
    rw [hfree, if_pos hvac, hcount]
    exact hsur
  · have hcount : vacantCount v' = vacantCount v + 1 := by
      unfold vacantCount
      rw [htotal]
      refine count_of_gain hf.inTable (by rwa [hat]) (by rwa [hat]) fun x hx hne => ?_
      rw [hf.moved.slotVacant_iff hx hne]
    have hle := vacantCount_le v'
    rw [htotal] at hle
    have hsmall := h.small
    rw [hfree, if_neg hvac, toNat_add_one_lt (by omega), hsur, hcount]

theorem keepsSurplus_of_still (h : Preserves Still p) : Preserves KeepsSurplus p := fun v =>
  (h v).mono (fun _ _ hs hv => hv.still hs) (fun _ _ hs hv => hv.still hs)

theorem keepsSurplus_of_surplus
    (h : ∀ v, Surplus v → wp p (fun _ v' => Surplus v') (fun _ v' => Surplus v') v) : Preserves KeepsSurplus p := by
  intro v
  by_cases hv : Surplus v
  · exact (h v hv).mono (fun _ _ h' _ => h') (fun _ _ h' _ => h')
  · exact wp_trivial.mono (fun _ _ _ h' => absurd h' hv) (fun _ _ _ h' => absurd h' hv)

theorem keepsSurplus_reworks (hspend : Preserves Spends p)
    (h : ∀ v, Ready v → wp p (fun _ v' => Reworked n v v') (fun _ v' => Reworked n v v') v) :
    Preserves KeepsSurplus p :=
  keepsSurplus_of_surplus fun v hv => ((h v hv.toReady).and (hspend v)).mono (fun _ _ h' => hv.reworked h'.1 h'.2)
    (fun _ _ h' => hv.reworked h'.1 h'.2)

theorem keepsSurplus_inodeAlloc (who : OwIdentity) (entryType : UInt8) (name : Option (List UInt8)) (nameLen : Nat)
    (parent : UInt32) : Preserves KeepsSurplus (inodeAlloc who entryType name nameLen parent) :=
  keepsSurplus_of_surplus fun _ hv =>
    ((inodeAlloc_spec hv.toReady who entryType name nameLen parent).and
      (inodeAlloc_count hv.sound.layout who entryType name nameLen parent)).mono (fun _ _ h => hv.allocated h.1 h.2)
      (fun _ _ h => hv.still h.1)

theorem keepsSurplus_inodeFree (who : OwIdentity) (n : UInt32) : Preserves KeepsSurplus (inodeFree who n) :=
  keepsSurplus_of_surplus fun _ hv => ((inodeFree_spec hv.toReady who n).and (inodeFree_count hv.toReady who n)).mono
    (fun _ _ h => hv.freed h.1 h.2) (fun _ _ h => hv.still h.1)

theorem keepsSurplus_catalogInsert (who : OwIdentity) (n : UInt32) (name : Option (List UInt8)) (nameLen : Nat)
    (target : UInt32) (entryType : UInt8) :
    Preserves KeepsSurplus (catalogInsert who n name nameLen target entryType) :=
  keepsSurplus_reworks (n := n) (spends_catalogInsert who n name nameLen target entryType) fun _ hr =>
    (catalogInsert_spec hr who n name nameLen target entryType).mono
      (fun _ _ h => ⟨h.listed.moved, fun _ => h.listed.type⟩)
      (fun _ _ h => ⟨h.unlisted.moved, fun _ => congrArg Inode.entryType h.unlisted.record⟩)

theorem keepsSurplus_catalogRemove (who : OwIdentity) (n : UInt32) (name : Option (List UInt8)) (nameLen : Nat) :
    Preserves KeepsSurplus (catalogRemove who n name nameLen) :=
  keepsSurplus_reworks (n := n) (spends_catalogRemove who n name nameLen) fun _ hr =>
    (catalogRemove_spec hr who n name nameLen).mono
      (fun _ _ h => ⟨h.moved, fun _ => congrArg Inode.entryType h.record⟩) (fun _ _ h => h.1.reworked hr)

/-- 作成の後始末も、割り当てた inode を返して差を保つ。 -/
theorem keepsSurplus_catalogMake (who : OwIdentity) (entryType : UInt8) (parent : UInt32) (name : Option (List UInt8))
    (nameLen : Nat) : Preserves KeepsSurplus (catalogMake who entryType parent name nameLen) := by
  unfold catalogMake
  refine (keepsSurplus_inodeAlloc who entryType name nameLen parent).bind fun n =>
    (keepsSurplus_catalogInsert who parent name nameLen n entryType).attempt.bind fun r => ?_
  cases r with
  | ok _ => exact .pure _
  | error e => exact (keepsSurplus_inodeFree who n).attempt.bind fun _ => .throw _

theorem keepsSurplus_discard (h : Preserves KeepsSurplus p) : Preserves KeepsSurplus (discard p) :=
    h.bind fun _ => .pure _

theorem keepsSurplus_dataOp (op : DataOp) : Preserves KeepsSurplus op.run := by
  cases op with
  | inodeAlloc who entryType name nameLen parent =>
      exact keepsSurplus_discard (keepsSurplus_inodeAlloc who entryType name nameLen parent)
  | inodeFree who n => exact keepsSurplus_inodeFree who n
  | inodeRead n => exact keepsSurplus_discard (keepsSurplus_of_still (still_inodeRead n))
  | catalogCreate who parent name nameLen =>
      exact keepsSurplus_discard (keepsSurplus_catalogMake who entryFile parent name nameLen)
  | catalogMkdir who parent name nameLen =>
      exact keepsSurplus_discard (keepsSurplus_catalogMake who entryCatalog parent name nameLen)
  | catalogInsert who catalog name nameLen target entryType =>
      exact keepsSurplus_catalogInsert who catalog name nameLen target entryType
  | catalogRemove who catalog name nameLen => exact keepsSurplus_catalogRemove who catalog name nameLen
  | catalogLookup who catalog name nameLen =>
      exact keepsSurplus_discard (keepsSurplus_of_still (still_catalogLookup who catalog name nameLen))
  | catalogList who catalog maxEntries =>
      exact keepsSurplus_discard (keepsSurplus_of_still (still_catalogList who catalog maxEntries))
  | fileRead who n offset len =>
      exact keepsSurplus_of_still ((still_inodeRead n).bind fun ino =>
        (still_fileRead who ino offset len).bind fun _ => .pure _)
  | fileWrite who n buf offset len fits =>
      exact keepsSurplus_reworks (spends_withFresh (spends_fileWrite who n buf offset len) n) fun v hr =>
        fileWrite_reworks hr who n fits
  | fileTruncate who n newSize =>
      exact keepsSurplus_reworks (spends_withFresh (spends_fileTruncate who n newSize) n) fun v hr =>
        fileTruncate_reworks hr who n newSize

end

/-! ## 実行の全体 -/

section

variable {d₀ d : HtlDevice} {totalBlocks : UInt32} {label : Option (List UInt8)} {v : Vol}

/-- フォーマットしたばかりのボリュームで、根のほかのスロットはどれも空いている。 -/
theorem surplus_of_opened (hff : d₀.FaultFree) (hformat : formatVolume totalBlocks label d₀ = (.ok (), d))
    (hopen : Opened d v) : Surplus v := by
  have hblank := (blank_of_opened hformat hopen).1
  have htotal : v.sb.totalInodes.toNat = 0x1000 := by rw [hblank.slots]; rfl
  refine ⟨ready_of_opened hff hformat hopen, by omega, ?_⟩
  have hcount : 0x1000 = vacantCount v + 1 := by
    have hall : Nat.count (fun _ => True) v.sb.totalInodes.toNat = vacantCount v + 1 := by
      refine count_of_gain (r := 0) (by omega) (by rw [Bool.not_eq_true]; exact hblank.root) trivial fun x hx hne => ?_
      have hat : (UInt32.ofNat x).toNat = x := toNat_ofNat_lt (by omega)
      have htype := hblank.others (UInt32.ofNat x) (by rwa [hat]) fun he => hne (by rw [← hat, he]; rfl)
      unfold slotVacant
      simp [htype]
    rw [← hall, Nat.count_true, htotal]
  rw [hblank.counter, ← hcount]
  rfl

/-- どの実行の後でも、欄は空きのスロットの数より 1 だけ大きく、それに等しくなることはない。 -/
theorem freeInodes_never_exact (hff : d₀.FaultFree) (hformat : formatVolume totalBlocks label d₀ = (.ok (), d))
    (hopen : Opened d v) (ops : List DataOp) :
    (final DataOp.run ops v).sb.freeInodes.toNat = vacantCount (final DataOp.run ops v) + 1 ∧
      (final DataOp.run ops v).sb.freeInodes.toNat ≠ vacantCount (final DataOp.run ops v) := by
  have hstep : ∀ op v, Surplus v → Surplus (DataOp.run op v).2 := fun op v hv =>
    (keepsSurplus_dataOp op v).state (I := fun v' => KeepsSurplus v v') hv
  have hfin := (final_invariant hstep ops (surplus_of_opened hff hformat hopen)).surplus
  exact ⟨hfin, by omega⟩

end

/-- 小さな装置をフォーマットしてマウントしただけで、欄は空きのスロットの数と違う。 -/
theorem mounted_freeInodes_wrong : formatVolume 280 none blankDevice = (.ok (), formattedVolume.dev) ∧
    mount ⟨formattedVolume.dev, Superblock.zero⟩ = (.ok (), mountedVolume) ∧
    (final DataOp.run [] mountedVolume).sb.freeInodes.toNat ≠ vacantCount (final DataOp.run [] mountedVolume) := by
  have hmount := mount_formattedVolume Superblock.zero
  have hsur := (surplus_of_opened faultFree_blankDevice format_blankDevice (.mount hmount)).surplus
  refine ⟨format_blankDevice, hmount, ?_⟩
  change mountedVolume.sb.freeInodes.toNat ≠ vacantCount mountedVolume
  omega

/-- カタログを作り、その下にファイルを作って書き、ファイルを消す。 -/
def createThenFree : List DataOp :=
  [.catalogMkdir ⟨0, 0⟩ 0 (some [0x61]) 1, .catalogCreate ⟨0, 0⟩ 1 (some [0x62]) 1,
    .fileWrite ⟨0, 0⟩ 2 [7] 0 1 length_seven, .inodeFree ⟨0, 0⟩ 2]

theorem mounted_freeInodes_surplus : (final DataOp.run createThenFree mountedVolume).sb.freeInodes.toNat =
    vacantCount (final DataOp.run createThenFree mountedVolume) + 1 :=
  (freeInodes_never_exact faultFree_blankDevice format_blankDevice
    (.mount (mount_formattedVolume Superblock.zero)) createThenFree).1

end OwStorage.Owfs
