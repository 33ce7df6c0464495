import OwStorage.Owfs.Theorems.Creation

/-!
# 失敗した作成

作成は、親を調べる前に inode を割り当てる。登録に失敗すれば、割り当てた inode を返す。この返却は、割り当てた主体の書き込みの
権限を調べるので、主体の番号が記録に収まるときは必ず通り、失敗した作成の跡は残らない。
-/

namespace OwStorage.Owfs

open Lib Prog

/-- 空きの数と、ビットマップと、生きている inode の記録と、カタログのブロックが変わらず、空きのスロットは空きのままである。 -/
structure Untraced (v v' : Vol) : Prop where
  freeInodes : v'.sb.freeInodes = v.sb.freeInodes
  freeBlocks : v'.sb.freeBlocks = v.sb.freeBlocks
  bitmap : ∀ x ∈ v.sb.bitmapRegion, v'.dev.disk x = v.dev.disk x
  records : ∀ m : UInt32, m.toNat < v.sb.totalInodes.toNat → slotVacant (inodeAt v.dev.disk v.sb m) = false →
    recordBytes v'.dev.disk v'.sb m = recordBytes v.dev.disk v.sb m
  vacant : ∀ m : UInt32, m.toNat < v.sb.totalInodes.toNat → slotVacant (inodeAt v.dev.disk v.sb m) = true →
    slotVacant (inodeAt v'.dev.disk v'.sb m) = true
  catalogs : ∀ m : UInt32, m.toNat < v.sb.totalInodes.toNat → slotVacant (inodeAt v.dev.disk v.sb m) = false →
    (inodeAt v.dev.disk v.sb m).entryType &&& entryCatalog ≠ 0 →
    ∀ i < (inodeAt v.dev.disk v.sb m).blockCount.toNat,
      mapBlock v'.dev.disk (inodeAt v'.dev.disk v'.sb m) i = mapBlock v.dev.disk (inodeAt v.dev.disk v.sb m) i ∧
        blockOf v' m i = blockOf v m i

/-- 特権を持つか、番号が記録の 16 ビットに収まる主体。 -/
def Recordable (who : OwIdentity) : Prop :=
  owSecIsSuperuser who = true ∨ (who.uid.toNat < 65536 ∧ who.gid.toNat < 65536)

section

variable {v v' v₁ v₂ : Vol} {n parent : UInt32} {who : OwIdentity} {entryType : UInt8} {name : Option (List UInt8)}
  {nameLen : Nat}

theorem Still.untraced (h : Still v v') : Untraced v v' := by
  obtain ⟨c, rfl⟩ := h
  exact ⟨rfl, rfl, fun _ _ => rfl, fun _ _ _ => rfl, fun _ _ h => h, fun _ _ _ _ _ _ => ⟨rfl, rfl⟩⟩

/-- 作った主体は、作ったばかりの inode に書ける。 -/
theorem Recordable.writes (h : Recordable who) (sb : Superblock) :
    ¬ Fenced who (freshInode who sb n entryType name nameLen parent).sealed.sealed := by
  have hmode : ((if entryType = entryCatalog then modeDefaultDir else modeDefaultFile) >>> 6) &&& 0x7 &&& 2 ≠ 0 := by
    split <;> decide
  rintro (hro | hacc)
  · refine hro ?_
    change (if sb.securityFlags &&& secEncrypted ≠ 0 then secEncrypted.toUInt8 else 0).toUInt32 &&& secReadonly = 0
    split <;> decide
  · refine hacc ?_
    change (if ! owSecAccess who (if entryType = entryCatalog then modeDefaultDir else modeDefaultFile)
      who.uid.toUInt16 who.gid.toUInt16 accessWrite then .error .accessDenied else .ok () :
        Except OwfsErr Unit) = .ok ()
    rcases h with hroot | ⟨huid, _⟩
    · rw [owSecAccess_superuser (beq_iff_eq.mp hroot)]
      rfl
    · have hself : who.uid = who.uid.toUInt16.toUInt32 := by
        refine UInt32.toNat_inj.mp ?_
        rw [UInt16.toNat_toUInt32, UInt32.toNat_toUInt16, Nat.mod_eq_of_lt huid]
      rw [owSecAccess_owner_write hself hmode]
      rfl

/-- 登録の失敗の後で、割り当てた inode を返す。 -/
theorem Unlisted.undone (hun : Unlisted v₁ v₂ parent) (ha : Allocated who entryType name nameLen parent v v₁ n)
    (ht : TableOnly v v₁ (v.sb.freeInodes - 1)) (hr : Ready v) (hwho : Recordable who) :
    wp (inodeFree who n) (fun _ v' => Untraced v v') (fun _ _ => False) v₂ := by
  have hr₁ := ha.moved.ready
  have hr₂ := hun.moved.ready
  have hl := hr.sound.layout
  have hn : n.toNat < v.sb.totalInodes.toNat := ha.inTable
  have hn₁ : n.toNat < v₁.sb.totalInodes.toNat := by rwa [ha.moved.carry.shape.totalInodes]
  have hsb : v₂.sb = { v.sb with freeInodes := v.sb.freeInodes - 1 } := hun.unspent.sb.trans ht.sb
  -- 登録の失敗は、どの inode の記録も変えない。
  have hrow : ∀ m : UInt32, m.toNat < v.sb.totalInodes.toNat →
      inodeAt v₂.dev.disk v₂.sb m = inodeAt v₁.dev.disk v₁.sb m := by
    intro m hm
    by_cases hmp : m = parent
    · rw [hmp]
      exact hun.record
    · exact hun.moved.spares.record m (by rwa [ha.moved.carry.shape.totalInodes]) hmp
  have hrec : inodeAt v₂.dev.disk v₂.sb n = (freshInode who v.sb n entryType name nameLen parent).sealed.sealed :=
    (hrow n hn).trans ha.record
  have hn₂ : n.toNat < v₂.sb.totalInodes.toNat := by
    rw [hsb]
    exact hn
  have hlive : slotVacant (inodeAt v₂.dev.disk v₂.sb n) = false := by
    rw [hrec]
    change (entryType == 0 || entryType &&& entryDeleted != 0) = false
    rcases ha.type with rfl | rfl <;> decide
  have hfree := inodeFree_tableOnly hr₂ hn₂ (by rw [hsb]; exact ha.writable) (by rw [hrec]; exact verify_sealed _) hlive
    (by rw [hrec]; rfl) (by rw [hrec]; exact hwho.writes v.sb)
  refine ((inodeFree_spec hr₂ who n).and hfree).mono ?_ (fun _ _ hno => hno.2)
  rintro _ v' ⟨hfreed, ht'⟩
  have hshape := trans_of SameShape ha.moved.carry.shape hun.moved.carry.shape
  have hother : ∀ m : UInt32, m.toNat < v.sb.totalInodes.toNat → m ≠ n →
      inodeAt v'.dev.disk v'.sb m = inodeAt v.dev.disk v.sb m := by
    intro m hm hmn
    rw [hfreed.moved.spares.record m (by rwa [hshape.totalInodes]) hmn, hrow m hm, ha.moved.spares.record m hm hmn]
  refine ⟨?_, ?_, fun x hx => ?_, fun m hm hv => ?_, fun m hm hv => ?_, fun m hm hv _ i hi => ?_⟩
  · rw [ht'.sb, hsb]
    exact UInt32.sub_add_cancel _ _
  · rw [ht'.sb, hsb]
  · have hx₁ : x ∈ v₁.sb.bitmapRegion := by
      rw [ht.sb]
      exact hx
    have hx₂ : x ∈ v₂.sb.bitmapRegion := by
      rw [hsb]
      exact hx
    rw [ht'.bitmap hr₂.sound.layout x hx₂, hun.unspent.bitmap x hx₁, ht.bitmap hl x hx]
  · rw [← enc_inodeAt, ← enc_inodeAt, hother m hm (ha.ne_of_live hv).symm]
  · by_cases hmn : m = n
    · subst hmn
      have hdel := hfreed.deleted
      simp [slotVacant, hdel]
    · rw [hother m hm hmn]
      exact hv
  · have hmn : m ≠ n := (ha.ne_of_live hv).symm
    have hty := type_ne_zero_of_live hv
    have hm₁ : m.toNat < v₁.sb.totalInodes.toNat := by rwa [ha.moved.carry.shape.totalInodes]
    have hm₂ : m.toNat < v₂.sb.totalInodes.toNat := by rwa [hshape.totalInodes]
    have h₁ := ha.moved.spares.record m hm hmn
    have h₂ := hrow m hm
    obtain ⟨ha₁, hb₁⟩ := ha.moved.spares.mapped_eq hr.sound hm hmn hty hi
    have hmid : mapBlock v₂.dev.disk (inodeAt v.dev.disk v.sb m) i =
      mapBlock v₁.dev.disk (inodeAt v.dev.disk v.sb m) i ∧
        v₂.dev.disk (mapBlock v₁.dev.disk (inodeAt v.dev.disk v.sb m) i) =
          v₁.dev.disk (mapBlock v₁.dev.disk (inodeAt v.dev.disk v.sb m) i) := by
      rw [← h₁] at hi hty ⊢
      by_cases hmp : m = parent
      · subst hmp
        exact hun.blocks i hi
      · exact hun.moved.spares.mapped_eq hr₁.sound hm₁ hmp hty hi
    have hlast : mapBlock v'.dev.disk (inodeAt v.dev.disk v.sb m) i =
      mapBlock v₂.dev.disk (inodeAt v.dev.disk v.sb m) i ∧
        v'.dev.disk (mapBlock v₂.dev.disk (inodeAt v.dev.disk v.sb m) i) =
          v₂.dev.disk (mapBlock v₂.dev.disk (inodeAt v.dev.disk v.sb m) i) := by
      rw [← h₁, ← h₂] at hi hty ⊢
      exact hfreed.moved.spares.mapped_eq hr₂.sound hm₂ hmn hty hi
    have hmap : mapBlock v'.dev.disk (inodeAt v.dev.disk v.sb m) i =
      mapBlock v.dev.disk (inodeAt v.dev.disk v.sb m) i :=
      hlast.1.trans (hmid.1.trans ha₁)
    unfold blockOf
    rw [hother m hm hmn]
    refine ⟨hmap, ?_⟩
    rw [hlast.1, hlast.2, hmid.1, hmid.2, ha₁, hb₁]

/-- 作成の失敗は、跡を残さない。 -/
theorem catalogMake_untraced (hr : Ready v) (hwho : Recordable who) (entryType : UInt8) (parent : UInt32)
    (name : Option (List UInt8)) (nameLen : Nat) :
    wp (catalogMake who entryType parent name nameLen) (fun _ _ => True) (fun _ v' => Untraced v v') v := by
  unfold catalogMake
  rw [wp_bind]
  refine ((inodeAlloc_spec hr who entryType name nameLen parent).and
    (inodeAlloc_tableOnly hr.sound.layout who entryType name nameLen parent)).mono ?_ (fun _ _ he => he.1.untraced)
  rintro n v₁ ⟨ha, ht⟩
  rw [wp_bind, wp_attempt]
  refine (catalogInsert_spec ha.moved.ready who parent name nameLen n entryType).mono (fun _ _ _ => trivial) ?_
  intro e v₂ href
  rw [wp_bind, wp_attempt]
  exact (href.unlisted.undone ha ht hr hwho).mono (fun _ _ h => h) (fun _ _ hno => hno.elim)

/-- どの作成の失敗も、跡を残さない。失敗した呼び出しは inode の番号を返さない。 -/
theorem failed_creation_untraced (hr : Ready v) (hwho : Recordable who) (op : MakeOp) {e : OwfsErr}
    (hrun : op.run who parent name nameLen v = (.error e, v')) : Untraced v v' := by
  rw [op.run_eq] at hrun
  change catalogMake who op.entryType parent name nameLen v = (.error e, v') at hrun
  have hwp := catalogMake_untraced hr hwho op.entryType parent name nameLen
  rw [wp, hrun] at hwp
  exact hwp

end

/-! ## 親のない作成の例 -/

/-- 表の外の番号を親とする作成は失敗し、跡を残さない。 -/
theorem orphan_untraced : ∃ e v', MakeOp.create.run ⟨0, 0⟩ 9999 (some [0x61]) 1 mountedVolume = (.error e, v') ∧
    Untraced mountedVolume v' := by
  have hr := inSession_mountedVolume.toReady
  have htable : mountedVolume.sb.totalInodes.toNat ≤ 9999 := by decide +kernel
  cases hrun : MakeOp.create.run ⟨0, 0⟩ 9999 (some [0x61]) 1 mountedVolume with
  | mk r v' =>
      cases r with
      | ok n =>
          obtain ⟨v₁, ha, hins⟩ := catalogMake_ok hr hrun
          have hin := hins.opens.inTable
          rw [ha.moved.carry.shape.totalInodes] at hin
          exact absurd hin (Nat.not_lt.mpr htable)
      | error e => exact ⟨e, v', rfl, failed_creation_untraced hr (.inl rfl) .create hrun⟩

end OwStorage.Owfs
