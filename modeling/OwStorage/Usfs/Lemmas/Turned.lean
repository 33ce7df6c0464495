import OwStorage.Usfs.Lemmas.File
import OwStorage.Usfs.Lemmas.Extent

/-!
# 表だけを見た働き

項目の表と項目の数だけを見る。失敗のない装置の上では、どの操作も、表を変えないか、一つの記録だけを書き換える。ビットマップが
データ領域を覆うことも、並びが重ならないことも仮定しない。
-/

namespace OwStorage.Usfs

open Lib Prog

/-- 表のブロックと項目の数に触れない変化。 -/
structure Spared (v v' : Vol) : Prop where
  shape : ∃ n, v'.sb = { v.sb with freeBlocks := n }
  config : v'.dev.toHtlConfig = v.dev.toHtlConfig
  disk : ∀ b ∈ v.sb.tableRegion, v'.dev.disk b = v.dev.disk b

instance : IsPreorder Vol Spared where
  refl v := ⟨⟨v.sb.freeBlocks, rfl⟩, rfl, fun _ _ => rfl⟩
  trans := by
    rintro v v₁ v₂ ⟨⟨n, hsb⟩, hconfig, hdisk⟩ ⟨⟨n', hsb'⟩, hconfig', hdisk'⟩
    refine ⟨⟨n', by rw [hsb', hsb]⟩, hconfig'.trans hconfig, fun b hb => ?_⟩
    rw [hdisk' b (by rw [hsb]; exact hb), hdisk b hb]

/-- 表と項目の数が、`t` と `k` になった。 -/
structure Turned (v v' : Vol) (t : UInt32 → Entry) (k : UInt32) : Prop where
  shape : SameShape v.sb v'.sb
  config : v'.dev.toHtlConfig = v.dev.toHtlConfig
  table : (viewOf v').table = t
  used : v'.sb.usedEntries = k

section

variable {v v' v'' : Vol} {t t' : UInt32 → Entry} {k k' : UInt32}

theorem Still.spared (h : Still v v') : Spared v v' := by
  obtain ⟨c, rfl⟩ := h
  exact ⟨⟨v.sb.freeBlocks, rfl⟩, rfl, fun _ _ => rfl⟩

theorem Spared.sameShape (h : Spared v v') : SameShape v.sb v'.sb := by
  obtain ⟨n, hsb⟩ := h.shape
  exact ⟨n, v.sb.usedEntries, hsb⟩

theorem Spared.turned (h : Spared v v') (hp : Placed v.sb) : Turned v v' (viewOf v).table v.sb.usedEntries := by
  obtain ⟨n, hsb⟩ := h.shape
  refine ⟨h.sameShape, h.config, ?_, by rw [hsb]⟩
  change tableView v'.dev.disk v'.sb = tableView v.dev.disk v.sb
  rw [h.sameShape.tableView]
  funext idx
  unfold tableView
  split
  · rename_i hi
    unfold entryAt
    rw [h.disk _ (hp.tableFits.blockOffset_mem hi)]
  · rfl

theorem Turned.refl (v : Vol) : Turned v v (viewOf v).table v.sb.usedEntries := ⟨.refl v.sb, rfl, rfl, rfl⟩

theorem Turned.trans (h : Turned v v' t k) (h' : Turned v' v'' t' k') : Turned v v'' t' k' :=
  ⟨h.shape.trans h'.shape, h'.config.trans h.config, h'.table, h'.used⟩

theorem Turned.of_atClock {c : Nat} (h : Turned (v.atClock c) v' t k) : Turned v v' t k :=
  ⟨h.shape, h.config, h.table, h.used⟩

theorem SameShape.placed {sb sb' : Superblock} (h : SameShape sb sb') (hp : Placed sb) : Placed sb' := by
  obtain ⟨_, _, rfl⟩ := h
  exact ⟨hp.tableAfter, hp.bitmapAfter, hp.dataAfter, hp.entriesFit⟩

theorem Turned.stable (h : Turned v v' t k) (hr : Stable v) : Stable v' := by
  refine ⟨h.shape.placed hr.placed, ?_, ?_⟩
  · unfold HtlConfig.FaultFree
    rw [h.config]
    exact hr.faultFree
  · rw [h.config]
    exact h.shape.serves hr.serves

theorem Spared.stable (h : Spared v v') (hr : Stable v) : Stable v' := (h.turned hr.placed).stable hr

theorem Recorded.turned {idx : UInt32} {e : Entry} (h : Recorded v v' idx e) :
    Turned v v' (Function.update (viewOf v).table idx e) v.sb.usedEntries := by
  have hshape : SameShape v.sb v'.sb := h.sb ▸ SameShape.refl _
  refine ⟨hshape, h.dev.config, ?_, by rw [h.sb]⟩
  change tableView v'.dev.disk v'.sb = _
  rw [hshape.tableView]
  funext j
  by_cases hj : j.toNat < v.sb.totalEntries.toNat
  · rw [tableView_eq hj, h.table j hj]
    by_cases hji : j = idx
    · rw [if_pos hji, hji, Function.update_self]
    · rw [if_neg hji, Function.update_of_ne hji]
      exact (tableView_eq hj).symm
  · have hji : j ≠ idx := by
      rintro rfl
      exact hj h.inTable
    rw [Function.update_of_ne hji]
    change tableView v'.dev.disk v.sb j = tableView v.dev.disk v.sb j
    unfold tableView
    rw [if_neg hj, if_neg hj]

end

/-! ## 表に触れない操作 -/

section

variable {v : Vol}

theorem spared_writeBlk {b : UInt32} (hb : b ∉ v.sb.tableRegion) (blk : Block) :
    wp (writeBlk b blk) (fun _ v' => Spared v v') (fun _ v' => Spared v v') v := by
  refine wp_writeBlk (fun c _ => ⟨⟨v.sb.freeBlocks, rfl⟩, rfl, fun x hx => ?_⟩) (fun _ c _ _ => Still.spared ⟨c, rfl⟩)
  rw [dev_put, HtlDevice.disk_atClock, HtlDevice.disk_store, Function.update_of_ne]
  rintro rfl
  exact hb hx

variable (hp : Placed v.sb)
include hp

theorem spared_markRun {rs count : UInt32} (hfit : rs.toNat + count.toNat ≤ v.sb.dataCount) (hpos : 0 < count.toNat)
    (used : Bool) : wp (markRun rs count used) (fun _ v' => Spared v v') (fun _ v' => Spared v v') v := by
  have htot := v.sb.totalBlocks.toNat_lt
  have hcount : v.sb.dataCount = v.sb.totalBlocks.toNat - v.sb.dataRegionStart.toNat := rfl
  have hout : ∀ b ∈ v.sb.tableRegion, b ∉ v.sb.bitBlocks rs.toNat count.toNat := by
    rintro _ ⟨_, hhigh⟩ ⟨r, _, hr, rfl⟩
    have htable := hp.bitmapAfter
    have hdata := hp.dataAfter
    unfold Superblock.bitmapBlockOf at hhigh
    rw [toNat_add_lt (by rw [toNat_ofNat_lt (by omega)]; omega), toNat_ofNat_lt (by omega)] at hhigh
    omega
  have hspared : ∀ v', v'.sb = v.sb ∧ v.dev.Evolves (v.sb.bitBlocks rs.toNat count.toNat) v'.dev → Spared v v' :=
    fun v' h => ⟨⟨v.sb.freeBlocks, by rw [h.1]⟩, h.2.config, fun x hx => h.2.disk x (hout x hx)⟩
  exact (markRun_confined used hpos (by omega)).mono (fun _ v' h => hspared v' h) (fun _ v' h => hspared v' h)

theorem spared_blockFree (first count : UInt32) :
    wp (blockFree first count) (fun _ v' => Spared v v') (fun _ v' => Spared v v') v := by
  have hself : Spared v v := refl_of Spared v
  unfold blockFree
  simp only [wp_bind, wp_get, wp_ite, wp_failIf, wp_ofExcept]
  refine ⟨fun _ => hself, fun hne => ⟨fun _ => hself, fun hin => ⟨fun _ _ => ?_, fun _ _ => hself⟩⟩⟩
  rw [not_or, UInt32.not_lt, UInt32.le_iff_toNat_le, Nat.not_lt] at hin
  have hpos : 0 < count.toNat := Nat.pos_of_ne_zero fun hz => hne (UInt32.toNat_inj.mp hz)
  have hrel : (first - v.sb.dataRegionStart).toNat = first.toNat - v.sb.dataRegionStart.toNat := toNat_sub_le hin.1
  have hfit : (first - v.sb.dataRegionStart).toNat + count.toNat ≤ v.sb.dataCount := by
    unfold Superblock.dataCount
    omega
  refine (spared_markRun hp hfit hpos false).mono ?_ (fun _ _ h => h)
  intro _ v₁ h
  rw [wp_modifySb]
  obtain ⟨n, hsb⟩ := h.shape
  exact ⟨⟨v₁.sb.freeBlocks + count, by rw [hsb]⟩, h.config, h.disk⟩

theorem spared_blockAlloc (count : UInt32) :
    wp (blockAlloc count) (fun b v' => v.sb.InRange b count ∧ Spared v v') (fun _ v' => Spared v v') v := by
  have hself : Spared v v := refl_of Spared v
  have hspared : wp (blockAlloc count) (fun _ v' => Spared v v') (fun _ v' => Spared v v') v := by
    unfold blockAlloc
    simp only [wp_bind, wp_get, wp_failIf, wp_ofExcept]
    refine ⟨fun _ => hself, fun hsome => ⟨fun _ => hself, fun hne => ⟨fun _ _ => ?_, fun _ _ => hself⟩⟩⟩
    rw [UInt32.not_le, UInt32.lt_iff_toNat_lt] at hne
    have hpos : 0 < count.toNat := Nat.pos_of_ne_zero fun hz => hsome (.inl (UInt32.toNat_inj.mp hz))
    refine (findRun_spec hpos hne.le).mono ?_ (fun _ _ h => h.1.spared)
    rintro s _ ⟨hfirst, rfl, _⟩
    refine (spared_markRun (v := v.atClock (v.dev.clock + readsAt (s.toNat + count.toNat))) hp hfirst.fits hpos
      true).mono ?_ (fun _ _ h => ⟨h.shape, h.config, h.disk⟩)
    intro _ v₁ h
    rw [wp_modifySb]
    obtain ⟨n, hsb⟩ := h.shape
    exact ⟨⟨v₁.sb.freeBlocks - count, by rw [hsb]; rfl⟩, h.config, h.disk⟩
  exact (blockAlloc_lands.and hspared).mono (fun _ _ h => ⟨h.1.1, h.2⟩) (fun _ _ h => h.2)

theorem Superblock.InRange.notMem_table {first count b : UInt32} (h : v.sb.InRange first count)
    (hlow : first.toNat ≤ b.toNat) (hhigh : b.toNat < first.toNat + count.toNat) : b ∉ v.sb.tableRegion := by
  have hstart := h.low
  have hend := h.high
  exact hp.data_not_table ⟨by omega, by omega⟩

theorem spared_allocCatalogBlock :
    wp allocCatalogBlock (fun b v' => v.sb.InRange b 1 ∧ Spared v v') (fun _ v' => Spared v v') v := by
  unfold allocCatalogBlock
  rw [wp_bind]
  refine (spared_blockAlloc hp 1).mono ?_ (fun _ _ h => h)
  rintro b v₁ ⟨hrange, h₁⟩
  have hout : b ∉ v₁.sb.tableRegion := by
    obtain ⟨n, hsb⟩ := h₁.shape
    rw [hsb]
    exact hrange.notMem_table hp (le_refl _) (Nat.lt_succ_self _)
  rw [wp_bind, wp_attempt]
  refine (spared_writeBlk hout _).mono (fun _ _ h => ⟨hrange, trans_of Spared h₁ h⟩) (fun e v₂ h => ?_)
  have h₂ : Spared v v₂ := trans_of Spared h₁ h
  change wp (Prog.attempt (blockFree b 1) >>= _) _ _ _
  rw [wp_bind, wp_attempt]
  exact (spared_blockFree (h₂.sameShape.placed hp) b 1).mono (fun _ _ h => trans_of Spared h₂ h)
    (fun _ _ h => trans_of Spared h₂ h)

end

/-! ## 項目の書き込みと割り当て -/

theorem entryWrite_stable {s : EntryState} (hr : Stable s.vol) (idx : UInt32) :
    wp (entryWrite idx)
      (fun _ s' => s'.entry = s.entry.sealed ∧
        Turned s.vol s'.vol (Function.update (viewOf s.vol).table idx s.entry.sealed) s.vol.sb.usedEntries)
      (fun e s' => Still s.vol s'.vol ∧
        ((e = .notFound ∧ ¬ idx.toNat < s.vol.sb.totalEntries.toNat) ∨ volumeWritable s.vol.sb = .error e)) s := by
  refine (entryWrite_spec hr.placed idx).mono ?_ ?_
  · rintro _ s' ⟨he, hrec⟩
    exact ⟨he, hrec.turned⟩
  · rintro e s' ⟨hstill, _, h | h | ⟨_, hno⟩⟩
    · exact ⟨hstill, .inl h⟩
    · exact ⟨hstill, .inr h⟩
    · exact absurd ⟨hr.faultFree, hr.serves⟩ hno

section

variable {v : Vol} (hr : Stable v) (hw : volumeWritable v.sb = .ok ()) {idx : UInt32}
  (hidx : idx.toNat < v.sb.totalEntries.toNat)
include hr hw hidx

/-- 門が開いていて番号が表の中にあれば、項目は必ず書ける。 -/
theorem entryWrite_turns (e : Entry) :
    wp (entryWrite idx)
      (fun _ s' => s'.entry = e.sealed ∧
        Turned v s'.vol (Function.update (viewOf v).table idx e.sealed) v.sb.usedEntries)
      (fun _ _ => False) ⟨v, e⟩ := by
  refine (entryWrite_stable (s := ⟨v, e⟩) hr idx).mono (fun _ _ h => h) ?_
  rintro err s' ⟨_, ⟨_, hno⟩ | hshut⟩
  · exact hno hidx
  · exact writable_unit hw err hshut

theorem storeFresh_turns (temp : Entry) :
    wp (storeFresh idx temp)
      (fun i v' => i = idx ∧ Turned v v' (Function.update (viewOf v).table idx temp.sealed) (v.sb.usedEntries + 1))
      (fun _ _ => False) v := by
  unfold storeFresh
  rw [wp_bind, wp_attempt, wp_withEntry]
  refine (entryWrite_turns hr hw hidx temp).mono ?_ (fun _ _ h => h.elim)
  rintro _ s' ⟨_, hturned⟩
  simp only [wp_bind, wp_modifySb, wp_pure]
  obtain ⟨n, k, hsb⟩ := hturned.shape
  refine ⟨trivial, ⟨n, k + 1, by rw [hsb]⟩, hturned.config, ?_, by rw [hturned.used]⟩
  rw [← hturned.table]
  rfl

end

/-- 表の上の、項目の割り当ての働き。 -/
structure Enrolled (v v' : Vol) (who : OwIdentity) (entryType : UInt8) (name : Option (List UInt8)) (nameLen : Nat)
    (parent idx : UInt32) : Prop where
  admissible : Admissible v who entryType name nameLen parent
  slot : FirstSlot v idx
  effect : ∃ mode first count, (0 < count.toNat → v.sb.InRange first count) ∧
    Turned v v' (Function.update (viewOf v).table idx
      (createdEntry who v.sb idx entryType mode name nameLen parent first count)) (v.sb.usedEntries + 1)

section

variable {v : Vol} (hr : Stable v) (hsum : Summed v)
include hr hsum

theorem entryAllocRest_turns {who : OwIdentity} {entryType : UInt8} {name : Option (List UInt8)} {nameLen : Nat}
    {parent : UInt32} (hadm : Admissible v who entryType name nameLen parent) {v₀ : Vol} (hstill : Still v v₀) :
    wp (entryAllocRest who v.sb entryType name nameLen parent)
      (fun idx v' => Enrolled v v' who entryType name nameLen parent idx)
      (fun _ v' => Turned v v' (viewOf v).table v.sb.usedEntries) v₀ := by
  obtain ⟨c, rfl⟩ := hstill
  unfold entryAllocRest
  simp only [wp_bind, wp_ofExcept]
  refine ⟨fun mode _ => ?_, fun e he => absurd he (defaultModeFor_admissible hadm.type e)⟩
  refine (findSlot_stable (Still.stable ⟨c, rfl⟩ hr) hsum).mono ?_
    (fun _ _ h => (trans_of Still ⟨c, rfl⟩ h.2.1).spared.turned hr.placed)
  rintro idx _ ⟨hslot, c', rfl⟩
  have hr₁ : Stable (v.atClock c') := Still.stable ⟨c', rfl⟩ hr
  have hslot : FirstSlot v idx := ⟨hslot.inTable, hslot.vacant, hslot.before⟩
  rw [wp_ite]
  refine ⟨fun _ => ?_, fun _ => ?_⟩
  · rw [wp_bind]
    refine (spared_allocCatalogBlock hr₁.placed).mono ?_ (fun _ _ h => (h.turned hr₁.placed).of_atClock)
    rintro b v₂ ⟨hrange, hspared⟩
    have hkept := hspared.turned hr₁.placed
    have hw₂ : volumeWritable v₂.sb = .ok () := hkept.shape.writable.trans hadm.writable
    have hidx₂ : idx.toNat < v₂.sb.totalEntries.toNat := by
      rw [hkept.shape.totalEntries]
      exact hslot.inTable
    refine (storeFresh_turns (hspared.stable hr₁) hw₂ hidx₂ _).mono ?_ (fun _ _ h => h.elim)
    rintro _ v' ⟨rfl, hstore⟩
    have hall := (hkept.trans hstore).of_atClock
    rw [hkept.table, hkept.used] at hall
    exact ⟨hadm, hslot, mode, b, 1, fun _ => hrange, hall⟩
  · refine (storeFresh_turns hr₁ hadm.writable hslot.inTable _).mono ?_ (fun _ _ h => h.elim)
    rintro _ v' ⟨rfl, hstore⟩
    exact ⟨hadm, hslot, mode, 0, 0, fun h => absurd h (Nat.lt_irrefl 0), hstore.of_atClock⟩

theorem entryAlloc_turns (who : OwIdentity) (entryType : UInt8) (name : Option (List UInt8)) (nameLen : Nat)
    (parent : UInt32) :
    wp (entryAlloc who entryType name nameLen parent)
      (fun idx v' => Enrolled v v' who entryType name nameLen parent idx)
      (fun _ v' => Turned v v' (viewOf v).table v.sb.usedEntries) v :=
  entryAlloc_gate hr hsum (fun hadm _ h => entryAllocRest_turns hr hsum hadm h) fun _ _ _ h => h.spared.turned hr.placed

theorem entryFree_turns (who : OwIdentity) (idx : UInt32) :
    wp (entryFree who idx)
      (fun _ v' => Erasable v who idx ∧
        Turned v v' (Function.update (viewOf v).table idx (clearedEntry ((viewOf v).table idx)).sealed)
          (if v.sb.usedEntries > 0 then v.sb.usedEntries - 1 else v.sb.usedEntries))
      (fun _ v' => Turned v v' (viewOf v).table v.sb.usedEntries) v := by
  refine entryFree_gate hr (hsum idx) ?_ fun _ _ _ h => h.spared.turned hr.placed
  rintro hpass _ ⟨c, rfl⟩
  have hr₁ : Stable (v.atClock c) := Still.stable ⟨c, rfl⟩ hr
  have hfinish : ∀ v₁, Spared v v₁ →
      wp (do
          let _ ← withEntry (clearedEntry ((viewOf v).table idx)) (entryWrite idx)
          modifySb fun sb => if sb.usedEntries > 0 then { sb with usedEntries := sb.usedEntries - 1 } else sb)
        (fun _ v' => Erasable v who idx ∧
          Turned v v' (Function.update (viewOf v).table idx (clearedEntry ((viewOf v).table idx)).sealed)
            (if v.sb.usedEntries > 0 then v.sb.usedEntries - 1 else v.sb.usedEntries))
        (fun _ v' => Turned v v' (viewOf v).table v.sb.usedEntries) v₁ := by
    intro v₁ h₁
    have hkept := h₁.turned hr.placed
    have hidx₁ : idx.toNat < v₁.sb.totalEntries.toNat := by
      rw [hkept.shape.totalEntries]
      exact hpass.inTable
    rw [wp_bind, wp_withEntry]
    refine (entryWrite_turns (h₁.stable hr) (hkept.shape.writable.trans hpass.writable) hidx₁ _).mono ?_
      (fun _ _ h => h.elim)
    rintro _ s' ⟨_, hwrite⟩
    have hall := hkept.trans hwrite
    rw [hkept.table, hkept.used] at hall
    rw [wp_modifySb]
    obtain ⟨n, k, hsb⟩ := hall.shape
    have hused := hall.used
    refine ⟨hpass, ?_, hall.config, ?_, ?_⟩
    · split
      · exact ⟨n, k - 1, by rw [hsb]⟩
      · exact ⟨n, k, hsb⟩
    · rw [← hall.table]
      split <;> rfl
    · rw [hused]
      split <;> rename_i hpos
      · rfl
      · exact hused
  unfold entryFreeRest
  rw [wp_bind, wp_whenever]
  refine ⟨fun _ => ?_, fun _ => hfinish _ (Still.spared ⟨c, rfl⟩)⟩
  exact (spared_blockFree hr₁.placed _ _).mono (fun _ v₁ h => hfinish v₁ ⟨h.shape, h.config, h.disk⟩)
    (fun _ _ h => (h.turned hr₁.placed).of_atClock)

end

/-! ## 書き込みと切り詰め -/

/-- 種類と名前と場所は同じで、並びと大きさだけが違う記録。 -/
structure Entry.Reshaped (e e' : Entry) : Prop where
  entryType : e'.entryType = e.entryType
  nameLength : e'.nameLength = e.nameLength
  name : e'.name = e.name
  parentEntry : e'.parentEntry = e.parentEntry

/-- 表を変えないか、項目 `idx` の並びと大きさだけを書き直した。 -/
def Edited (v v' : Vol) (idx : UInt32) (e : Entry) : Prop :=
  Turned v v' (viewOf v).table v.sb.usedEntries ∨
    ∃ e', e.Reshaped e' ∧ v.sb.Houses e' ∧ entryVerifyChecksum e' = true ∧
      Turned v v' (Function.update (viewOf v).table idx e') v.sb.usedEntries

section

variable {v : Vol} (hp : Placed v.sb)
include hp

theorem spared_orRelease {first count : UInt32} {p : UsfsM Unit}
    (h : wp p (fun _ v' => Spared v v') (fun _ v' => Spared v v') v) :
    wp (orRelease first count p) (fun _ v' => Spared v v') (fun _ v' => Spared v v') v := by
  unfold orRelease
  rw [wp_bind, wp_attempt]
  refine h.mono (fun _ _ h => h) (fun err v₁ h₁ => ?_)
  change wp (Prog.attempt (blockFree first count) >>= _) _ _ _
  rw [wp_bind, wp_attempt]
  exact (spared_blockFree (h₁.sameShape.placed hp) first count).mono (fun _ _ h => trans_of Spared h₁ h)
    (fun _ _ h => trans_of Spared h₁ h)

theorem spared_copyBlock {sb : Superblock} {e : Entry} {oldFirst first need : UInt32} {i : Nat}
    (hrange : v.sb.InRange first need) (hi : i < need.toNat) :
    wp (copyBlock sb e oldFirst first (UInt32.ofNat i)) (fun _ v' => Spared v v') (fun _ v' => Spared v v') v := by
  have hhigh := hrange.high
  have htot := v.sb.totalBlocks.toNat_lt
  have hat : (first + UInt32.ofNat i).toNat = first.toNat + i := by
    rw [toNat_add_lt (by rw [toNat_ofNat_lt (by omega)]; omega), toNat_ofNat_lt (by omega)]
  unfold copyBlock
  rw [wp_bind]
  refine (still_readBlk _ v).mono ?_ (fun _ _ hs => hs.spared)
  rintro buf _ ⟨c, rfl⟩
  have hout : first + UInt32.ofNat i ∉ v.sb.tableRegion := hrange.notMem_table hp (by omega) (by omega)
  exact (spared_writeBlk (v := v.atClock c) hout _).mono (fun _ _ h => ⟨h.shape, h.config, h.disk⟩)
    (fun _ _ h => ⟨h.shape, h.config, h.disk⟩)

end

section

variable {v : Vol} {e : Entry} {idx : UInt32} (hr : Stable v) (hidx : idx.toNat < v.sb.totalEntries.toNat)
include hr hidx

theorem growFile_turns (hw : volumeWritable v.sb = .ok ()) (need : UInt32) :
    wp (growFile idx need)
      (fun _ s' => (need.toNat ≤ e.blockCount.toNat ∧ s' = ⟨v, e⟩) ∨
        ∃ first, v.sb.InRange first need ∧ s'.entry = (e.moved first need).sealed ∧
          Turned v s'.vol (Function.update (viewOf v).table idx s'.entry) v.sb.usedEntries)
      (fun _ s' => Turned v s'.vol (viewOf v).table v.sb.usedEntries) ⟨v, e⟩ := by
  unfold growFile
  rw [wp_bind, wp_get, wp_ite]
  refine ⟨fun hge => .inl ⟨UInt32.le_iff_toNat_le.mp hge, rfl⟩, fun hlt => ?_⟩
  have hshort : e.blockCount.toNat < need.toNat := by
    rw [ge_iff_le, UInt32.not_le] at hlt
    exact UInt32.lt_iff_toNat_lt.mp hlt
  rw [wp_bind, wp_onVol]
  refine (spared_blockAlloc hr.placed need).mono ?_ (fun _ _ h => h.turned hr.placed)
  rintro first v₁ ⟨hrange, h₁⟩
  simp only [wp_bind, wp_get]
  refine wp_forUpto (fun _ s' => s'.entry = e ∧ Spared v s'.vol) ⟨rfl, h₁⟩ ?_ ?_
  · rintro i ⟨v₂, e₂⟩ hi ⟨he, h₂⟩
    change e₂ = e at he
    subst he
    rw [wp_onVol]
    have hp₂ : Placed v₂.sb := h₂.sameShape.placed hr.placed
    refine (spared_orRelease hp₂ (spared_copyBlock hp₂ (h₂.sameShape.inRange.mpr hrange) (by omega))).mono
      (fun _ _ h => ⟨rfl, trans_of Spared h₂ h⟩) (fun _ _ h => ?_)
    have hall : Spared v _ := trans_of Spared h₂ h
    exact hall.turned hr.placed
  rintro ⟨v₂, e₂⟩ ⟨he, h₂⟩
  change e₂ = e at he
  subst he
  have hfinish : ∀ v₃, Spared v v₃ →
      wp (entryWrite idx)
        (fun _ s' => (need.toNat ≤ e₂.blockCount.toNat ∧ s' = ⟨v, e₂⟩) ∨
          ∃ first, v.sb.InRange first need ∧ s'.entry = (e₂.moved first need).sealed ∧
            Turned v s'.vol (Function.update (viewOf v).table idx s'.entry) v.sb.usedEntries)
        (fun _ s' => Turned v s'.vol (viewOf v).table v.sb.usedEntries) ⟨v₃, e₂.moved first need⟩ := by
    intro v₃ h₃
    have hkept := h₃.turned hr.placed
    have hidx₃ : idx.toNat < v₃.sb.totalEntries.toNat := by
      rw [hkept.shape.totalEntries]
      exact hidx
    refine (entryWrite_turns (h₃.stable hr) (hkept.shape.writable.trans hw) hidx₃ _).mono ?_ (fun _ _ h => h.elim)
    rintro _ s' ⟨he, hwrite⟩
    have hall := hkept.trans hwrite
    rw [hkept.table, hkept.used, ← he] at hall
    exact .inr ⟨first, hrange, he, hall⟩
  rw [wp_whenever]
  refine ⟨fun _ => ?_, fun _ => hfinish v₂ h₂⟩
  rw [wp_onVol]
  have hp₂ : Placed v₂.sb := h₂.sameShape.placed hr.placed
  refine (spared_orRelease hp₂ (spared_blockFree hp₂ _ _)).mono (fun _ v₃ h => hfinish v₃ (trans_of Spared h₂ h))
    (fun _ _ h => ?_)
  have hall : Spared v _ := trans_of Spared h₂ h
  exact hall.turned hr.placed

end

/-- 並びを用意し終えた所。表は記録 `idx` だけが変わっていてよく、項目の並びはデータ領域に収まる。 -/
structure Prepared (v v₁ : Vol) (idx : UInt32) (e e₁ : Entry) (need : UInt32) : Prop where
  reshaped : e.Reshaped e₁
  houses : v.sb.Houses e₁
  enough : need.toNat ≤ e₁.blockCount.toNat
  edited : Edited v v₁ idx e

section

variable {v v₁ v' : Vol} {e e' : Entry} {idx : UInt32}

theorem Entry.Reshaped.refl (e : Entry) : e.Reshaped e := ⟨rfl, rfl, rfl, rfl⟩

theorem Edited.shape (h : Edited v v₁ idx e) : SameShape v.sb v₁.sb := by
  rcases h with h | ⟨_, _, _, _, h⟩
  · exact h.shape
  · exact h.shape

theorem Edited.stable (h : Edited v v₁ idx e) (hr : Stable v) : Stable v₁ := by
  rcases h with h | ⟨_, _, _, _, h⟩
  · exact h.stable hr
  · exact h.stable hr

theorem Edited.spared (h : Edited v v₁ idx e) (hr : Stable v) (hs : Spared v₁ v') : Edited v v' idx e := by
  have hkept := hs.turned (h.stable hr).placed
  rcases h with h | ⟨e', hsame, hhouse, hsum, h⟩
  · have hall := h.trans hkept
    rw [h.table, h.used] at hall
    exact .inl hall
  · have hall := h.trans hkept
    rw [h.table, h.used] at hall
    exact .inr ⟨e', hsame, hhouse, hsum, hall⟩

theorem Edited.rewrite (h : Edited v v₁ idx e) (hsame : e.Reshaped e') (hhouse : v.sb.Houses e')
    (hw : Turned v₁ v' (Function.update (viewOf v₁).table idx e'.sealed) v₁.sb.usedEntries) : Edited v v' idx e := by
  refine .inr ⟨e'.sealed, ⟨hsame.entryType, hsame.nameLength, hsame.name, hsame.parentEntry⟩, hhouse,
    verify_sealed e', ?_⟩
  rcases h with h | ⟨e₁, _, _, _, h⟩
  · have hall := h.trans hw
    rwa [h.table, h.used] at hall
  · have hall := h.trans hw
    rwa [h.table, h.used, Function.update_idem] at hall

theorem spared_of_evolves (hp : Placed v.sb) (hsb : v'.sb = v.sb) (hdev : v.dev.Evolves e.run v'.dev)
    (hh : v.sb.Houses e) :
    Spared v v' := by
  refine ⟨⟨v.sb.freeBlocks, hsb⟩, hdev.config, fun b hb => hdev.disk b fun hin => ?_⟩
  exact hp.data_not_table (hh.isData hin) hb

variable (hr : Stable v) (hidx : idx.toNat < v.sb.totalEntries.toNat) (hh : v.sb.Houses e)
include hr hidx hh

theorem growFile_prepares (hw : volumeWritable v.sb = .ok ()) (need : UInt32) :
    wp (growFile idx need) (fun _ s' => Prepared v s'.vol idx e s'.entry need)
      (fun _ s' => Edited v s'.vol idx e) ⟨v, e⟩ := by
  refine (growFile_turns hr hidx hw need).mono ?_ (fun _ _ h => .inl h)
  rintro _ ⟨v₁, e₁⟩ (⟨hle, heq⟩ | ⟨first, hrange, he, hturned⟩)
  · cases heq
    exact ⟨.refl e, hh, hle, .inl (.refl v)⟩
  · change e₁ = _ at he
    subst he
    have hsame : e.Reshaped (e.moved first need).sealed := ⟨rfl, rfl, rfl, rfl⟩
    have hhouse : v.sb.Houses (e.moved first need).sealed := fun _ => hrange
    exact ⟨hsame, hhouse, le_refl _, .inr ⟨_, hsame, hhouse, verify_sealed _, hturned⟩⟩

omit hh in
theorem resize_turns (hw : volumeWritable v.sb = .ok ()) {e₁ : Entry} {need : UInt32} (h : Prepared v v₁ idx e e₁ need)
    (hs : Spared v₁ v') (size : UInt32) :
    wp (entryWrite idx) (fun _ s' => Edited v s'.vol idx e) (fun _ s' => Edited v s'.vol idx e)
      ⟨v', { e₁ with sizeBytes := size }⟩ := by
  have hedit : Edited v v' idx e := h.edited.spared hr hs
  have hidx' : idx.toNat < v'.sb.totalEntries.toNat := by
    rw [hedit.shape.totalEntries]
    exact hidx
  refine (entryWrite_turns (hedit.stable hr) (hedit.shape.writable.trans hw) hidx' _).mono ?_ (fun _ _ h => h.elim)
  rintro _ s' ⟨_, hwrite⟩
  have hsame : e.Reshaped { e₁ with sizeBytes := size } :=
    ⟨h.reshaped.entryType, h.reshaped.nameLength, h.reshaped.name, h.reshaped.parentEntry⟩
  exact hedit.rewrite hsame h.houses hwrite

/-- 書き込みは、途中で終わっても、項目 `idx` の並びと大きさのほかは表を変えない。 -/
theorem fileWrite_edits (who : OwIdentity) {buf : List UInt8} {offset len : UInt32} (hbuf : len.toNat ≤ buf.length) :
    wp (fileWrite who idx buf offset len) (fun _ s' => Edited v s'.vol idx e)
      (fun _ s' => Edited v s'.vol idx e) ⟨v, e⟩ := by
  have hself : Edited v v idx e := .inl (.refl v)
  have hoff := offset.toNat_lt
  have hlen := len.toNat_lt
  unfold fileWrite
  simp only [wp_bind, wp_get, wp_failIf, wp_ofExcept, wp_ite]
  refine ⟨fun _ => hself, fun _ => ⟨fun _ hw => ⟨fun _ => hself, fun _ => ⟨fun _ _ => ⟨fun _ => hself, fun _ => ?_⟩,
    fun _ _ => hself⟩⟩, fun _ _ => hself⟩⟩
  refine (growFile_prepares hr hidx hh hw _).mono ?_ (fun _ _ h => h)
  rintro _ ⟨v₁, e₁⟩ hprep
  have hhouse : v₁.sb.Houses e₁ := hprep.edited.shape.houses.mpr hprep.houses
  have hp₁ := (hprep.edited.stable hr).placed
  have hneed : offset.toNat + len.toNat ≤ _ := le_blocksFor (by omega)
  rw [wp_onVol]
  refine (writeLoop_spec hhouse.straight hbuf (hneed.trans (Nat.mul_le_mul_right 4096 hprep.enough))).mono ?_ ?_
  · rintro _ v₂ ⟨rfl, hwrote⟩
    exact resize_turns hr hidx hw hprep (spared_of_evolves hp₁ hwrote.sb hwrote.dev hhouse) _
  · rintro err v₂ ⟨hsb, hdev, _⟩
    exact hprep.edited.spared hr (spared_of_evolves hp₁ hsb hdev hhouse)

theorem fileTruncate_edits (who : OwIdentity) (size : UInt32) :
    wp (fileTruncate who idx size) (fun _ s' => Edited v s'.vol idx e) (fun _ s' => Edited v s'.vol idx e) ⟨v, e⟩ := by
  have hself : Edited v v idx e := .inl (.refl v)
  have hstart : Prepared v v idx e e 0 := ⟨.refl e, hh, Nat.zero_le _, hself⟩
  unfold fileTruncate
  simp only [keep_eq_blocksFor, wp_bind, wp_get, wp_failIf, wp_ofExcept, wp_ite]
  refine ⟨fun _ => hself, fun _ => ⟨fun _ hw => ⟨fun _ => hself, fun _ => ⟨fun _ _ => ⟨fun _ => hself, fun _ => ?_⟩,
    fun _ _ => hself⟩⟩, fun _ _ => hself⟩⟩
  refine ⟨fun _ => ?_, fun _ => ?_⟩
  · refine (growFile_prepares hr hidx hh hw _).mono ?_ (fun _ _ h => h)
    rintro _ ⟨v₁, e₁⟩ hprep
    exact resize_turns hr hidx hw hprep (refl_of Spared v₁) _
  · rw [wp_whenever, wp_bind]
    refine ⟨fun hcut => ?_, fun _ => resize_turns hr hidx hw hstart (refl_of Spared v) _⟩
    rw [keep_eq_blocksFor] at hcut
    rw [wp_onVol]
    refine (spared_blockFree hr.placed _ _).mono ?_ (fun _ _ h => hself.spared hr h)
    intro _ v₁ hs
    have hcut := UInt32.lt_iff_toNat_lt.mp hcut
    have hless : Prepared v v idx e { e with blockCount := blocksFor size.toNat } 0 := by
      refine ⟨⟨rfl, rfl, rfl, rfl⟩, fun hpos => ?_, Nat.zero_le _, hself⟩
      have hrange := hh (by omega)
      have hhigh := hrange.high
      exact ⟨hpos, hrange.low, by change e.firstBlock.toNat + (blocksFor size.toNat).toNat ≤ _; omega⟩
    exact resize_turns hr hidx hw hless hs size

end

end OwStorage.Usfs
