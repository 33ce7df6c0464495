import OwStorage.Usfs.Lemmas.View

/-!
# 項目の割り当てと解放

失敗のない装置の上での働きを、見かけの変化として述べる。
-/

namespace OwStorage.Usfs

open Lib Prog

/-- 割り当てに使えるスロット。 -/
def Entry.Vacant (e : Entry) : Prop := e.entryType = 0 ∨ e.entryType &&& entryDeleted ≠ 0

/-- 生きている項目。 -/
def Entry.Live (e : Entry) : Prop := e.entryType ≠ 0 ∧ e.entryType &&& entryDeleted = 0

theorem Entry.live_iff {e : Entry} : e.Live ↔ ¬ e.Vacant := by
  unfold Live Vacant
  rw [not_or, not_not]

/-- 空でない記録の検査値はどれも合う。 -/
def Summed (v : Vol) : Prop :=
  ∀ idx, ((viewOf v).table idx).entryType ≠ 0 → entryVerifyChecksum ((viewOf v).table idx) = true

section

variable {v : Vol} (hr : Ready v)
include hr

/-! ## 基本の操作 -/

omit hr in
theorem firstFit_iff {len s : Nat} :
    FirstFit (bitOf v.dev.disk v.sb) v.sb.dataCount len s ↔ FirstFit (viewOf v).used v.sb.dataCount len s := by
  exact FirstFit.congr fun r h => (bitsView_eq h).symm

theorem blockAlloc_ready (count : UInt32) :
    wp (blockAlloc count)
      (fun b v' => ∃ s, FirstFit (viewOf v).used v.sb.dataCount count.toNat s ∧ 0 < count.toNat ∧
        count.toNat ≤ v.sb.freeBlocks.toNat ∧ b.toNat = v.sb.dataRegionStart.toNat + s ∧
        Becomes ∅ v v' { viewOf v with
          used := fill (viewOf v).used s count.toNat true
          freeBlocks := v.sb.freeBlocks - count })
      (fun e v' => Still v v' ∧ (AllocRefused v.sb count e ∨
        (e = .noFreeBlocks ∧ ¬ ∃ s, FirstFit (viewOf v).used v.sb.dataCount count.toNat s))) v := by
  have hw := hr.serves.bitmap hr.layout
  refine (blockAlloc_spec hr.layout count hw.reads).mono ?_ ?_
  · rintro b v' ⟨hopen, s, hs, hb, hm, hsb, _⟩
    refine ⟨s, firstFit_iff.mp hs, count_pos_of_open hopen, ?_, hb, hm.becomes hr.layout hs.fits hsb⟩
    refine Nat.not_lt.mp fun hlt => hopen .noFreeBlocks (.inl ⟨rfl, .inr (.inl ?_)⟩)
    exact UInt32.lt_iff_toNat_lt.mpr hlt
  · rintro e v' ⟨_, ⟨hstill, hrefused | ⟨he, hno⟩ | ⟨_, q, hq, _⟩⟩ | ⟨_, hopen, s, i, hs, _, htorn⟩⟩
    · exact ⟨hstill, .inl hrefused⟩
    · exact ⟨hstill, .inr ⟨he, fun ⟨s, hs⟩ => hno ⟨s, firstFit_iff.mpr hs⟩⟩⟩
    · exact absurd (hr.faultFree _) hq
    · have hfits := hs.fits
      have hpos := count_pos_of_open hopen
      exact absurd ⟨fun k _ => hr.faultFree _, hw.unprotected hr.layout (by omega)⟩ htorn.cut

theorem blockFree_ready (first count : UInt32) :
    wp (blockFree first count)
      (fun _ v' => (count = 0 ∧ v' = v) ∨ (v.sb.InRange first count ∧
        Becomes ∅ v v' { viewOf v with
          used := fill (viewOf v).used (v.sb.relOf first) count.toNat false
          freeBlocks := v.sb.freeBlocks + count }))
      (fun e v' => v' = v ∧ ((e = .invalidParam ∧ ¬ v.sb.InRange first count) ∨ volumeWritable v.sb = .error e)) v := by
  have hw := hr.serves.bitmap hr.layout
  refine (blockFree_spec hr.layout first count hw.reads).mono ?_ ?_
  · rintro _ v' (hz | ⟨hrange, _, hm, hsb, _⟩)
    · exact .inl hz
    · exact .inr ⟨hrange, hm.becomes hr.layout hrange.rel_le hsb⟩
  · rintro e v' ⟨_, h | ⟨_, hrange, _, i, htorn⟩⟩
    · exact h
    · have hfit := hrange.rel_le
      have hpos := hrange.pos
      exact absurd ⟨fun k _ => hr.faultFree _, hw.unprotected hr.layout (by omega)⟩ htorn.cut

end

section

variable {v : Vol} (hr : Stable v)
include hr

theorem entryRead_stable (idx : UInt32) :
    wp (entryRead idx)
      (fun e v' => idx.toNat < v.sb.totalEntries.toNat ∧ e = (viewOf v).table idx ∧
        (e.entryType ≠ 0 → entryVerifyChecksum e = true) ∧ Still v v')
      (fun e v' => Still v v' ∧
        ((e = .notFound ∧ ¬ idx.toNat < v.sb.totalEntries.toNat) ∨
          (e = .checksumMismatch ∧ ((viewOf v).table idx).entryType ≠ 0 ∧
            entryVerifyChecksum ((viewOf v).table idx) = false))) v := by
  refine (entryRead_spec hr.placed idx).mono ?_ ?_
  · rintro e v' ⟨hi, rfl, hsum, hstill⟩
    exact ⟨hi, (tableView_eq hi).symm, hsum, hstill⟩
  · rintro e v' ⟨hstill, h | ⟨he, hi, hbad⟩ | ⟨_, hno⟩⟩
    · exact ⟨hstill, .inl h⟩
    · refine ⟨hstill, .inr ⟨he, ?_⟩⟩
      rw [show (viewOf v).table idx = entryAt v.dev.disk v.sb idx from tableView_eq hi]
      exact hbad
    · exact absurd ⟨hr.faultFree, hr.serves⟩ hno

theorem wp_entryRead_summed {idx : UInt32}
    (hsum : ((viewOf v).table idx).entryType ≠ 0 → entryVerifyChecksum ((viewOf v).table idx) = true)
    {Q : Entry → Vol → Prop} {E : UsfsErr → Vol → Prop}
    (hok : idx.toNat < v.sb.totalEntries.toNat → ∀ v', Still v v' → Q ((viewOf v).table idx) v')
    (hout : ¬ idx.toNat < v.sb.totalEntries.toNat → ∀ v', Still v v' → E .notFound v') : wp (entryRead idx) Q E v := by
  refine (entryRead_stable hr idx).mono ?_ ?_
  · rintro e v' ⟨hi, rfl, _, hstill⟩
    exact hok hi v' hstill
  · rintro e v' ⟨hstill, ⟨rfl, hno⟩ | ⟨_, hlive, hbad⟩⟩
    · exact hout hno v' hstill
    · rw [hsum hlive] at hbad
      cases hbad

/-- 検査値の合う記録は読める。 -/
theorem entryRead_summed {idx : UInt32} (hidx : idx.toNat < v.sb.totalEntries.toNat)
    (hsum : entryVerifyChecksum ((viewOf v).table idx) = true) :
    ∃ v₀, entryRead idx v = (.ok ((viewOf v).table idx), v₀) := by
  have hrun : wp (entryRead idx) (fun e _ => e = (viewOf v).table idx) (fun _ _ => False) v :=
    wp_entryRead_summed hr (fun _ => hsum) (fun _ _ _ => rfl) fun hout _ _ => hout hidx
  obtain ⟨_, v₀, hread, rfl⟩ := hrun.exists_ok
  exact ⟨v₀, hread⟩

end

theorem entryWrite_ready {s : EntryState} (hr : Ready s.vol) (idx : UInt32) :
    wp (entryWrite idx)
      (fun _ s' => s'.entry = s.entry.sealed ∧ idx.toNat < s.vol.sb.totalEntries.toNat ∧
        Becomes ∅ s.vol s'.vol
          { viewOf s.vol with table := Function.update (viewOf s.vol).table idx s.entry.sealed })
      (fun e s' => Still s.vol s'.vol ∧
        ((e = .notFound ∧ ¬ idx.toNat < s.vol.sb.totalEntries.toNat) ∨ volumeWritable s.vol.sb = .error e)) s := by
  refine (entryWrite_spec hr.layout.placed idx).mono ?_ ?_
  · rintro _ s' ⟨he, hrec⟩
    exact ⟨he, hrec.inTable, hrec.becomes hr.layout⟩
  · rintro e s' ⟨hstill, _, h | h | ⟨_, hno⟩⟩
    · exact ⟨hstill, .inl h⟩
    · exact ⟨hstill, .inr h⟩
    · exact absurd ⟨hr.faultFree, hr.serves⟩ hno

/-! ## 項目の割り当て -/

/-- 最も前の空きスロット。 -/
structure FirstSlot (v : Vol) (idx : UInt32) : Prop where
  inTable : idx.toNat < v.sb.totalEntries.toNat
  vacant : ((viewOf v).table idx).Vacant
  before : ∀ j : UInt32, j.toNat < idx.toNat → ((viewOf v).table j).Live

section

variable {v : Vol} (hr : Stable v) (hsum : Summed v)
include hr hsum

theorem findSlot_stable :
    wp findSlot (fun idx v' => FirstSlot v idx ∧ Still v v')
      (fun e v' => e = .noFreeEntries ∧ Still v v' ∧
        ∀ j : UInt32, j.toNat < v.sb.totalEntries.toNat → ((viewOf v).table j).Live) v := by
  have htot := v.sb.totalEntries.toNat_lt
  unfold findSlot
  simp only [wp_bind, wp_get]
  refine wp_loop (fun i _ v' => Still v v' ∧ ∀ j : UInt32, j.toNat < i → ((viewOf v).table j).Live)
    ⟨refl_of Still v, fun j hj => absurd hj (Nat.not_lt_zero _)⟩ ?_ ?_
  · rintro i _ v₁ hi ⟨⟨c, rfl⟩, hbefore⟩
    have hidx : (UInt32.ofNat i).toNat = i := toNat_ofNat_lt (by omega)
    have hr₁ : Stable (v.atClock c) := Still.stable ⟨c, rfl⟩ hr
    rw [wp_bind, wp_attempt]
    refine wp_entryRead_summed hr₁ (hsum _) ?_ ?_
    · rintro hin _ ⟨c', rfl⟩
      change wp (if _ then _ else _) _ _ _
      rw [wp_ite]
      simp only [Bool.or_eq_true, beq_iff_eq, bne_iff_ne, wp_pure]
      refine ⟨fun hvac => ⟨⟨hin, hvac, ?_⟩, ⟨c', rfl⟩⟩, fun hlive => ⟨⟨c', rfl⟩, ?_⟩⟩
      · intro j hj
        rw [hidx] at hj
        exact hbefore j hj
      · intro j hj
        by_cases hji : j.toNat = i
        · rw [show j = UInt32.ofNat i from UInt32.toNat_inj.mp (hji.trans hidx.symm)]
          exact Entry.live_iff.mpr hlive
        · exact hbefore j (by omega)
    · intro hout
      rw [hidx] at hout
      exact absurd hi hout
  · rintro _ v₁ ⟨hstill, hall⟩
    exact ⟨rfl, hstill, hall⟩

end

theorem isData_of_fits {sb : Superblock} {b : UInt32} {s len : Nat}
    (hne : sb.dataRegionStart.toNat < sb.totalBlocks.toNat)
    (hb : b.toNat = sb.dataRegionStart.toNat + s) (hfit : s + len ≤ sb.dataCount) (hlen : 0 < len) : sb.IsData b := by
  unfold Superblock.dataCount at hfit
  exact ⟨by omega, by omega⟩

/-- カタログに渡すブロックがない訳。データ領域は装置に収まらないこともある。 -/
def NoCatalogBlock (v : Vol) : Prop :=
  v.sb.freeBlocks = 0 ∨ (¬ ∃ s, FirstFit (viewOf v).used v.sb.dataCount 1 s) ∨
    ∃ s b, FirstFit (viewOf v).used v.sb.dataCount 1 s ∧ b.toNat = v.sb.dataRegionStart.toNat + s ∧ ¬ v.dev.Writes b

section

variable {v : Vol} (hr : Ready v)
include hr

theorem release_ready {v₁ : Vol} {b count : UInt32} {s : Nat} {T : Set UInt32} {w : View}
    (hs : FirstFit (viewOf v).used v.sb.dataCount count.toNat s) (hpos : 0 < count.toNat)
    (hb : b.toNat = v.sb.dataRegionStart.toNat + s) (hw : volumeWritable v.sb = .ok ())
    (h : Becomes T v v₁ w) (hview : w = { viewOf v with
      used := fill (viewOf v).used s count.toNat true
      freeBlocks := v.sb.freeBlocks - count }) :
    wp (blockFree b count) (fun _ v' => Becomes T v v' (viewOf v)) (fun _ _ => False) v₁ := by
  have hfits := hs.fits
  have hrel : v₁.sb.relOf b = s := by
    unfold Superblock.relOf
    rw [h.shape.dataRegionStart]
    omega
  have hrange : v₁.sb.InRange b count := by
    unfold Superblock.dataCount at hfits
    refine ⟨hpos, ?_, ?_⟩
    · rw [h.shape.dataRegionStart]
      omega
    · rw [h.shape.totalBlocks]
      omega
  refine (blockFree_ready (h.ready hr) b count).mono ?_ ?_
  · rintro _ v' (⟨hz, _⟩ | ⟨_, hfree⟩)
    · rw [hz] at hpos
      exact absurd hpos (Nat.lt_irrefl 0)
    · have hall := h.trans hfree
      have hcount : v₁.sb.freeBlocks = v.sb.freeBlocks - count :=
        (congrArg View.freeBlocks h.view).trans (by rw [hview])
      rw [h.view, hrel, hview, hcount, Set.union_empty] at hall
      have hback : fill (fill (viewOf v).used s count.toNat true) s count.toNat false = (viewOf v).used := by
        funext r
        unfold fill
        by_cases hin : s ≤ r ∧ r < s + count.toNat
        · rw [if_pos hin]
          have hvac := hs.vacant (r - s) (by omega)
          rw [show s + (r - s) = r by omega] at hvac
          exact hvac.symm
        · rw [if_neg hin, if_neg hin]
      simp only [hback, UInt32.sub_add_cancel] at hall
      exact hall
  · rintro e v' ⟨_, ⟨_, hno⟩ | hshut⟩
    · exact hno hrange
    · rw [h.shape.writable, hw] at hshut
      cases hshut

/-- カタログのブロックは、0 で埋めてから渡される。埋められなければ返される。 -/
theorem allocCatalogBlock_ready (hw : volumeWritable v.sb = .ok ()) :
    wp allocCatalogBlock
      (fun b v' => ∃ s, FirstFit (viewOf v).used v.sb.dataCount 1 s ∧ 1 ≤ v.sb.freeBlocks.toNat ∧
        b.toNat = v.sb.dataRegionStart.toNat + s ∧ v'.dev.disk b = Bytes.zero 4096 ∧
        Becomes {b} v v' { viewOf v with
          used := fill (viewOf v).used s 1 true
          freeBlocks := v.sb.freeBlocks - 1 })
      (fun _ v' => Becomes ∅ v v' (viewOf v) ∧ NoCatalogBlock v) v := by
  unfold allocCatalogBlock
  rw [wp_bind]
  refine (blockAlloc_ready hr 1).mono ?_ ?_
  rotate_left
  · rintro e v' ⟨hstill, hrefused | ⟨_, hno⟩⟩
    · refine ⟨.of_still hstill, ?_⟩
      rcases hrefused with ⟨_, hz | hshort | hempty⟩ | hshut
      · cases hz
      · have hlt := UInt32.lt_iff_toNat_lt.mp hshort
        exact .inl (UInt32.toNat_inj.mp (Nat.lt_one_iff.mp hlt))
      · exact absurd hr.nonempty (Nat.not_lt.mpr (UInt32.le_iff_toNat_le.mp hempty))
      · rw [hw] at hshut
        cases hshut
    · exact ⟨.of_still hstill, .inr (.inl hno)⟩
  rintro b v₁ ⟨s, hs, _, hfree, hb, hbecomes⟩
  have hr₁ := hbecomes.ready hr
  have hdata : v.sb.IsData b := isData_of_fits hr.nonempty hb hs.fits (by decide)
  have hdata₁ : v₁.sb.IsData b := hbecomes.shape.isData.mpr hdata
  rw [wp_bind, wp_attempt]
  refine wp_writeBlk (fun c _ => ?_) (fun e c _ hno => ?_)
  · refine ⟨s, hs, hfree, hb, Function.update_self _ _ _, ?_⟩
    have hzero : Becomes {b} v₁ (v₁.put b (Bytes.zero 4096) c) (viewOf v₁) := put_becomes hr₁.layout hdata₁
    have hput := hbecomes.trans hzero
    rw [hbecomes.view, Set.empty_union] at hput
    exact hput
  · change wp (Prog.attempt (blockFree b 1) >>= _) _ _ _
    rw [wp_bind, wp_attempt]
    have hclock : Becomes ∅ v (v₁.atClock c) _ := ⟨hbecomes.shape, hbecomes.config, hbecomes.view, hbecomes.data⟩
    refine (release_ready hr hs (by decide) hb hw hclock rfl).mono (fun _ _ h => ⟨h, ?_⟩) (fun _ _ h => h.elim)
    refine .inr (.inr ⟨s, b, hs, hb, fun hwrites => hno ⟨hr₁.faultFree, ?_⟩⟩)
    rw [hbecomes.config]
    exact hwrites

end

section

variable {v : Vol}

theorem writable_unit {sb : Superblock} {u : Unit} (h : volumeWritable sb = .ok u) (e : UsfsErr) :
    volumeWritable sb ≠ .error e := by
  rw [h]
  exact fun he => by cases he

/-- 門が開いていて番号が表の中にあれば、新しい項目は必ず書ける。 -/
theorem storeFresh_ready (hr : Ready v) (hw : volumeWritable v.sb = .ok ()) {idx : UInt32}
    (hidx : idx.toNat < v.sb.totalEntries.toNat) (temp : Entry) :
    wp (storeFresh idx temp)
      (fun i v' => i = idx ∧ Becomes ∅ v v' { viewOf v with
        table := Function.update (viewOf v).table idx temp.sealed
        usedEntries := v.sb.usedEntries + 1 })
      (fun _ _ => False) v := by
  unfold storeFresh
  rw [wp_bind, wp_attempt, wp_withEntry]
  refine (entryWrite_ready (s := ⟨v, temp⟩) hr idx).mono ?_ ?_
  · rintro _ s' ⟨_, _, hbecomes⟩
    simp only [wp_bind, wp_modifySb, wp_pure]
    refine ⟨trivial, ?_⟩
    have hcount := hbecomes.trans (usedEntries_becomes (T := ∅) (s'.vol.sb.usedEntries + 1))
    have hused : s'.vol.sb.usedEntries = v.sb.usedEntries := congrArg View.usedEntries hbecomes.view
    rw [hbecomes.view, Set.empty_union, hused] at hcount
    rw [hused]
    exact hcount
  · rintro e s' ⟨_, ⟨_, hno⟩ | hshut⟩
    · exact absurd hidx hno
    · exact absurd hshut (writable_unit hw e)

/-- 作られた項目の記録。 -/
def createdEntry (who : OwIdentity) (sb : Superblock) (idx : UInt32) (entryType : UInt8) (mode : UInt16)
    (name : Option (List UInt8)) (nameLen : Nat) (parent first count : UInt32) : Entry :=
  Entry.sealed
    { freshEntry who sb idx entryType mode name nameLen parent with firstBlock := first, blockCount := count }

/-- 項目の割り当ての引数が受け入れられる条件。 -/
structure Admissible (v : Vol) (who : OwIdentity) (entryType : UInt8) (name : Option (List UInt8)) (nameLen : Nat)
    (parent : UInt32) : Prop where
  present : name.isNone = false
  type : entryType = entryFile ∨ entryType = entryCatalog
  nonempty : nameLen ≠ 0
  short : nameLen < nameMaxBytes
  valid : owSutf8Validate (nameBytes name nameLen) = true
  room : v.sb.usedEntries.toNat < v.sb.totalEntries.toNat
  writable : volumeWritable v.sb = .ok ()
  parent : parent ≠ 0 ∨ v.sb.usedEntries > 0 →
    parent.toNat < v.sb.totalEntries.toNat ∧ ((viewOf v).table parent).entryType ≠ 0 ∧
      entryCheckAccess who ((viewOf v).table parent) accessWrite = .ok ()

/-- 受け入れられた割り当てが失敗する訳。 -/
def NoRoom (v : Vol) (entryType : UInt8) : Prop :=
  (∀ j : UInt32, j.toNat < v.sb.totalEntries.toNat → ((viewOf v).table j).Live) ∨
    (entryType = entryCatalog ∧ NoCatalogBlock v)

/-- 項目の割り当ての働き。 -/
structure Created (v v' : Vol) (who : OwIdentity) (entryType : UInt8) (name : Option (List UInt8)) (nameLen : Nat)
    (parent idx : UInt32) : Prop where
  admissible : Admissible v who entryType name nameLen parent
  slot : FirstSlot v idx
  effect : ∃ mode first count s,
    (entryType = entryFile ∧ mode = modeDefaultFile ∧ first = 0 ∧ count = 0 ∨
      entryType = entryCatalog ∧ mode = modeDefaultDir ∧ count = 1 ∧ first.toNat = v.sb.dataRegionStart.toNat + s ∧
        1 ≤ v.sb.freeBlocks.toNat ∧ FirstFit (viewOf v).used v.sb.dataCount 1 s ∧
        v'.dev.disk first = Bytes.zero 4096) ∧
    Becomes {b | count ≠ 0 ∧ b = first} v v'
      { used := fill (viewOf v).used s count.toNat true
        table := Function.update (viewOf v).table idx
          (createdEntry who v.sb idx entryType mode name nameLen parent first count)
        freeBlocks := v.sb.freeBlocks - count
        usedEntries := v.sb.usedEntries + 1 }

theorem defaultModeFor_ok {entryType : UInt8} {mode : UInt16} (h : defaultModeFor entryType = .ok mode) :
    (entryType = entryFile ∧ mode = modeDefaultFile) ∨ (entryType = entryCatalog ∧ mode = modeDefaultDir) := by
  unfold defaultModeFor at h
  split at h
  · rename_i hc
    exact .inr ⟨hc, (Except.ok.inj h).symm⟩
  · split at h
    · rename_i hf
      exact .inl ⟨hf, (Except.ok.inj h).symm⟩
    · cases h

theorem defaultModeFor_admissible {entryType : UInt8} (h : entryType = entryFile ∨ entryType = entryCatalog)
    (e : UsfsErr) : defaultModeFor entryType ≠ .error e := by
  rcases h with rfl | rfl <;> exact fun he => by cases he

/-- 引数と親の検査を終えた後の割り当て。 -/
def entryAllocRest (who : OwIdentity) (sb : Superblock) (entryType : UInt8) (name : Option (List UInt8)) (nameLen : Nat)
    (parent : UInt32) : UsfsM UInt32 := do
  let mode ← Prog.ofExcept (defaultModeFor entryType)
  let chosen ← findSlot
  let temp := freshEntry who sb chosen entryType mode name nameLen parent
  if entryType = entryCatalog then do
    let first ← allocCatalogBlock
    storeFresh chosen { temp with firstBlock := first, blockCount := 1 }
  else storeFresh chosen temp

section

variable {who : OwIdentity} {entryType : UInt8} {name : Option (List UInt8)} {nameLen : Nat} {parent : UInt32}

/-- 検査の部分。受け入れられた割り当ては残りの計算に進み、断られた割り当ては何も変えない。 -/
theorem entryAlloc_gate (hr : Stable v) (hsum : Summed v) {Q : UInt32 → Vol → Prop} {E : UsfsErr → Vol → Prop}
    (hrest : Admissible v who entryType name nameLen parent → ∀ v₀, Still v v₀ →
      wp (entryAllocRest who v.sb entryType name nameLen parent) Q E v₀)
    (hrefuse : ¬ Admissible v who entryType name nameLen parent → ∀ e v₀, Still v v₀ → E e v₀) :
    wp (entryAlloc who entryType name nameLen parent) Q E v := by
  have hself : Still v v := refl_of Still v
  unfold entryAllocRest at hrest
  simp only [wp_bind, wp_ofExcept] at hrest
  unfold entryAlloc
  simp only [wp_bind, wp_failIf, wp_get, wp_ofExcept, wp_whenever]
  refine ⟨fun hname => hrefuse (fun h => ?_) _ v hself, fun hname =>
    ⟨fun htype => hrefuse (fun h => ?_) _ v hself, fun htype =>
    ⟨fun hlen => hrefuse (fun h => ?_) _ v hself, fun hlen =>
    ⟨fun hvalid => hrefuse (fun h => ?_) _ v hself, fun hvalid =>
    ⟨fun hroom => hrefuse (fun h => ?_) _ v hself, fun hroom =>
    ⟨fun _ hw => ?_, fun e he => hrefuse (fun h => ?_) _ v hself⟩⟩⟩⟩⟩⟩
  · rw [h.present] at hname
    cases hname
  · exact h.type.elim htype.1 htype.2
  · exact hlen.elim h.nonempty fun hlong => absurd h.short (Nat.not_lt.mpr hlong)
  · rw [h.valid] at hvalid
    cases hvalid
  · exact absurd (UInt32.lt_iff_toNat_lt.mpr h.room) (UInt32.not_lt.mpr hroom)
  rotate_left
  · exact writable_unit h.writable e he
  have hadm : (parent ≠ 0 ∨ v.sb.usedEntries > 0 →
      parent.toNat < v.sb.totalEntries.toNat ∧ ((viewOf v).table parent).entryType ≠ 0 ∧
        entryCheckAccess who ((viewOf v).table parent) accessWrite = .ok ()) →
      Admissible v who entryType name nameLen parent := by
    intro hparent
    rw [not_or] at hlen
    refine ⟨Bool.eq_false_iff.mpr hname, ?_, hlen.1, Nat.not_le.mp hlen.2, ?_, ?_, hw, hparent⟩
    · by_contra hno
      exact htype (not_or.mp hno)
    · rwa [Bool.not_eq_true', Bool.not_eq_false] at hvalid
    · exact UInt32.lt_iff_toNat_lt.mp (UInt32.not_le.mp hroom)
  refine ⟨fun hp => ?_, fun hp => hrest (hadm fun h => absurd h hp) v hself⟩
  refine wp_entryRead_summed hr (hsum parent) (fun hin v₁ hs₁ => ?_)
    (fun hout v₁ hs₁ => hrefuse (fun h => hout (h.parent hp).1) _ v₁ hs₁)
  refine ⟨fun hnone => hrefuse (fun h => (h.parent hp).2.1 hnone) _ v₁ hs₁, fun hlive => ⟨fun _ hacc => ?_, fun e he =>
    hrefuse (fun h => ?_) _ v₁ hs₁⟩⟩
  · exact hrest (hadm fun _ => ⟨hin, hlive, hacc⟩) v₁ hs₁
  · rw [(h.parent hp).2.2] at he
    cases he

theorem entryAllocRest_ready (hr : Ready v) (hsum : Summed v) (hadm : Admissible v who entryType name nameLen parent)
    {v₀ : Vol} (hstill : Still v v₀) :
    wp (entryAllocRest who v.sb entryType name nameLen parent)
      (fun idx v' => Created v v' who entryType name nameLen parent idx)
      (fun _ v' => Becomes ∅ v v' (viewOf v) ∧ (Admissible v who entryType name nameLen parent → NoRoom v entryType))
      v₀ := by
  obtain ⟨c, rfl⟩ := hstill
  have hr₀ : Ready (v.atClock c) := Still.ready ⟨c, rfl⟩ hr
  unfold entryAllocRest
  simp only [wp_bind, wp_ofExcept]
  refine ⟨fun mode hmode => ?_, fun e he => absurd he (defaultModeFor_admissible hadm.type e)⟩
  refine (findSlot_stable hr₀.stable hsum).mono ?_
    (fun _ _ h => ⟨.of_still (trans_of Still ⟨c, rfl⟩ h.2.1), fun _ => .inl h.2.2⟩)
  rintro idx _ ⟨hslot, c', rfl⟩
  have hr₁ : Ready (v.atClock c') := Still.ready ⟨c', rfl⟩ hr
  have hslot : FirstSlot v idx := ⟨hslot.inTable, hslot.vacant, hslot.before⟩
  rw [wp_ite]
  rcases defaultModeFor_ok hmode with ⟨htype, hmode⟩ | ⟨htype, hmode⟩
  · refine ⟨fun hc => absurd (htype.symm.trans hc) (by decide), fun _ => ?_⟩
    refine (storeFresh_ready hr₁ hadm.writable hslot.inTable _).mono ?_ (fun _ _ h => h.elim)
    rintro _ v' ⟨rfl, hbecomes⟩
    refine ⟨hadm, hslot, mode, 0, 0, 0, .inl ⟨htype, hmode, rfl, rfl⟩, ?_⟩
    have hzero : v.sb.freeBlocks - 0 = v.sb.freeBlocks := UInt32.sub_zero _
    rw [show (0 : UInt32).toNat = 0 from rfl, fill_zero, hzero]
    exact ⟨hbecomes.shape, hbecomes.config, hbecomes.view, fun b hb _ => hbecomes.data b hb (Set.notMem_empty b)⟩
  · refine ⟨fun _ => ?_, fun hno => absurd htype hno⟩
    rw [wp_bind]
    refine (allocCatalogBlock_ready hr₁ hadm.writable).mono ?_
      (fun _ _ h => ⟨⟨h.1.shape, h.1.config, h.1.view, h.1.data⟩, fun _ => .inr ⟨htype, h.2⟩⟩)
    rintro b v₂ ⟨s, hs, hfree, hb, hzero, hbecomes⟩
    have hr₂ := hbecomes.ready hr₁
    have hw₂ : volumeWritable v₂.sb = .ok () := hbecomes.shape.writable.trans hadm.writable
    have hidx₂ : idx.toNat < v₂.sb.totalEntries.toNat := by
      rw [hbecomes.shape.totalEntries]
      exact hslot.inTable
    refine (storeFresh_ready hr₂ hw₂ hidx₂ _).mono ?_ (fun _ _ h => h.elim)
    rintro _ v' ⟨rfl, hstore⟩
    have hdata : v.sb.IsData b := isData_of_fits hr.nonempty hb hs.fits (by decide)
    have hused : v₂.sb.usedEntries = v.sb.usedEntries := congrArg View.usedEntries hbecomes.view
    refine ⟨hadm, hslot, mode, b, 1, s, .inr ⟨htype, hmode, rfl, hb, hfree, hs, ?_⟩, ?_⟩
    · rw [hstore.data b (hbecomes.shape.isData.mpr hdata) (Set.notMem_empty b)]
      exact hzero
    · have hall := hbecomes.trans hstore
      rw [hbecomes.view, hused] at hall
      refine ⟨hall.shape, hall.config, hall.view, fun x hx hout => hall.data x hx fun hin => hout ⟨by decide, ?_⟩⟩
      rw [Set.union_empty] at hin
      exact hin

end

theorem entryAlloc_ready (hr : Ready v) (hsum : Summed v) (who : OwIdentity) (entryType : UInt8)
    (name : Option (List UInt8)) (nameLen : Nat) (parent : UInt32) :
    wp (entryAlloc who entryType name nameLen parent)
      (fun idx v' => Created v v' who entryType name nameLen parent idx)
      (fun _ v' => Becomes ∅ v v' (viewOf v) ∧
        (Admissible v who entryType name nameLen parent → NoRoom v entryType)) v :=
  entryAlloc_gate hr.stable hsum (fun hadm _ h => entryAllocRest_ready hr hsum hadm h)
    fun hno _ _ h => ⟨.of_still h, fun hadm => absurd hadm hno⟩

/-! ## 項目の解放 -/

/-- 項目の解放の検査を通る。 -/
structure Erasable (v : Vol) (who : OwIdentity) (idx : UInt32) : Prop where
  inTable : idx.toNat < v.sb.totalEntries.toNat
  present : ((viewOf v).table idx).entryType ≠ 0
  writable : volumeWritable v.sb = .ok ()
  notReadonly : ((viewOf v).table idx).securityFlags.toUInt32 &&& secReadonly = 0
  access : entryCheckAccess who ((viewOf v).table idx) accessWrite = .ok ()

/-- 項目の解放が受け入れられる条件。 -/
structure Removable (v : Vol) (who : OwIdentity) (idx : UInt32) : Prop where
  inTable : idx.toNat < v.sb.totalEntries.toNat
  present : ((viewOf v).table idx).entryType ≠ 0
  writable : volumeWritable v.sb = .ok ()
  notReadonly : ((viewOf v).table idx).securityFlags.toUInt32 &&& secReadonly = 0
  access : entryCheckAccess who ((viewOf v).table idx) accessWrite = .ok ()
  inRange : 0 < ((viewOf v).table idx).blockCount.toNat →
    v.sb.InRange ((viewOf v).table idx).firstBlock ((viewOf v).table idx).blockCount

/-- 項目の解放の働き。 -/
structure Freed (v v' : Vol) (who : OwIdentity) (idx : UInt32) : Prop extends Removable v who idx where
  effect : Becomes ∅ v v'
    { used := fill (viewOf v).used (v.sb.relOf ((viewOf v).table idx).firstBlock)
        ((viewOf v).table idx).blockCount.toNat false
      table := Function.update (viewOf v).table idx (clearedEntry ((viewOf v).table idx)).sealed
      freeBlocks := v.sb.freeBlocks + ((viewOf v).table idx).blockCount
      usedEntries := if v.sb.usedEntries > 0 then v.sb.usedEntries - 1 else v.sb.usedEntries }

theorem clearEntry_ready (hr : Ready v) (hw : volumeWritable v.sb = .ok ()) (idx : UInt32)
    (hidx : idx.toNat < v.sb.totalEntries.toNat) (e : Entry) :
    wp (do
        let _ ← withEntry e (entryWrite idx)
        modifySb fun sb => if sb.usedEntries > 0 then { sb with usedEntries := sb.usedEntries - 1 } else sb)
      (fun _ v' => Becomes ∅ v v' { viewOf v with
        table := Function.update (viewOf v).table idx e.sealed
        usedEntries := if v.sb.usedEntries > 0 then v.sb.usedEntries - 1 else v.sb.usedEntries })
      (fun _ _ => False) v := by
  simp only [wp_bind, wp_withEntry, wp_modifySb]
  refine (entryWrite_ready (s := ⟨v, e⟩) hr idx).mono ?_ ?_
  · rintro _ s' ⟨_, _, hbecomes⟩
    have hused : s'.vol.sb.usedEntries = v.sb.usedEntries := congrArg View.usedEntries hbecomes.view
    have hcount := hbecomes.trans (usedEntries_becomes (T := ∅)
      (if v.sb.usedEntries > 0 then v.sb.usedEntries - 1 else v.sb.usedEntries))
    rw [hbecomes.view, Set.empty_union] at hcount
    rw [hused]
    split
    · rename_i hpos
      rw [if_pos hpos] at hcount
      exact hcount
    · rename_i hzero
      rw [if_neg hzero, ← hused] at hcount
      rw [← hused]
      exact hcount
  · rintro err s' ⟨_, ⟨_, hno⟩ | hshut⟩
    · exact absurd hidx hno
    · exact absurd hshut (writable_unit hw err)

/-- 検査を終えた後の解放。 -/
def entryFreeRest (temp : Entry) (idx : UInt32) : UsfsM Unit := do
  Prog.whenever (temp.blockCount > 0) (blockFree temp.firstBlock temp.blockCount)
  let _ ← withEntry (clearedEntry temp) (entryWrite idx)
  modifySb fun sb => if sb.usedEntries > 0 then { sb with usedEntries := sb.usedEntries - 1 } else sb

/-- 検査の部分。通った解放は残りの計算に進み、断られた解放は何も変えない。 -/
theorem entryFree_gate (hr : Stable v) {who : OwIdentity} {idx : UInt32}
    (hsum : ((viewOf v).table idx).entryType ≠ 0 → entryVerifyChecksum ((viewOf v).table idx) = true)
    {Q : Unit → Vol → Prop} {E : UsfsErr → Vol → Prop}
    (hrest : Erasable v who idx → ∀ v₀, Still v v₀ → wp (entryFreeRest ((viewOf v).table idx) idx) Q E v₀)
    (hrefuse : ¬ Erasable v who idx → ∀ e v₀, Still v v₀ → E e v₀) : wp (entryFree who idx) Q E v := by
  have hself : Still v v := refl_of Still v
  unfold entryFreeRest at hrest
  simp only [wp_bind] at hrest
  unfold entryFree
  simp only [wp_bind, wp_failIf, wp_get, wp_ofExcept]
  refine ⟨fun _ hw => ?_, fun e he => hrefuse (fun h => writable_unit h.writable e he) _ v hself⟩
  refine wp_entryRead_summed hr hsum (fun hin v₁ hs₁ => ?_) (fun hout v₁ hs₁ =>
    hrefuse (fun h => hout h.inTable) _ v₁ hs₁)
  refine ⟨fun hnone => hrefuse (fun h => h.present hnone) _ v₁ hs₁, fun hlive =>
    ⟨fun hro => hrefuse (fun h => hro h.notReadonly) _ v₁ hs₁, fun hro => ⟨fun _ hacc => ?_, fun e he =>
    hrefuse (fun h => ?_) _ v₁ hs₁⟩⟩⟩
  · exact hrest ⟨hin, hlive, hw, not_not.mp hro, hacc⟩ v₁ hs₁
  · rw [h.access] at he
    cases he

theorem entryFree_ready (hr : Ready v) (who : OwIdentity) {idx : UInt32}
    (hsum : ((viewOf v).table idx).entryType ≠ 0 → entryVerifyChecksum ((viewOf v).table idx) = true) :
    wp (entryFree who idx) (fun _ v' => Freed v v' who idx) (fun _ v' => Still v v' ∧ ¬ Removable v who idx) v := by
  refine entryFree_gate hr.stable hsum ?_ fun hno _ _ hs =>
    ⟨hs, fun h => hno ⟨h.inTable, h.present, h.writable, h.notReadonly, h.access⟩⟩
  rintro hpass _ ⟨c, rfl⟩
  have hin := hpass.inTable
  have hw := hpass.writable
  have hremovable : (0 < ((viewOf v).table idx).blockCount.toNat →
      v.sb.InRange ((viewOf v).table idx).firstBlock ((viewOf v).table idx).blockCount) → Removable v who idx :=
    fun h => ⟨hin, hpass.present, hw, hpass.notReadonly, hpass.access, h⟩
  unfold entryFreeRest
  rw [wp_bind]
  generalize he : (viewOf v).table idx = e at hremovable
  have hr₁ : Ready (v.atClock c) := Still.ready ⟨c, rfl⟩ hr
  rw [wp_whenever]
  refine ⟨fun hpos => ?_, fun hnone => ?_⟩
  · refine (blockFree_ready hr₁ e.firstBlock e.blockCount).mono ?_ ?_
    · rintro _ v₂ (⟨hz, _⟩ | ⟨hrange, hbecomes⟩)
      · rw [hz] at hpos
        exact absurd hpos (by decide)
      · refine (clearEntry_ready (hbecomes.ready hr₁) (hbecomes.shape.writable.trans hw) idx
          (by rw [hbecomes.shape.totalEntries]; exact hin) (clearedEntry e)).mono ?_ (fun _ _ h => h.elim)
        intro _ v' hall
        have hused : v₂.sb.usedEntries = v.sb.usedEntries := congrArg View.usedEntries hbecomes.view
        have hboth := hbecomes.trans hall
        rw [hbecomes.view, Set.empty_union, hused] at hboth
        refine ⟨hremovable fun _ => hrange, ?_⟩
        rw [he]
        exact ⟨hboth.shape, hboth.config, hboth.view, hboth.data⟩
    · rintro err _ ⟨rfl, hrefused⟩
      refine ⟨⟨c, rfl⟩, fun h => ?_⟩
      rcases hrefused with ⟨_, hout⟩ | hshut
      · have hrange := h.inRange
        rw [he] at hrange
        exact hout (hrange (UInt32.lt_iff_toNat_lt.mp hpos))
      · exact writable_unit hw err hshut
  · have hz : e.blockCount.toNat = 0 := Nat.eq_zero_of_not_pos fun h => hnone (UInt32.lt_iff_toNat_lt.mpr h)
    refine (clearEntry_ready hr₁ hw idx hin (clearedEntry e)).mono ?_ (fun _ _ h => h.elim)
    intro _ v' hall
    refine ⟨hremovable fun hpos => ?_, ?_⟩
    · rw [hz] at hpos
      exact absurd hpos (Nat.lt_irrefl 0)
    · have hcount : v.sb.freeBlocks + e.blockCount = v.sb.freeBlocks := by
        rw [show e.blockCount = 0 from UInt32.toNat_inj.mp hz, UInt32.add_zero]
      rw [he, hz, fill_zero, hcount]
      exact ⟨hall.shape, hall.config, hall.view, hall.data⟩

end

end OwStorage.Usfs
