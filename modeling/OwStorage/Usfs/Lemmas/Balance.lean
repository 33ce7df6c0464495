import OwStorage.Usfs.Lemmas.File
import OwStorage.Usfs.Lemmas.Format
import OwStorage.Usfs.Run
import OwStorage.Lib.Allot

/-!
# ブロックの持ち主

データ領域の印は、生きている項目の並びに重なりなく分かれ、空きの数の欄は印のないブロックの数に等しい。どの操作も、項目を一つだけ
書き直し、その並びと印と欄とを合わせて変える。
-/

namespace OwStorage.Usfs

open Lib Prog

/-- データ領域の中の番号で表した、並び。 -/
def Superblock.extent (sb : Superblock) (e : Entry) : Set Nat :=
  { r | sb.relOf e.firstBlock ≤ r ∧ r < sb.relOf e.firstBlock + e.blockCount.toNat }

/-- 使用中の番号。 -/
def usedSet (f : Nat → Bool) : Set Nat := { r | f r = true }

/-- 印と欄と項目が釣り合う、失敗のない装置の上のボリューム。 -/
structure Balanced (v : Vol) : Prop where
  ready : Ready v
  summed : Summed v
  housed : ∀ idx, v.sb.Houses ((viewOf v).table idx)
  bare : ∀ idx, ¬ ((viewOf v).table idx).Live → ((viewOf v).table idx).blockCount.toNat = 0
  allotted : Allotted (fun idx => v.sb.extent ((viewOf v).table idx)) (usedSet (viewOf v).used)
  sized : ∀ idx, ((viewOf v).table idx).Live →
    ((viewOf v).table idx).sizeBytes.toNat ≤ ((viewOf v).table idx).blockCount.toNat * 4096
  counted : v.sb.freeBlocks.toNat = vacancies (viewOf v).used 0 v.sb.dataCount

/-! ## 数の欄 -/

section

variable {u : Nat → Bool} {N s : Nat} {f n : UInt32}

theorem count_taken (h : f.toNat = vacancies u 0 N) (hs : FirstFit u N n.toNat s) :
    (f - n).toNat = vacancies (fill u s n.toNat true) 0 N := by
  have hle : vacancies u s n.toNat ≤ vacancies u 0 N := vacancies_le_total hs.fits
  have hcount := @vacancies_fill u N n.toNat s true hs.fits
  rw [hs.vacant.vacancies] at hle hcount
  simp only [↓reduceIte, Nat.add_zero] at hcount
  rw [toNat_sub_le (by omega)]
  omega

theorem count_given (h : f.toNat = vacancies u 0 N) (hN : N < 2 ^ 32) (hfit : s + n.toNat ≤ N)
    (hused : ∀ i, i < n.toNat → u (s + i) = true) : (f + n).toNat = vacancies (fill u s n.toNat false) 0 N := by
  have hcount := @vacancies_fill u N n.toNat s false hfit
  have hle : vacancies (fill u s n.toNat false) 0 N ≤ N := vacancies_le
  rw [vacancies_eq_zero.mpr hused] at hcount
  simp only [Bool.false_eq_true, ↓reduceIte, Nat.add_zero] at hcount
  rw [toNat_add_lt (by omega)]
  omega

end

/-! ## 項目の書き直し -/

section

variable {sb sb' : Superblock} {v v' : Vol} {T : Set UInt32} {w : View} {idx : UInt32} {e e' : Entry}

theorem SameShape.extent (h : SameShape sb sb') (e : Entry) : sb'.extent e = sb.extent e := by
  unfold Superblock.extent
  rw [h.relOf]

theorem Superblock.extent_eq_empty (h : e.blockCount.toNat = 0) : sb.extent e = ∅ := by
  refine Set.eq_empty_iff_forall_notMem.mpr fun r hr => ?_
  have hlow := hr.1
  have hhigh := hr.2
  omega

theorem Balanced.occupies (h : Balanced v) (idx : UInt32) : Occupies v ((viewOf v).table idx) := by
  intro j hj
  exact h.allotted.subset idx ⟨Nat.le_add_right _ _, Nat.add_lt_add_left hj _⟩

theorem Balanced.same (h : Balanced v) (hb : Becomes T v v' (viewOf v)) : Balanced v' := by
  have hfree : v'.sb.freeBlocks = v.sb.freeBlocks := congrArg View.freeBlocks hb.view
  refine ⟨hb.ready h.ready, fun j => ?_, fun j => ?_, fun j => ?_, ?_, fun j => ?_, ?_⟩
  · rw [hb.view]
    exact h.summed j
  · rw [hb.view, hb.shape.houses]
    exact h.housed j
  · rw [hb.view]
    exact h.bare j
  · rw [hb.view]
    simp only [hb.shape.extent]
    exact h.allotted
  · rw [hb.view]
    exact h.sized j
  · rw [hb.view, hfree, hb.shape.dataCount]
    exact h.counted

theorem Balanced.turned (h : Balanced v) (hb : Becomes T v v' w)
    (htable : w.table = Function.update (viewOf v).table idx e)
    (hsum : e.entryType ≠ 0 → entryVerifyChecksum e = true) (hhouse : v.sb.Houses e)
    (hbare : ¬ e.Live → e.blockCount.toNat = 0) (hsize : e.Live → e.sizeBytes.toNat ≤ e.blockCount.toNat * 4096)
    (hfresh : ∀ r ∈ v.sb.extent e, (viewOf v).used r = true → r ∈ v.sb.extent ((viewOf v).table idx))
    (hused : ∀ r, w.used r = true ↔
      ((viewOf v).used r = true ∧ r ∉ v.sb.extent ((viewOf v).table idx)) ∨ r ∈ v.sb.extent e)
    (hcount : w.freeBlocks.toNat = vacancies w.used 0 v.sb.dataCount) : Balanced v' := by
  have hentry : ∀ j, (viewOf v').table j = e ∨ (viewOf v').table j = (viewOf v).table j := by
    intro j
    rw [hb.view, htable]
    by_cases hj : j = idx
    · rw [hj, Function.update_self]
      exact .inl rfl
    · rw [Function.update_of_ne hj]
      exact .inr rfl
  have hfree : v'.sb.freeBlocks = w.freeBlocks := congrArg View.freeBlocks hb.view
  refine ⟨hb.ready h.ready, fun j => ?_, fun j => ?_, fun j => ?_, ?_, fun j => ?_, ?_⟩
  · rcases hentry j with he | he <;> rw [he]
    · exact hsum
    · exact h.summed j
  · rw [hb.shape.houses]
    rcases hentry j with he | he <;> rw [he]
    · exact hhouse
    · exact h.housed j
  · rcases hentry j with he | he <;> rw [he]
    · exact hbare
    · exact h.bare j
  · have hreassign := h.allotted.reassign (i := idx) hfresh
    have hset : usedSet (viewOf v).used \ v.sb.extent ((viewOf v).table idx) ∪ v.sb.extent e = usedSet w.used :=
      Set.ext fun r => (hused r).symm
    have hown : Function.update (fun j => v.sb.extent ((viewOf v).table j)) idx (v.sb.extent e) =
        fun j => v'.sb.extent ((viewOf v').table j) := by
      funext j
      rw [hb.shape.extent, hb.view, htable]
      by_cases hj : j = idx
      · rw [hj, Function.update_self, Function.update_self]
      · rw [Function.update_of_ne hj, Function.update_of_ne hj]
    rw [hset, hown, hb.view] at hreassign
    rw [hb.view]
    exact hreassign
  · rcases hentry j with he | he <;> rw [he]
    · exact hsize
    · exact h.sized j
  · rw [hfree, hb.view, hb.shape.dataCount]
    exact hcount

end

/-! ## 項目の割り当てと解放 -/

section

variable {v v' : Vol} {idx : UInt32} {e' : Entry}

theorem Balanced.dataCount_lt (v : Vol) : v.sb.dataCount < 2 ^ 32 := by
  have htot := v.sb.totalBlocks.toNat_lt
  unfold Superblock.dataCount
  omega

theorem Balanced.vacant_extent (h : Balanced v) (hvac : ((viewOf v).table idx).Vacant) :
    v.sb.extent ((viewOf v).table idx) = ∅ :=
  Superblock.extent_eq_empty (h.bare idx fun hlive => Entry.live_iff.mp hlive hvac)

theorem Balanced.created (h : Balanced v) {who : OwIdentity} {entryType : UInt8}
    {name : Option (List UInt8)} {nameLen : Nat}
    {parent : UInt32} (hc : Created v v' who entryType name nameLen parent idx) : Balanced v' := by
  obtain ⟨mode, first, count, s, hkind, hb⟩ := hc.effect
  have hempty := h.vacant_extent hc.slot.vacant
  generalize he : createdEntry who v.sb idx entryType mode name nameLen parent first count = e at hb
  have hfirst : e.firstBlock = first := by rw [← he]; rfl
  have hcount : e.blockCount = count := by rw [← he]; rfl
  have hsize : e.sizeBytes = 0 := by rw [← he]; rfl
  have hlive : e.Live := by
    have htype : e.entryType = entryType := by rw [← he]; rfl
    unfold Entry.Live
    rw [htype]
    rcases hc.admissible.type with rfl | rfl <;> decide
  have hsum : e.entryType ≠ 0 → entryVerifyChecksum e = true := by
    rw [← he]
    exact fun _ => verify_sealed _
  have hbound : e.Live → e.sizeBytes.toNat ≤ e.blockCount.toNat * 4096 := by
    rw [hsize]
    exact fun _ => Nat.zero_le _
  rcases hkind with ⟨_, _, rfl, rfl⟩ | ⟨_, _, rfl, hplace, _, hs, _⟩
  · have hnone : e.blockCount.toNat = 0 := by rw [hcount]; rfl
    refine h.turned hb rfl hsum (fun hpos => ?_) (fun hdead => absurd hlive hdead) hbound ?_ ?_ ?_
    · rw [hnone] at hpos
      exact absurd hpos (Nat.lt_irrefl 0)
    · rw [Superblock.extent_eq_empty hnone]
      exact fun _ hr => absurd hr (Set.notMem_empty _)
    · intro r
      rw [hempty, Superblock.extent_eq_empty hnone]
      simp
    · change (v.sb.freeBlocks - 0).toNat = vacancies (fill _ s 0 true) 0 _
      rw [fill_zero, UInt32.sub_zero]
      exact h.counted
  · have hone : e.blockCount.toNat = 1 := by rw [hcount]; rfl
    have hrel : v.sb.relOf e.firstBlock = s := by
      rw [hfirst]
      unfold Superblock.relOf
      omega
    have hfits := hs.fits
    refine h.turned hb rfl hsum (fun _ => ⟨?_, ?_, ?_⟩) (fun hdead => absurd hlive hdead) hbound ?_ ?_ ?_
    · rw [hone]
      exact Nat.one_pos
    · rw [hfirst, hplace]
      exact Nat.le_add_right _ _
    · have hne := h.ready.nonempty
      unfold Superblock.dataCount at hfits
      rw [hfirst, hplace, hone]
      omega
    · rintro r ⟨hlow, hhigh⟩ hr
      rw [hrel] at hlow hhigh
      rw [hone] at hhigh
      have hclear := hs.vacant (r - s) (by omega)
      rw [Nat.add_sub_cancel' hlow, hr] at hclear
      cases hclear
    · intro r
      change fill _ s 1 true r = true ↔ _
      rw [fill_true_iff, hempty]
      unfold Superblock.extent
      rw [hrel, hone]
      simp
    · exact count_taken (n := 1) h.counted hs

theorem Balanced.freed (h : Balanced v) {who : OwIdentity} (hf : Freed v v' who idx) : Balanced v' := by
  have hb := hf.effect
  generalize he : (clearedEntry ((viewOf v).table idx)).sealed = e at hb
  have hcount : e.blockCount.toNat = 0 := by
    rw [← he]
    unfold Entry.sealed clearedEntry
    split
    · rfl
    · rename_i hnone
      exact Nat.eq_zero_of_not_pos fun hpos => hnone (UInt32.lt_iff_toNat_lt.mpr hpos)
  have hdead : ¬ e.Live := by
    have htype : e.entryType = entryDeleted := by
      rw [← he]
      unfold Entry.sealed clearedEntry
      split <;> rfl
    rintro ⟨_, hclear⟩
    rw [htype] at hclear
    exact absurd hclear (by decide)
  have hnone : v.sb.extent e = ∅ := Superblock.extent_eq_empty hcount
  refine h.turned hb rfl ?_ (fun hpos => ?_) (fun _ => hcount) (fun hlive => absurd hlive hdead) ?_ ?_ ?_
  · rw [← he]
    exact fun _ => verify_sealed _
  · rw [hcount] at hpos
    exact absurd hpos (Nat.lt_irrefl 0)
  · rw [hnone]
    exact fun _ hr => absurd hr (Set.notMem_empty _)
  · intro r
    change fill _ _ _ false r = true ↔ _
    rw [fill_false_iff, hnone]
    simp [Superblock.extent]
  · by_cases hpos : 0 < ((viewOf v).table idx).blockCount.toNat
    · exact count_given h.counted (Balanced.dataCount_lt v) (h.housed idx hpos).rel_le (h.occupies idx)
    · have hz : ((viewOf v).table idx).blockCount = 0 := UInt32.toNat_inj.mp (Nat.eq_zero_of_not_pos hpos)
      change (v.sb.freeBlocks + ((viewOf v).table idx).blockCount).toNat =
        vacancies (fill _ _ ((viewOf v).table idx).blockCount.toNat false) 0 _
      rw [hz, UInt32.toNat_zero, fill_zero, UInt32.add_zero]
      exact h.counted

/-! ## 並びの移し替えと切り詰め -/

theorem Balanced.resized (h : Balanced v) {size : UInt32} (hr : Resized v v' idx ((viewOf v).table idx) e' size)
    (hlive : ((viewOf v).table idx).Live) (hsize : size.toNat ≤ ((viewOf v).table idx).blockCount.toNat * 4096) :
    Balanced v' := by
  have hb := hr.effect
  have hentry := hr.entry
  have hextent : v.sb.extent e' = v.sb.extent ((viewOf v).table idx) := by rw [hentry]; rfl
  refine h.turned hb rfl ?_ ?_ (fun hdead => absurd ?_ hdead) ?_ ?_ ?_ h.counted
  · rw [hentry]
    exact fun _ => verify_sealed _
  · rw [hentry]
    exact fun hpos => ⟨hpos, (h.housed idx hpos).low, (h.housed idx hpos).high⟩
  · rw [hentry]
    exact hlive
  · rw [hentry]
    exact fun _ => hsize
  · rw [hextent]
    exact fun _ hr _ => hr
  · intro r
    rw [hextent]
    constructor
    · intro hr
      by_cases hin : r ∈ v.sb.extent ((viewOf v).table idx)
      · exact .inr hin
      · exact .inl ⟨hr, hin⟩
    · rintro (⟨hr, _⟩ | hin)
      · exact hr
      · exact h.allotted.subset idx hin

theorem Balanced.grown (h : Balanced v) {need : UInt32} (hg : Grown v v' idx ((viewOf v).table idx) e' need)
    (hlive : ((viewOf v).table idx).Live) : Balanced v' ∧ (viewOf v').table idx = e' := by
  obtain ⟨s, hs, _, hfirst, hb⟩ := hg.moved
  have hentry := hg.entry
  have hcount := hg.blockCount
  have hshort := hg.short
  have hhouse := hg.houses h.ready
  have hrel : v.sb.relOf e'.firstBlock = s := by
    unfold Superblock.relOf
    omega
  have hextent : ∀ r, r ∈ v.sb.extent e' ↔ s ≤ r ∧ r < s + need.toNat := by
    intro r
    unfold Superblock.extent
    rw [hrel, hcount]
    exact Iff.rfl
  have hfresh : ∀ r, s ≤ r ∧ r < s + need.toNat → (viewOf v).used r = false := by
    intro r hr
    have hclear := hs.vacant (r - s) (by omega)
    rwa [Nat.add_sub_cancel' hr.1] at hclear
  refine ⟨h.turned hb rfl ?_ hhouse (fun hdead => absurd ?_ hdead) ?_ ?_ ?_ ?_, ?_⟩
  · rw [hentry]
    exact fun _ => verify_sealed _
  · rw [hentry]
    exact hlive
  · intro _
    have hold := h.sized idx hlive
    have hsize : e'.sizeBytes = ((viewOf v).table idx).sizeBytes := by rw [hentry]; rfl
    rw [hsize, hcount]
    exact hold.trans (Nat.mul_le_mul_right 4096 hshort.le)
  · intro r hin hr
    rw [hfresh r ((hextent r).mp hin)] at hr
    cases hr
  · intro r
    change fill (fill _ s need.toNat true) _ _ false r = true ↔ _
    rw [fill_false_iff, fill_true_iff, hextent]
    constructor
    · rintro ⟨hr | hin, hout⟩
      · exact .inl ⟨hr, hout⟩
      · exact .inr hin
    · rintro (⟨hr, hout⟩ | hin)
      · exact ⟨.inl hr, hout⟩
      · refine ⟨.inr hin, fun hold => ?_⟩
        have hr : (viewOf v).used r = true := h.allotted.subset idx hold
        rw [hfresh r hin] at hr
        cases hr
  · have htaken := count_taken h.counted hs
    by_cases hpos : 0 < ((viewOf v).table idx).blockCount.toNat
    · refine count_given htaken (Balanced.dataCount_lt v) (h.housed idx hpos).rel_le fun i hi => ?_
      exact fill_true_iff.mpr (.inl (h.occupies idx i hi))
    · have hz : ((viewOf v).table idx).blockCount = 0 := UInt32.toNat_inj.mp (Nat.eq_zero_of_not_pos hpos)
      change (v.sb.freeBlocks - need + ((viewOf v).table idx).blockCount).toNat =
        vacancies (fill (fill _ s need.toNat true) _ ((viewOf v).table idx).blockCount.toNat false) 0 _
      rw [hz, UInt32.toNat_zero, fill_zero, UInt32.add_zero]
      exact htaken
  · rw [hb.view]
    exact Function.update_self _ _ _

theorem Balanced.shrunk (h : Balanced v) {keep size : UInt32} (hs : Shrunk v v' idx ((viewOf v).table idx) e' keep size)
    (hlive : ((viewOf v).table idx).Live) (hsize : size.toNat ≤ keep.toNat * 4096) : Balanced v' := by
  have hb := hs.effect
  have hentry := hs.entry
  have hless := hs.less
  have hhouse := h.housed idx (by omega)
  have hlow := hhouse.low
  have hhigh := hhouse.high
  have hextent : ∀ r, r ∈ v.sb.extent e' ↔
      v.sb.relOf ((viewOf v).table idx).firstBlock ≤ r ∧
        r < v.sb.relOf ((viewOf v).table idx).firstBlock + keep.toNat := by
    intro r
    rw [hentry]
    exact Iff.rfl
  have hold : ∀ r, r ∈ v.sb.extent ((viewOf v).table idx) ↔
      v.sb.relOf ((viewOf v).table idx).firstBlock ≤ r ∧
        r < v.sb.relOf ((viewOf v).table idx).firstBlock + ((viewOf v).table idx).blockCount.toNat := fun _ => Iff.rfl
  refine h.turned hb rfl ?_ ?_ (fun hdead => absurd ?_ hdead) ?_ ?_ ?_ ?_
  · rw [hentry]
    exact fun _ => verify_sealed _
  · rw [hentry]
    intro hpos
    change 0 < keep.toNat at hpos
    refine ⟨hpos, hlow, ?_⟩
    change ((viewOf v).table idx).firstBlock.toNat + keep.toNat ≤ _
    omega
  · rw [hentry]
    exact hlive
  · rw [hentry]
    exact fun _ => hsize
  · intro r hin _
    rw [hold]
    have hin := (hextent r).mp hin
    omega
  · intro r
    change fill _ (_ + keep.toNat) _ false r = true ↔ _
    rw [fill_false_iff, hextent, hold]
    constructor
    · rintro ⟨hr, hout⟩
      by_cases hin : v.sb.relOf ((viewOf v).table idx).firstBlock ≤ r ∧
          r < v.sb.relOf ((viewOf v).table idx).firstBlock + keep.toNat
      · exact .inr hin
      · exact .inl ⟨hr, by omega⟩
    · rintro (⟨hr, hout⟩ | hin)
      · exact ⟨hr, by omega⟩
      · exact ⟨h.allotted.subset idx ((hold r).mpr (by omega)), by omega⟩
  · have hrange := hhouse.rel_le
    have hdiff : (((viewOf v).table idx).blockCount - keep).toNat =
        ((viewOf v).table idx).blockCount.toNat - keep.toNat := toNat_sub_le hless.le
    have hgiven := count_given (s := v.sb.relOf ((viewOf v).table idx).firstBlock + keep.toNat)
      (n := ((viewOf v).table idx).blockCount - keep) h.counted (Balanced.dataCount_lt v) (by omega) fun i hi => by
        rw [Nat.add_assoc]
        exact h.occupies idx _ (by omega)
    rw [hdiff] at hgiven
    exact hgiven

end

/-! ## 一回の呼び出し -/

section

variable {v v' : Vol} {idx : UInt32} {e' : Entry}

theorem Balanced.reached (h : Balanced v) {need : UInt32} (hg : Reached v v' idx ((viewOf v).table idx) e' need)
    (hlive : ((viewOf v).table idx).Live) : Balanced v' ∧ (viewOf v').table idx = e' ∧ e'.Live := by
  rcases hg with ⟨_, rfl, rfl⟩ | hg
  · exact ⟨h, rfl, hlive⟩
  · obtain ⟨hb, htable⟩ := h.grown hg hlive
    refine ⟨hb, htable, ?_⟩
    rw [hg.entry]
    exact hlive

theorem Balanced.fileWrite (h : Balanced v) (hidx : idx.toNat < v.sb.totalEntries.toNat)
    (hlive : ((viewOf v).table idx).Live)
    (who : OwIdentity) {buf : List UInt8} {offset len : UInt32} (hbuf : len.toNat ≤ buf.length) :
    wp (fileWrite who idx buf offset len) (fun _ s' => Balanced s'.vol) (fun _ s' => Balanced s'.vol)
      ⟨v, (viewOf v).table idx⟩ := by
  have hoff := offset.toNat_lt
  have hlen := len.toNat_lt
  refine (fileWrite_ready h.ready hidx (h.housed idx) (h.occupies idx) who hbuf).mono ?_ ?_
  · rintro done ⟨v', e'⟩ ⟨_, _, ⟨_, heq⟩ | ⟨_, v₁, e₁, v₂, hreach, hwrote, hres⟩⟩
    · cases heq
      exact h
    · obtain ⟨h₁, htable, hlive₁⟩ := h.reached hreach hlive
      have hhouse := hreach.houses h.ready (h.housed idx)
      have hdata := becomes_of_evolves h₁.ready.layout hwrote.sb hwrote.dev fun b hb => hhouse.isData hb
      have htable₂ : (viewOf v₂).table idx = e₁ := by rw [hdata.view, htable]
      rw [← htable₂] at hres hlive₁
      refine (h₁.same hdata).resized hres hlive₁ ?_
      have henough := hreach.enough
      have hneed : offset.toNat + len.toNat ≤ _ := le_blocksFor (by omega)
      have hsize : (UInt32.ofNat (offset.toNat + len.toNat)).toNat ≤ offset.toNat + len.toNat := by
        rw [UInt32.toNat_ofNat']
        exact Nat.mod_le _ _
      rw [htable₂]
      exact (hsize.trans hneed).trans (Nat.mul_le_mul_right 4096 henough)
  · rintro err ⟨v', e'⟩ ⟨⟨hb, _⟩ | ⟨v₁, hreach, hb⟩, _⟩
    · exact h.same hb
    · exact (h.reached hreach hlive).1.same hb

theorem Balanced.fileTruncate (h : Balanced v) (hidx : idx.toNat < v.sb.totalEntries.toNat)
    (hlive : ((viewOf v).table idx).Live) (who : OwIdentity) (size : UInt32) :
    wp (fileTruncate who idx size) (fun _ s' => Balanced s'.vol) (fun _ s' => Balanced s'.vol)
      ⟨v, (viewOf v).table idx⟩ := by
  have hlt := size.toNat_lt
  have hneed : size.toNat ≤ (blocksFor size.toNat).toNat * 4096 := le_blocksFor (by omega)
  refine (fileTruncate_ready h.ready hidx (h.housed idx) (h.occupies idx) who size).mono ?_ fun _ _ hb => h.same hb.1
  rintro _ ⟨v', e'⟩ ⟨_, ht⟩
  cases ht with
  | same _ hv _ =>
      change v' = v at hv
      rw [hv]
      exact h
  | @extended v₁ e₁ _ hreach hres =>
      obtain ⟨h₁, htable, hlive₁⟩ := h.reached hreach hlive
      rw [← htable] at hres hlive₁
      refine h₁.resized hres hlive₁ ?_
      rw [htable]
      exact hneed.trans (Nat.mul_le_mul_right 4096 hreach.enough)
  | kept hless _ hres =>
      exact h.resized hres hlive ((UInt32.lt_iff_toNat_lt.mp hless).le.trans (h.sized idx hlive))
  | cut _ hs => exact h.shrunk hs hlive hneed

theorem Balanced.held (h : Balanced v) {op : EntryOp} {α : Type} {p : EntryM α} {held : Entry}
    (hread : (entryRead idx v).1 = .ok held) (hidle : held.entryType ≠ entryFile → Idle p ⟨v, held⟩)
    (hedit : idx.toNat < v.sb.totalEntries.toNat → ((viewOf v).table idx).Live →
      wp p (fun _ s' => Balanced s'.vol) (fun _ s' => Balanced s'.vol) ⟨v, (viewOf v).table idx⟩)
    (hrun : op.run = (do let _ ← withEntry held p; pure ())) : Balanced (op.run v).2 := by
  obtain ⟨hidx, rfl, _⟩ := entryRead_fresh h.ready.stable (run_eq hread)
  have hall : wp p (fun _ s' => Balanced s'.vol) (fun _ s' => Balanced s'.vol) ⟨v, (viewOf v).table idx⟩ := by
    by_cases hfile : ((viewOf v).table idx).entryType = entryFile
    · exact hedit hidx (Entry.live_of_file hfile)
    · refine (hidle hfile).mono ?_ ?_
      · rintro _ _ rfl
        exact h
      · rintro _ _ rfl
        exact h
  have hop : wp op.run (fun _ v' => Balanced v') (fun _ v' => Balanced v') v := by
    rw [hrun, wp_bind, wp_withEntry]
    exact hall.mono (fun _ _ h => h) (fun _ _ h => h)
  exact hop.state

theorem Balanced.step (h : Balanced v) (op : EntryOp) (hread : op.FreshlyRead v) : Balanced (op.run v).2 := by
  cases op with
  | alloc who entryType name nameLen parent hname =>
      have hop : wp (EntryOp.run (.alloc who entryType name nameLen parent hname)) (fun _ v' => Balanced v')
          (fun _ v' => Balanced v') v := by
        unfold EntryOp.run
        rw [wp_bind]
        exact (entryAlloc_ready h.ready h.summed who entryType name nameLen parent).mono (fun _ _ hc => h.created hc)
          (fun _ _ hb => h.same hb.1)
      exact hop.state
  | free who idx =>
      have hop : wp (entryFree who idx) (fun _ v' => Balanced v') (fun _ v' => Balanced v') v :=
        (entryFree_ready h.ready who (h.summed idx)).mono (fun _ _ hf => h.freed hf)
          (fun _ _ hb => h.same (T := ∅) (.of_still hb.1))
      exact hop.state
  | write who idx held buf offset len hbuf =>
      exact h.held hread (fun hfile => idle_fileWrite_of_notFile hfile who idx buf offset len)
        (fun hidx hlive => h.fileWrite hidx hlive who hbuf) rfl
  | truncate who idx held size =>
      exact h.held hread (fun hfile => idle_fileTruncate_of_notFile hfile who idx size)
        (fun hidx hlive => h.fileTruncate hidx hlive who size) rfl

end

/-! ## フォーマットしたボリューム -/

theorem Balanced.of_fresh {who : OwIdentity} {sb₀ : Superblock} {v : Vol} (hu : Unused sb₀) (h : Fresh who sb₀ v) :
    Balanced v := by
  have hroot : (viewOf v).table 0 =
      createdEntry who sb₀ 0 entryCatalog modeDefaultDir (some [0x2F]) 1 0 sb₀.dataRegionStart 1 := by
    rw [h.view]
    exact Function.update_self (0 : UInt32) _ (fun _ => Entry.zero)
  have hother : ∀ {j}, j ≠ 0 → (viewOf v).table j = Entry.zero := by
    intro j hj
    rw [h.view]
    exact Function.update_of_ne hj _ (fun _ => Entry.zero)
  have hfirst : ((viewOf v).table 0).firstBlock = v.sb.dataRegionStart := by
    rw [hroot, h.dataRegionStart_eq]
    rfl
  have hcount : ((viewOf v).table 0).blockCount.toNat = 1 := by
    rw [hroot]
    rfl
  have hextent : ∀ r, r ∈ v.sb.extent ((viewOf v).table 0) ↔ r = 0 := by
    intro r
    unfold Superblock.extent Superblock.relOf
    rw [hfirst, hcount]
    simp
  have hempty : ∀ {j}, j ≠ 0 → v.sb.extent ((viewOf v).table j) = ∅ := by
    intro j hj
    rw [hother hj]
    exact Superblock.extent_eq_empty rfl
  have hne := h.ready.nonempty
  refine ⟨h.ready, h.summed, fun j => ?_, fun j hdead => ?_, ⟨Set.ext fun r => ?_, fun i j hij => ?_⟩,
    fun j hlive => ?_, ?_⟩
  · by_cases hj : j = 0
    · rw [hj]
      intro hpos
      refine ⟨hpos, by rw [hfirst], ?_⟩
      rw [hfirst, hcount]
      exact hne
    · rw [hother hj]
      exact fun hpos => absurd hpos (Nat.lt_irrefl 0)
  · by_cases hj : j = 0
    · rw [hj, hroot] at hdead
      exact absurd (by decide : entryCatalog ≠ 0 ∧ entryCatalog &&& entryDeleted = 0) hdead
    · rw [hother hj]
      rfl
  · have hused : r ∈ usedSet (viewOf v).used ↔ r = 0 := by
      have hbits : (viewOf v).used = fill (fun _ => false) 0 1 true := congrArg View.used h.view
      change (viewOf v).used r = true ↔ _
      rw [hbits, fill_true_iff]
      simp
    rw [hused, Set.mem_iUnion]
    constructor
    · rintro ⟨j, hj⟩
      by_cases hj0 : j = 0
      · rw [hj0] at hj
        exact (hextent r).mp hj
      · change r ∈ v.sb.extent ((viewOf v).table j) at hj
        rw [hempty hj0] at hj
        exact absurd hj (Set.notMem_empty _)
    · intro hr
      exact ⟨0, (hextent r).mpr hr⟩
  · change Disjoint (v.sb.extent _) (v.sb.extent _)
    by_cases hi : i = 0
    · rw [hempty fun hj => hij (hi.trans hj.symm)]
      exact Set.disjoint_empty _
    · rw [hempty hi]
      exact Set.empty_disjoint _
  · by_cases hj : j = 0
    · rw [hj, hroot]
      exact Nat.zero_le _
    · rw [hother hj] at hlive
      exact absurd rfl hlive.1
  · have hexact : v.sb.freeBlocks.toNat = freeCount v.dev.disk v.sb := h.freeExact hu
    rw [hexact]
    exact vacancies_congr fun i hi => by
      rw [Nat.zero_add]
      exact (bitsView_eq hi).symm

end OwStorage.Usfs
