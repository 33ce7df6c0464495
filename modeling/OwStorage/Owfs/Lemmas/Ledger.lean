import OwStorage.Owfs.Lemmas.InodeTable

/-!
# 空きの数の帳尻

失敗のない装置の上で、割り当てと解放が、使用中の集合と空きの数の欄をちょうどどれだけ変えるかを示す。割り当てを取り消すと、
ビットマップも欄も元に戻る。
-/

namespace OwStorage.Owfs

open Lib Prog

/-- 空きブロックの集まり `S` を使用中にし、空きの数を同じだけ減らした。 -/
structure Drawn (v v' : Vol) (S : Finset UInt32) : Prop where
  unused : ∀ b ∈ S, b ∈ unusedData v
  sb : v'.sb = { v.sb with freeBlocks := v.sb.freeBlocks - UInt32.ofNat S.card }
  used : usedSet v'.dev.disk v'.sb = usedSet v.dev.disk v.sb ∪ S

/-- 使用中のブロックの集まり `S` を空きに戻し、空きの数を同じだけ増やした。 -/
structure Repaid (v v' : Vol) (S : Finset UInt32) : Prop where
  held : ∀ b ∈ S, b ∈ usedSet v.dev.disk v.sb
  sb : v'.sb = { v.sb with freeBlocks := v.sb.freeBlocks + UInt32.ofNat S.card }
  used : usedSet v'.dev.disk v'.sb = usedSet v.dev.disk v.sb \ S

/-- ビットマップとスーパーブロックが変わっていない。 -/
structure Unspent (v v' : Vol) : Prop where
  sb : v'.sb = v.sb
  bitmap : ∀ x ∈ v.sb.bitmapRegion, v'.dev.disk x = v.dev.disk x

section

variable {v v₁ v₂ v' : Vol} {b : UInt32} {S T : Finset UInt32} {c : Nat} {blk : Block}

/-! ## 集まりの合わせ方 -/

theorem Still.unspent (h : Still v v') : Unspent v v' := by
  obtain ⟨c, rfl⟩ := h
  exact ⟨rfl, fun _ _ => rfl⟩

theorem Unspent.trans (h : Unspent v v₁) (h' : Unspent v₁ v₂) : Unspent v v₂ := by
  refine ⟨h'.sb.trans h.sb, fun x hx => ?_⟩
  rw [h'.bitmap x (by rwa [h.sb]), h.bitmap x hx]

theorem Unspent.usedSet_eq (h : Unspent v v') (hl : Layout v.sb) :
    usedSet v'.dev.disk v'.sb = usedSet v.dev.disk v.sb := by
  rw [h.sb, usedSet_congr hl h.bitmap]

theorem unspent_put (hl : Layout v.sb) (hb : v.sb.IsData b) : Unspent v (v.put b blk c) := by
  refine ⟨rfl, fun x hx => Function.update_of_ne ?_ _ _⟩
  rintro rfl
  exact hl.data_not_bitmap hb hx

theorem Drawn.refl (v : Vol) : Drawn v v ∅ := by
  refine ⟨fun _ hb => absurd hb (Finset.notMem_empty _), ?_, by simp⟩
  rw [Finset.card_empty]
  exact congrArg (fun k => { v.sb with freeBlocks := k }) (UInt32.sub_zero _).symm

theorem Repaid.refl (v : Vol) : Repaid v v ∅ := by
  refine ⟨fun _ hb => absurd hb (Finset.notMem_empty _), ?_, by simp⟩
  rw [Finset.card_empty]
  exact congrArg (fun k => { v.sb with freeBlocks := k }) (UInt32.add_zero _).symm

theorem Drawn.unspent (h : Drawn v v₁ S) (hu : Unspent v₁ v₂) (hl : Layout v₁.sb) : Drawn v v₂ S :=
  ⟨h.unused, hu.sb.trans h.sb, (hu.usedSet_eq hl).trans h.used⟩

theorem Repaid.unspent (h : Repaid v v₁ S) (hu : Unspent v₁ v₂) (hl : Layout v₁.sb) : Repaid v v₂ S :=
  ⟨h.held, hu.sb.trans h.sb, (hu.usedSet_eq hl).trans h.used⟩

theorem Flipped.drawn (h : Flipped v v' b true) : Drawn v v' {b} := by
  refine ⟨fun x hx => ?_, h.sb, ?_⟩
  · rw [Finset.mem_singleton.mp hx]
    refine ⟨h.isData, fun hu => ?_⟩
    exact Bool.noConfusion (h.was.symm.trans hu.2)
  · ext x
    rw [Finset.coe_singleton, Set.union_singleton, Set.mem_insert_iff]
    by_cases hx : v.sb.IsData x
    · rw [h.mem_usedSet hx]
      split <;> simp [*]
    · refine ⟨fun hu => absurd (h.sameShape.isData.mp hu.1) hx, ?_⟩
      rintro (rfl | hu)
      · exact absurd h.isData hx
      · exact absurd hu.1 hx

theorem Flipped.repaid (h : Flipped v v' b false) : Repaid v v' {b} := by
  refine ⟨fun x hx => ?_, h.sb, ?_⟩
  · rw [Finset.mem_singleton.mp hx]
    exact ⟨h.isData, h.was⟩
  · ext x
    rw [Finset.coe_singleton, Set.mem_sdiff, Set.mem_singleton_iff]
    by_cases hx : v.sb.IsData x
    · rw [h.mem_usedSet hx]
      split <;> simp [*]
    · exact ⟨fun hu => absurd (h.sameShape.isData.mp hu.1) hx, fun hu => absurd hu.1.1 hx⟩

theorem Drawn.trans (h : Drawn v v₁ S) (h' : Drawn v₁ v₂ T) : Drawn v v₂ (S ∪ T) := by
  have hdis : Disjoint S T := by
    refine Finset.disjoint_left.mpr fun x hx hx' => (h'.unused x hx').2 ?_
    rw [h.used]
    exact .inr hx
  refine ⟨fun x hx => ?_, ?_, ?_⟩
  · rcases Finset.mem_union.mp hx with hx | hx
    · exact h.unused x hx
    · have hu := h'.unused x hx
      refine ⟨?_, fun hused => hu.2 ?_⟩
      · have hd := hu.1
        rw [h.sb] at hd
        exact hd
      · rw [h.used]
        exact .inl hused
  · rw [h'.sb, h.sb, Finset.card_union_of_disjoint hdis, UInt32.ofNat_add, sub_sub_words]
  · rw [h'.used, h.used, Finset.coe_union, Set.union_assoc]

theorem Repaid.trans (h : Repaid v v₁ S) (h' : Repaid v₁ v₂ T) : Repaid v v₂ (S ∪ T) := by
  have hdis : Disjoint S T := by
    refine Finset.disjoint_left.mpr fun x hx hx' => ?_
    have hu := h'.held x hx'
    rw [h.used] at hu
    exact hu.2 hx
  refine ⟨fun x hx => ?_, ?_, ?_⟩
  · rcases Finset.mem_union.mp hx with hx | hx
    · exact h.held x hx
    · have hu := h'.held x hx
      rw [h.used] at hu
      exact hu.1
  · rw [h'.sb, h.sb, Finset.card_union_of_disjoint hdis, UInt32.ofNat_add, UInt32.add_assoc]
  · rw [h'.used, h.used, Finset.coe_union, Set.sdiff_sdiff]

/-- 空きブロックと返すブロックを合わせても、データ領域に収まる。 -/
theorem Repaid.room (h : Repaid v v' S) : freeCount v.dev.disk v.sb + S.card ≤ v.sb.dataCount := by
  have hinj : Set.InjOn v.sb.relOf S := fun x hx y hy hxy => relOf_inj (h.held x hx).1 (h.held y hy).1 hxy
  have hdis : Disjoint ((Finset.range v.sb.dataCount).filter fun r => bitOf v.dev.disk v.sb r = false)
      (S.image v.sb.relOf) := by
    refine Finset.disjoint_left.mpr fun r hr hr' => ?_
    obtain ⟨x, hx, rfl⟩ := Finset.mem_image.mp hr'
    exact Bool.noConfusion ((h.held x hx).2.symm.trans (Finset.mem_filter.mp hr).2)
  have hsub : (Finset.range v.sb.dataCount).filter (fun r => bitOf v.dev.disk v.sb r = false) ∪ S.image v.sb.relOf ⊆
      Finset.range v.sb.dataCount := by
    refine Finset.union_subset (Finset.filter_subset _ _) fun r hr => ?_
    obtain ⟨x, hx, rfl⟩ := Finset.mem_image.mp hr
    exact Finset.mem_range.mpr (h.held x hx).1.relOf_lt
  have hcard := Finset.card_le_card hsub
  rw [Finset.card_union_of_disjoint hdis, Finset.card_image_of_injOn hinj, Finset.card_range] at hcard
  unfold freeCount
  rwa [Nat.count_eq_card_filter_range]

theorem Repaid.toNat_freeBlocks (h : Repaid v v' S) (hx : FreeExact v.dev.disk v.sb) :
    v'.sb.freeBlocks.toNat = v.sb.freeBlocks.toNat + S.card := by
  have hroom := h.room
  have hcount : v.sb.dataCount < 2 ^ 32 := lt_of_le_of_lt (Nat.sub_le _ _) v.sb.totalBlocks.toNat_lt
  rw [← hx] at hroom
  have hsmall : S.card < 2 ^ 32 := by omega
  rw [h.sb]
  change (v.sb.freeBlocks + UInt32.ofNat S.card).toNat = _
  rw [toNat_add_lt (by rw [toNat_ofNat_lt hsmall]; omega), toNat_ofNat_lt hsmall]

theorem Flipped.undone (h : Flipped v v₁ b true) (hl : Layout v.sb) (hu : Unspent v₁ v₂)
    (h' : Flipped v₂ v' b false) : Unspent v v' := by
  have hsb : v₂.sb = { v.sb with freeBlocks := v.sb.freeBlocks - 1 } := hu.sb.trans h.sb
  refine ⟨?_, bitmap_eq_of_bitOf hl fun r hr => ?_⟩
  · rw [h'.sb, hsb]
    exact congrArg (fun k => { v.sb with freeBlocks := k }) (UInt32.sub_add_cancel _ _)
  · have hlast := h'.whole r (by rw [hsb]; exact hr)
    have hfirst := h.whole r hr
    have hmid : bitOf v₂.dev.disk v.sb r = bitOf v₁.dev.disk v.sb r := by
      have hmem := bitmapBlockOf_mem hl hr
      unfold bitOf
      rw [hu.bitmap _ (by rw [h.sb]; exact hmem)]
    rw [hsb] at hlast
    change bitOf v'.dev.disk v.sb r = if r = v.sb.relOf b then false else bitOf v₂.dev.disk v.sb r at hlast
    rw [hlast, hmid, hfirst]
    by_cases hrb : r = v.sb.relOf b
    · rw [if_pos hrb, hrb, h.was]
      rfl
    · rw [if_neg hrb, if_neg hrb]

/-- 空きの数が正しいなら、空きブロックのあるとき欄は 0 でない。 -/
theorem FreeExact.ne_zero (hx : FreeExact v.dev.disk v.sb) (hb : b ∈ unusedData v) : v.sb.freeBlocks ≠ 0 := by
  intro hz
  have hcount : freeCount v.dev.disk v.sb = 0 := by
    rw [← hx, hz]
    rfl
  have hbit := count_eq_zero_iff.mp hcount _ hb.1.relOf_lt
  exact hb.2 ⟨hb.1, by simpa using hbit⟩

theorem relOf_add {sb : Superblock} {r : Nat} (hr : r < sb.dataCount) :
    (sb.dataRegionStart + UInt32.ofNat r).toNat = sb.dataRegionStart.toNat + r ∧
      sb.relOf (sb.dataRegionStart + UInt32.ofNat r) = r := by
  unfold Superblock.dataCount at hr
  have hlt := sb.totalBlocks.toNat_lt
  have hb : (sb.dataRegionStart + UInt32.ofNat r).toNat = sb.dataRegionStart.toNat + r := by
    rw [toNat_add_lt (by rw [toNat_ofNat_lt (by omega)]; omega), toNat_ofNat_lt (by omega)]
  refine ⟨hb, ?_⟩
  unfold Superblock.relOf
  omega

theorem FreeExact.eq_zero (hx : FreeExact v.dev.disk v.sb)
    (hall : ∀ b, v.sb.IsData b → b ∈ usedSet v.dev.disk v.sb) : v.sb.freeBlocks = 0 := by
  apply UInt32.toNat_inj.mp
  rw [hx]
  refine count_eq_zero_iff.mpr fun r hr => ?_
  have hr : r < v.sb.totalBlocks.toNat - v.sb.dataRegionStart.toNat := hr
  have hlt := v.sb.totalBlocks.toNat_lt
  have hb : (v.sb.dataRegionStart + UInt32.ofNat r).toNat = v.sb.dataRegionStart.toNat + r := by
    rw [toNat_add_lt (by rw [toNat_ofNat_lt (by omega)]; omega), toNat_ofNat_lt (by omega)]
  have hrel : v.sb.relOf (v.sb.dataRegionStart + UInt32.ofNat r) = r := by
    unfold Superblock.relOf
    omega
  have hused := (hall (v.sb.dataRegionStart + UInt32.ofNat r) ⟨by omega, by omega⟩).2
  rw [hrel] at hused
  rw [hused]
  exact Bool.noConfusion

/-! ## 割り当て -/

/-- 使っていないデータブロックの、番号の順の並び。割り当ては先頭から取る。 -/
def freeList (v : Vol) : List UInt32 :=
  ((List.range v.sb.dataCount).filter fun r => ! bitOf v.dev.disk v.sb r).map
    fun r => v.sb.dataRegionStart + UInt32.ofNat r

/-- `b` より前のデータブロックは、どれも使われている。 -/
def Lowest (v : Vol) (b : UInt32) : Prop := ∀ b', v.sb.IsData b' → b'.toNat < b.toNat → b' ∈ usedSet v.dev.disk v.sb

theorem SameShape.freeList (h : SameShape v.sb v'.sb)
    (hbits : ∀ r, r < v.sb.dataCount → bitOf v'.dev.disk v.sb r = bitOf v.dev.disk v.sb r) :
    freeList v' = freeList v := by
  obtain ⟨x, y, hsb⟩ := h
  unfold Owfs.freeList
  rw [hsb]
  refine congrArg (List.map _) (List.filter_congr fun r hr => ?_)
  exact congrArg (! ·) (hbits r (List.mem_range.mp hr))

theorem Unspent.freeList (h : Unspent v v') (hl : Layout v.sb) : freeList v' = freeList v := by
  refine SameShape.freeList (by rw [h.sb]; exact refl_of SameShape v.sb) fun r hr => ?_
  exact bitOf_congr hl h.bitmap hr

theorem Flipped.freeList (h : Flipped v v' b true) (hlow : Lowest v b) : freeList v = b :: freeList v' := by
  have hlo := h.isData.1
  have hhi := h.isData.2
  have hr : v.sb.relOf b < v.sb.dataCount := by
    unfold Superblock.relOf Superblock.dataCount
    omega
  have hfilter := filter_range_first (f := fun r => ! bitOf v.dev.disk v.sb r) (g :=
    fun r => ! bitOf v'.dev.disk v.sb r) hr
    (by rw [h.was]; rfl) (fun x hx => ?_) (fun x hx => ?_)
  · obtain ⟨y, z, hsb⟩ := h.sameShape
    unfold Owfs.freeList
    rw [hfilter, hsb, List.map_cons]
    refine congrArg (· :: _) (UInt32.toNat_inj.mp ?_)
    rw [(relOf_add hr).1]
    unfold Superblock.relOf
    omega
  · have hb := relOf_add (hx.trans hr)
    have hused := hlow (v.sb.dataRegionStart + UInt32.ofNat x) ?_ ?_
    · have hbit := hused.2
      rw [hb.2] at hbit
      simp [hbit]
    · unfold Superblock.IsData
      have := hx.trans hr
      unfold Superblock.dataCount at this
      omega
    · unfold Superblock.relOf at hx
      omega
  · rw [h.bits x hx]
    by_cases he : x = v.sb.relOf b
    · rw [if_pos he, he]
      simp
    · rw [if_neg he]
      simp [he]

/-- 最も前のブロックを取り、0 で埋めた。 -/
def Fetched (v v' : Vol) (b : UInt32) : Prop :=
  ∃ v₁ c, Flipped v v₁ b true ∧ Lowest v b ∧ v' = v₁.put b (Bytes.zero 4096) c

theorem Fetched.unspent (h : Fetched v v' b) (hl : Layout v.sb) : ∃ v₁, Flipped v v₁ b true ∧ Unspent v₁ v' := by
  obtain ⟨v₁, c, hflip, _, rfl⟩ := h
  exact ⟨v₁, hflip, unspent_put (hflip.sameShape.layout hl) (hflip.sameShape.isData.mpr hflip.isData)⟩

theorem Fetched.drawn (h : Fetched v v' b) (hl : Layout v.sb) : Drawn v v' {b} := by
  obtain ⟨v₁, hflip, hu⟩ := h.unspent hl
  exact hflip.drawn.unspent hu (hflip.sameShape.layout hl)

theorem Fetched.freeList (h : Fetched v v' b) (hl : Layout v.sb) : freeList v = b :: freeList v' := by
  obtain ⟨v₁, c, hflip, hlow, rfl⟩ := h
  have hl₁ := hflip.sameShape.layout hl
  rw [hflip.freeList hlow, ← (unspent_put hl₁ (hflip.sameShape.isData.mpr hflip.isData)).freeList hl₁]

theorem Fetched.isData (h : Fetched v v' b) : v.sb.IsData b := by
  obtain ⟨_, _, hflip, _⟩ := h
  exact hflip.isData

theorem Fetched.freeExact (h : Fetched v v' b) (hl : Layout v.sb) (hx : FreeExact v.dev.disk v.sb) :
    FreeExact v'.dev.disk v'.sb ∧ v.sb.freeBlocks.toNat = v'.sb.freeBlocks.toNat + 1 := by
  have hne := hx.ne_zero ((h.drawn hl).unused b (Finset.mem_singleton_self b))
  obtain ⟨v₁, hflip, hu⟩ := h.unspent hl
  have hpos : v.sb.freeBlocks.toNat ≠ 0 := fun he => hne (UInt32.toNat_inj.mp he)
  refine ⟨?_, ?_⟩
  · have hx₁ := hflip.freeExact hx
    unfold FreeExact at hx₁ ⊢
    rw [hu.sb, hx₁]
    exact (freeCount_congr (hflip.sameShape.layout hl) hu.bitmap).symm
  · rw [hu.sb, hflip.sb]
    change _ = (v.sb.freeBlocks - 1).toNat + 1
    rw [toNat_sub_le (by change 1 ≤ _; omega)]
    change _ = v.sb.freeBlocks.toNat - 1 + 1
    omega

theorem Fetched.still (h : Fetched v v₁ b) (hs : Still v₁ v₂) : Fetched v v₂ b := by
  obtain ⟨w, c, hflip, hlow, rfl⟩ := h
  obtain ⟨c', rfl⟩ := hs
  exact ⟨w, c', hflip, hlow, rfl⟩

theorem Fetched.shape (h : Fetched v v' b) : SameShape v.sb v'.sb := by
  obtain ⟨v₁, c, hflip, _, rfl⟩ := h
  exact hflip.sameShape

theorem Fetched.config (h : Fetched v v' b) : v'.dev.toHtlConfig = v.dev.toHtlConfig := by
  obtain ⟨v₁, c, hflip, _, rfl⟩ := h
  exact hflip.dev.config

theorem Fetched.zeroed (h : Fetched v v' b) : v'.dev.disk b = Bytes.zero 4096 := by
  obtain ⟨v₁, c, _, _, rfl⟩ := h
  exact Function.update_self _ _ _

theorem Fetched.disk_eq (h : Fetched v v' b) (hl : Layout v.sb) {x : UInt32} (hx : v.sb.IsData x) (hne : x ≠ b) :
    v'.dev.disk x = v.dev.disk x := by
  obtain ⟨v₁, c, hflip, _, rfl⟩ := h
  exact (Function.update_of_ne hne _ _).trans (hflip.dev.disk x (hl.data_not_bitmap hx))

/-- 空きブロックが一つもない。 -/
def Full (v : Vol) : Prop := v.sb.freeBlocks = 0 ∨ ∀ b, v.sb.IsData b → b ∈ usedSet v.dev.disk v.sb

theorem Full.freeBlocks (h : Full v) (hx : FreeExact v.dev.disk v.sb) : v.sb.freeBlocks = 0 := h.elim id hx.eq_zero

/-- 割り当ては、成功すれば空きの最も低いものを取る。失敗のない装置では、空きのないときにだけ断る。 -/
theorem allocAndZero_fetches (hl : Layout v.sb) :
    wp allocAndZero (fun b v' => Fetched v v' b)
      (fun e v' => v.dev.FaultFree ∧ Serves v.dev.toHtlConfig v.sb → e = .noFreeBlocks ∧ Still v v' ∧ Full v) v := by
  unfold allocAndZero
  rw [wp_bind]
  refine (bitmapAlloc_spec hl).mono ?_ ?_
  · rintro b v₁ ⟨hflip, hlow⟩
    have hd := hflip.isData
    rw [wp_bind, wp_attempt]
    refine wp_zeroBlk (fun c _ => ⟨v₁, c, hflip, hlow, rfl⟩) (fun e c _ hno => ?_)
    simp only [wp_bind, wp_attempt, wp_throw]
    have hbad : ¬ (v.dev.FaultFree ∧ Serves v.dev.toHtlConfig v.sb) := fun hon => by
      refine hno ⟨hflip.dev.faultFree hon.1, ?_, ?_⟩
      · rw [hflip.dev.config]
        exact hon.2.writes b hd.2
      · rw [hflip.dev.config]
        exact hon.2.wholeBlocks.le
    exact wp_trivial.mono (fun _ _ _ hon => absurd hon hbad) (fun _ _ _ hon => absurd hon hbad)
  · rintro e v₁ ⟨hstill, ⟨rfl, hfull⟩ | ⟨_, hno⟩⟩
    · exact fun _ => ⟨rfl, hstill, hfull⟩
    · exact fun hon => absurd hon hno

theorem allocAndZero_exact (hl : Layout v.sb) (hf : v.dev.FaultFree) (hs : Serves v.dev.toHtlConfig v.sb) :
    wp allocAndZero (fun b v' => Fetched v v' b) (fun e v' => e = .noFreeBlocks ∧ Still v v' ∧ Full v) v :=
  (allocAndZero_fetches hl).mono (fun _ _ h => h) (fun _ _ h => h ⟨hf, hs⟩)

theorem bitmapFree_exact (hl : Layout v.sb) (hf : v.dev.FaultFree) (hs : Serves v.dev.toHtlConfig v.sb)
    (hb : b ∈ usedSet v.dev.disk v.sb) :
    wp (bitmapFree b) (fun _ v' => Flipped v v' b false) (fun _ _ => False) v := by
  refine (bitmapFree_spec hl b).mono ?_ ?_
  · rintro _ v' ⟨_, hflip | ⟨hno, _⟩⟩
    · exact hflip
    · exact absurd hb hno
  · rintro e v' ⟨_, ⟨_, hd⟩ | ⟨_, hno⟩⟩
    · exact hd hb.1
    · exact hno ⟨hf, hs⟩

end

/-! ## ブロック表 -/

/-- 番号 `c` のブロックを加えるのに要る空きの数。番号 10 では、間接ブロックも要る。 -/
def stepCost (c : Nat) : Nat := if c = 10 then 2 else 1

/-- 番号 `c` のブロックを加えた結果。 -/
structure Grown (v v' : Vol) (c : Nat) (ind b : UInt32) (S : Finset UInt32) : Prop where
  drawn : Drawn v v' S
  card : S.card = stepCost c
  members : S = if c = 10 then {b, ind} else {b}
  zeroed : v'.dev.disk b = Bytes.zero 4096
  taken : freeList v = if c = 10 then b :: ind :: freeList v' else b :: freeList v'
  exact : FreeExact v.dev.disk v.sb → v.sb.freeBlocks.toNat = v'.sb.freeBlocks.toNat + stepCost c

/-- 空きが足りずに、何も変えずに断った結果。 -/
structure Denied (v v' : Vol) (c : Nat) (e : OwfsErr) : Prop where
  error : e = .noFreeBlocks
  unspent : Unspent v v'
  exact : FreeExact v.dev.disk v.sb → v.sb.freeBlocks.toNat < stepCost c

section

variable {f : UInt32 → Inode} {n : UInt32} {s : FileState} {v : Vol} {b : UInt32}

theorem ensureIndirect_grows (hn : n.toNat < s.vol.sb.totalInodes.toNat)
    (h : Sound s.vol.dev.disk s.vol.sb (Function.update f n s.inode)) (hlo : 10 ≤ s.inode.blockCount.toNat)
    (hb : Fetched s.vol v b) :
    wp (ensureIndirect s.inode.blockCount b)
      (fun _ s' => ∃ S, Grown s.vol s'.vol s.inode.blockCount.toNat s'.inode.indirectBlock b S)
      (fun e s' => s.vol.dev.FaultFree ∧ Serves s.vol.dev.toHtlConfig s.vol.sb →
        Denied s.vol s'.vol s.inode.blockCount.toNat e) ⟨v, s.inode⟩ := by
  have hl := h.layout
  have hl₁ : Layout v.sb := hb.shape.layout hl
  have hshaped := h.shaped_self hn
  have hon₁ : s.vol.dev.FaultFree ∧ Serves s.vol.dev.toHtlConfig s.vol.sb →
      v.dev.FaultFree ∧ Serves v.dev.toHtlConfig v.sb := fun hon => by
    unfold HtlConfig.FaultFree at hon ⊢
    rw [hb.config]
    exact ⟨hon.1, hb.shape.serves hon.2⟩
  have hdb : b ∈ unusedData s.vol := (hb.drawn hl).unused b (Finset.mem_singleton_self b)
  unfold ensureIndirect
  simp only [wp_bind, wp_get, wp_ite]
  refine ⟨fun hz => ?_, fun hnz => ?_⟩
  · -- 間接ブロックも、空きから取る。
    have hten : s.inode.blockCount.toNat = 10 := by
      have := hshaped.indirect
      simp only [hz, ne_eq, not_true_eq_false, false_iff] at this
      omega
    rw [wp_attempt, wp_onVol]
    refine (allocAndZero_fetches hl₁).mono ?_ ?_
    · intro ind v' hind
      have hdi := (hind.drawn hl₁).unused ind (Finset.mem_singleton_self ind)
      have hne : b ≠ ind := by
        rintro rfl
        refine hdi.2 ?_
        rw [(hb.drawn hl).used]
        exact .inr (Finset.mem_singleton_self b)
      have hdata' : v'.sb.IsData ind := hind.shape.isData.mpr hind.isData
      simp only [wp_bind, wp_modifyInode, wp_pure, wp_attempt, wp_onVol]
      refine wp_writeBlk (fun c _ => ⟨{b} ∪ {ind}, ?_, ?_, ?_, ?_, ?_, fun hx => ?_⟩) (fun e c _ hno => ?_)
      · exact ((hb.drawn hl).trans (hind.drawn hl₁)).unspent (unspent_put (hind.shape.layout hl₁) hdata')
          (hind.shape.layout hl₁)
      · unfold stepCost
        rw [if_pos hten, Finset.card_union_of_disjoint (Finset.disjoint_singleton.mpr hne)]
        rfl
      · rw [if_pos hten]
        rfl
      · change Function.update v'.dev.disk ind _ b = _
        rw [Function.update_of_ne hne, hind.disk_eq hl₁ (hb.shape.isData.mpr hdb.1) hne, hb.zeroed]
      · rw [if_pos hten, hb.freeList hl, hind.freeList hl₁,
          (unspent_put (hind.shape.layout hl₁) hdata').freeList (hind.shape.layout hl₁)]
      · obtain ⟨hx₁, hfree⟩ := hb.freeExact hl hx
        obtain ⟨_, hfree'⟩ := hind.freeExact hl₁ hx₁
        unfold stepCost
        rw [if_pos hten]
        change s.vol.sb.freeBlocks.toNat = v'.sb.freeBlocks.toNat + 2
        omega
      · have hbad : ¬ (s.vol.dev.FaultFree ∧ Serves s.vol.dev.toHtlConfig s.vol.sb) := fun hon => by
          refine hno ⟨?_, ?_⟩
          · have hf := (hon₁ hon).1
            unfold HtlConfig.FaultFree at hf ⊢
            rwa [hind.config]
          · rw [hind.config]
            exact (hon₁ hon).2.writes ind hind.isData.2
        simp only [wp_bind, wp_attempt, wp_onVol, wp_ite, wp_modifyInode, wp_throw]
        refine wp_trivial.mono ?_ ?_ <;>
        · intro _ v'' _
          refine ⟨fun _ => ?_, fun _ hon => absurd hon hbad⟩
          exact wp_trivial.mono (fun _ _ _ hon => absurd hon hbad) (fun _ _ _ hon => absurd hon hbad)
    · intro e v' hwhy
      simp only [wp_bind, wp_attempt, wp_onVol, wp_throw]
      by_cases hon : s.vol.dev.FaultFree ∧ Serves s.vol.dev.toHtlConfig s.vol.sb
      swap
      · exact wp_trivial.mono (fun _ _ _ h => absurd h hon) (fun _ _ _ h => absurd h hon)
      obtain ⟨rfl, hstill, hfull⟩ := hwhy (hon₁ hon)
      have hb' := hb.still hstill
      obtain ⟨v₁, hflip, hu⟩ := hb'.unspent hl
      have hused : b ∈ usedSet v'.dev.disk v'.sb := by
        rw [(hb'.drawn hl).used]
        exact .inr (Finset.mem_singleton_self b)
      have hf' : v'.dev.FaultFree := by
        have hf := hon.1
        unfold HtlConfig.FaultFree at hf ⊢
        rwa [hb'.config]
      have hs' : Serves v'.dev.toHtlConfig v'.sb := by
        rw [hb'.config]
        exact hb'.shape.serves hon.2
      refine (bitmapFree_exact (hb'.shape.layout hl) hf' hs' hused).mono ?_ (fun _ _ hno => hno.elim)
      intro _ v₂ hback _
      refine ⟨rfl, hflip.undone hl hu hback, fun hx => ?_⟩
      obtain ⟨hx₁, hfree⟩ := hb.freeExact hl hx
      have hzero := hfull.freeBlocks hx₁
      unfold stepCost
      rw [if_pos hten, hfree, hzero]
      decide
  · -- 間接ブロックは前からある。
    have hbig : 10 < s.inode.blockCount.toNat := hshaped.indirect.mp hnz
    have hlive : (n, none) ∈ refs s.vol.sb (Function.update f n s.inode) := mem_refs_update_self.mpr ⟨hn, hnz⟩
    have hmap := h.owns.mapsTo hlive
    rw [target_update_self] at hmap
    have hmap : s.inode.indirectBlock ∈ usedSet s.vol.dev.disk s.vol.sb := hmap
    have hne : b ≠ s.inode.indirectBlock := by
      rintro rfl
      exact hdb.2 hmap
    have hw : s.vol.dev.FaultFree ∧ Serves s.vol.dev.toHtlConfig s.vol.sb →
        v.dev.FaultFree ∧ v.dev.Writes s.inode.indirectBlock := fun hon => by
      refine ⟨(hon₁ hon).1, ?_⟩
      rw [hb.config]
      exact hon.2.writes _ hmap.1.2
    simp only [wp_attempt, wp_onVol]
    refine wp_readBlk (fun c _ => ?_) (fun c hno => ?_)
    swap
    · simp only [wp_bind, wp_attempt, wp_onVol, wp_throw]
      exact wp_trivial.mono (fun _ _ _ hon => absurd ⟨(hw hon).1, (hw hon).2.toReads⟩ hno)
        (fun _ _ _ hon => absurd ⟨(hw hon).1, (hw hon).2.toReads⟩ hno)
    simp only [wp_pure, wp_bind, wp_attempt, wp_onVol]
    refine wp_writeBlk (fun c' _ => ⟨{b}, ?_, ?_, ?_, ?_, ?_, fun hx => ?_⟩) (fun e c' _ hno => ?_)
    · exact ((hb.still ⟨c, rfl⟩).drawn hl).unspent (unspent_put hl₁ (hb.shape.isData.mpr hmap.1)) hl₁
    · unfold stepCost
      rw [if_neg (by omega), Finset.card_singleton]
    · rw [if_neg (by omega)]
    · change Function.update v.dev.disk s.inode.indirectBlock _ b = _
      rw [Function.update_of_ne hne, hb.zeroed]
    · rw [if_neg (by omega), (hb.still ⟨c, rfl⟩).freeList hl,
        (unspent_put (v := v.atClock c) hl₁ (hb.shape.isData.mpr hmap.1)).freeList hl₁]
    · unfold stepCost
      rw [if_neg (by omega)]
      exact (hb.freeExact hl hx).2
    · simp only [wp_bind, wp_attempt, wp_onVol, wp_ite, wp_modifyInode, wp_throw]
      refine wp_trivial.mono ?_ ?_ <;>
      · intro _ v'' _
        refine ⟨fun _ => ?_, fun _ hon => absurd (hw hon) hno⟩
        exact wp_trivial.mono (fun _ _ _ hon => absurd (hw hon) hno) (fun _ _ _ hon => absurd (hw hon) hno)

/-- 次の番号のブロックを用意する。失敗のない装置で断るのは、空きの足りないときだけである。 -/
theorem blockmapEnsure_grows (hn : n.toNat < s.vol.sb.totalInodes.toNat)
    (h : Sound s.vol.dev.disk s.vol.sb (Function.update f n s.inode)) :
    wp (blockmapEnsure s.inode.blockCount)
      (fun b s' => ∃ S, Grown s.vol s'.vol s.inode.blockCount.toNat s'.inode.indirectBlock b S)
      (fun e s' => s.vol.dev.FaultFree ∧ Serves s.vol.dev.toHtlConfig s.vol.sb → volumeWritable s.vol.sb = .ok () →
        s.inode.blockCount.toNat < 1034 → Denied s.vol s'.vol s.inode.blockCount.toNat e) s := by
  have hl := h.layout
  unfold blockmapEnsure
  simp only [wp_bind, wp_get, wp_failIf, wp_ofExcept, wp_ite]
  refine ⟨fun hge _ _ hhi => ?_, fun _ => ⟨fun _ _ => ⟨fun hlt => absurd hlt (UInt32.lt_irrefl _), fun _ =>
    ⟨fun hne => absurd rfl hne, fun _ => ?_⟩⟩, fun e he _ hw => ?_⟩⟩
  · have hge := UInt32.le_iff_toNat_le.mp hge
    exact absurd hge (Nat.not_le.mpr hhi)
  · rw [wp_onVol]
    refine (allocAndZero_fetches hl).mono ?_ ?_
    · intro b v hb
      refine ⟨fun hlt => ?_, fun hge => ?_⟩
      · have hten : s.inode.blockCount.toNat ≠ 10 := Nat.ne_of_lt (UInt32.lt_iff_toNat_lt.mp hlt)
        refine ⟨{b}, hb.drawn hl, ?_, ?_, hb.zeroed, ?_, fun hx => ?_⟩
        · unfold stepCost
          rw [if_neg hten, Finset.card_singleton]
        · rw [if_neg hten]
        · rw [if_neg hten]
          exact hb.freeList hl
        · unfold stepCost
          rw [if_neg hten]
          exact (hb.freeExact hl hx).2
      · have hlo : 10 ≤ s.inode.blockCount.toNat := by
          rw [UInt32.not_lt, UInt32.le_iff_toNat_le] at hge
          exact hge
        exact (ensureIndirect_grows hn h hlo hb).mono (fun _ _ hg => hg) (fun _ _ hd hon _ _ => hd hon)
    · intro e v hwhy hon _ _
      obtain ⟨rfl, hstill, hfull⟩ := hwhy hon
      refine ⟨rfl, hstill.unspent, fun hx => ?_⟩
      rw [hfull.freeBlocks hx]
      unfold stepCost
      split <;> decide
  · rw [hw] at he
    cases he

theorem blockmapEnsure_exact (hn : n.toNat < s.vol.sb.totalInodes.toNat)
    (h : Sound s.vol.dev.disk s.vol.sb (Function.update f n s.inode)) (hf : s.vol.dev.FaultFree)
    (hs : Serves s.vol.dev.toHtlConfig s.vol.sb) (hw : volumeWritable s.vol.sb = .ok ())
    (hhi : s.inode.blockCount.toNat < 1034) :
    wp (blockmapEnsure s.inode.blockCount)
      (fun b s' => ∃ S, Grown s.vol s'.vol s.inode.blockCount.toNat s'.inode.indirectBlock b S)
      (fun e s' => Denied s.vol s'.vol s.inode.blockCount.toNat e) s :=
  (blockmapEnsure_grows hn h).mono (fun _ _ hg => hg) (fun _ _ hd => hd ⟨hf, hs⟩ hw hhi)

theorem blockmapEnsure_unspent (hn : n.toNat < s.vol.sb.totalInodes.toNat)
    (h : Sound s.vol.dev.disk s.vol.sb (Function.update f n s.inode)) (hf : s.vol.dev.FaultFree)
    (hs : Serves s.vol.dev.toHtlConfig s.vol.sb) (hw : volumeWritable s.vol.sb = .ok ()) :
    wp (blockmapEnsure s.inode.blockCount) (fun _ _ => True) (fun _ s' => Unspent s.vol s'.vol) s := by
  by_cases hhi : s.inode.blockCount.toNat < 1034
  · exact (blockmapEnsure_exact hn h hf hs hw hhi).mono (fun _ _ _ => trivial) (fun _ _ hd => hd.unspent)
  · have hbig : s.inode.blockCount ≥ 1034 := UInt32.le_iff_toNat_le.mpr (Nat.not_lt.mp hhi)
    have hidle : Idle (blockmapEnsure s.inode.blockCount) s := .get_bind (.stopped hbig)
    refine hidle.mono (fun _ _ _ => trivial) ?_
    rintro _ _ rfl
    exact (refl_of Still _).unspent

/-! ## 解放 -/

/-- 番号 `lo` からの解放で返すブロック。間接ブロックは、要らなくなるときに返す。 -/
def releasedBlocks (disk : Disk) (ino : Inode) (lo : Nat) : Finset UInt32 :=
  ((Finset.range (ino.blockCount.toNat - lo)).image fun j => mapBlock disk ino (lo + j)) ∪
    if lo ≤ 10 ∧ 10 < ino.blockCount.toNat then {ino.indirectBlock} else ∅

theorem card_releasedBlocks (hn : n.toNat < s.vol.sb.totalInodes.toNat)
    (h : Sound s.vol.dev.disk s.vol.sb (Function.update f n s.inode)) (lo : Nat) :
    (releasedBlocks s.vol.dev.disk s.inode lo).card =
      s.inode.blockCount.toNat - lo + if lo ≤ 10 ∧ 10 < s.inode.blockCount.toNat then 1 else 0 := by
  have hinj : Set.InjOn (fun j => mapBlock s.vol.dev.disk s.inode (lo + j))
      (Finset.range (s.inode.blockCount.toNat - lo)) := by
    intro i hi j hj hij
    have hi := Finset.mem_range.mp hi
    have hj := Finset.mem_range.mp hj
    by_contra hne
    exact h.mapped_ne_self hn (i := lo + i) (j := lo + j) (by omega) (by omega) (by omega) hij
  unfold releasedBlocks
  by_cases hdrop : lo ≤ 10 ∧ 10 < s.inode.blockCount.toNat
  · have hind : (n, none) ∈ refs s.vol.sb (Function.update f n s.inode) :=
      mem_refs_update_self.mpr ⟨hn, (h.shaped_self hn).indirect.mpr hdrop.2⟩
    rw [if_pos hdrop, if_pos hdrop, Finset.card_union_of_disjoint, Finset.card_image_of_injOn hinj, Finset.card_range,
      Finset.card_singleton]
    refine Finset.disjoint_singleton_right.mpr fun hmem => ?_
    obtain ⟨j, hj, hij⟩ := Finset.mem_image.mp hmem
    have hj := Finset.mem_range.mp hj
    have hne := h.mapped_ne_indirect hn (i := lo + j) (by omega) hind
    rw [Function.update_self] at hne
    exact hne hij.symm
  · rw [if_neg hdrop, if_neg hdrop, Finset.union_empty, Finset.card_image_of_injOn hinj, Finset.card_range]
    rfl

/-- 番号 `lo` からの解放の結果。返すべきブロックをちょうど返し、残した番号の対応は変わらない。 -/
structure Trimmed (s s' : FileState) (lo : Nat) : Prop where
  repaid : Repaid s.vol s'.vol (releasedBlocks s.vol.dev.disk s.inode lo)
  keeps : ∀ i, i < lo → i < s.inode.blockCount.toNat →
    mapBlock s'.vol.dev.disk s'.inode i = mapBlock s.vol.dev.disk s.inode i

theorem Trimmed.refl {lo : Nat} (h : s.inode.blockCount.toNat ≤ lo) : Trimmed s s lo := by
  have hnone : releasedBlocks s.vol.dev.disk s.inode lo = ∅ := by
    unfold releasedBlocks
    rw [show s.inode.blockCount.toNat - lo = 0 by omega, if_neg (by omega)]
    rfl
  refine ⟨?_, fun _ _ _ => rfl⟩
  rw [hnone]
  exact .refl _

theorem blockmapRelease_exact (hn : n.toNat < s.vol.sb.totalInodes.toNat)
    (h : Sound s.vol.dev.disk s.vol.sb (Function.update f n s.inode)) (hf : s.vol.dev.FaultFree)
    (hs : Serves s.vol.dev.toHtlConfig s.vol.sb) (hw : volumeWritable s.vol.sb = .ok ()) (fromIdx : UInt32) :
    wp (blockmapRelease fromIdx) (fun _ s' => Trimmed s s' fromIdx.toNat) (fun _ _ => False) s := by
  have hl := h.layout
  have hshaped := h.shaped_self hn
  -- 一つの参照の先を返す。
  have hgive : ∀ {v : Vol} {gone : Set (Option Nat)} {S : Finset UInt32} {r : Option Nat}, Returned f n s v gone →
      Repaid s.vol v S → s.inode.HasRef r → r ∉ gone →
      wp (bitmapFree (refBlock s.vol.dev.disk s.inode r))
        (fun _ v' => Returned f n s v' (insert r gone) ∧ Repaid s.vol v' (S ∪ {refBlock s.vol.dev.disk s.inode r}))
        (fun _ _ => False) v := by
    intro v gone S r hr hrep href hgone
    have hf' : v.dev.FaultFree := hr.dev.faultFree hf
    have hs' : Serves v.dev.toHtlConfig v.sb := by
      rw [hr.dev.config]
      exact hr.shape.serves hs
    have hlive : (n, r) ∈ { x ∈ refs s.vol.sb (Function.update f n s.inode) | ¬ (x.1 = n ∧ x.2 ∈ gone) } :=
      ⟨mem_refs_update_self.mpr ⟨hn, href⟩, fun hx => hgone hx.2⟩
    have hused := hr.owns.mapsTo hlive
    rw [target_update_self] at hused
    exact ((hr.free h hn hf hs href hgone).and (bitmapFree_exact (hr.layout h) hf' hs' hused)).mono
      (fun _ _ hb => ⟨hb.1, hrep.trans hb.2.repaid⟩) (fun _ _ hno => hno.1)
  unfold blockmapRelease
  simp only [wp_bind, wp_get, wp_ofExcept, wp_ite]
  refine ⟨fun _ _ => ⟨fun hge => ?_, fun hlt => ?_⟩, fun e he => ?_⟩
  · exact .refl (UInt32.le_iff_toNat_le.mp hge)
  · rw [ge_iff_le, UInt32.not_le, UInt32.lt_iff_toNat_lt] at hlt
    have hcount : (s.inode.blockCount - fromIdx).toNat = s.inode.blockCount.toNat - fromIdx.toNat :=
      toNat_sub_le hlt.le
    refine wp_loop (fun k ibuf s' => s'.inode = s.inode ∧ Returned f n s s'.vol (refRange fromIdx.toNat k) ∧
      Repaid s.vol s'.vol ((Finset.range k).image fun j => mapBlock s.vol.dev.disk s.inode (fromIdx.toNat + j)) ∧
      ∀ buf, ibuf = some buf → buf = s.vol.dev.disk s.inode.indirectBlock) ⟨rfl, ?_, .refl _, by simp⟩ ?_ ?_
    · rw [refRange_zero]
      exact .start h
    · rintro k ibuf ⟨v₁, ino⟩ hk ⟨hino, hr, hrep, hbuf⟩
      obtain rfl : ino = s.inode := hino
      have hidx : (fromIdx + UInt32.ofNat k).toNat = fromIdx.toNat + k := by
        have := s.inode.blockCount.toNat_lt
        rw [toNat_add_lt (by rw [toNat_ofNat_lt (by omega)]; omega), toNat_ofNat_lt (by omega)]
      simp only [wp_bind]
      refine ((releaseTarget_spec hr h hn hf hs (by rw [hidx]; omega) hbuf).and (still_releaseTarget _ _ _ _)).mono ?_
        (fun _ _ hno => hno.1)
      rintro ⟨b, ibuf'⟩ ⟨v₂, ino⟩ ⟨⟨hb, hbuf', hino, hr'⟩, hstill⟩
      obtain rfl : ino = s.inode := hino
      simp only at hb hbuf'
      have hi : fromIdx.toNat + k < s.inode.blockCount.toNat := by omega
      have hnz : b ≠ 0 := by
        rw [hb, hidx]
        exact hl.data_ne_zero (h.mapBlock_isData hn hi)
      simp only [wp_bind, wp_whenever, wp_onVol]
      refine ⟨fun _ => ?_, fun hz => absurd hnz hz⟩
      rw [hb, hidx]
      refine (hgive (r := some (fromIdx.toNat + k)) hr'
        (hrep.unspent (Still.unspent hstill) (hr.layout h)) hi ?_).mono ?_
        (fun _ _ hno => hno.elim)
      · rintro ⟨j, hj, hj'⟩
        have := Option.some.inj hj
        omega
      · rintro _ v₃ ⟨hr'', hrep'⟩
        rw [insert_refRange] at hr''
        refine ⟨rfl, hr'', ?_, hbuf'⟩
        rw [Finset.range_add_one, Finset.image_insert, Finset.insert_eq, Finset.union_comm]
        exact hrep'
    · rintro ibuf ⟨v₁, ino⟩ ⟨hino, hr, hrep, _⟩
      obtain rfl : ino = s.inode := hino
      simp only [wp_modifyInode, wp_whenever, wp_bind, wp_onVol]
      rw [hcount] at hrep
      refine ⟨fun hdrop => ?_, fun hkeep => ?_⟩
      · have hsmall : fromIdx.toNat ≤ 10 := Nat.not_lt.mp fun hb => hdrop.1 (UInt32.lt_iff_toNat_lt.mpr hb)
        refine (hgive (r := none) hr hrep hdrop.2 ?_).mono ?_ (fun _ _ hno => hno.elim)
        · rintro ⟨j, hj, _⟩
          cases hj
        · rintro _ v₂ ⟨_, hrep'⟩
          refine ⟨?_, fun i hi _ => mapBlock_cut hi fun h10 => absurd (lt_of_lt_of_le hi hsmall) (Nat.not_lt.mpr h10)⟩
          unfold releasedBlocks
          rw [if_pos ⟨hsmall, hshaped.indirect.mp hdrop.2⟩]
          exact hrep'
      · refine ⟨?_, fun i hi hbc => mapBlock_cut hi fun h10 => ?_⟩
        · unfold releasedBlocks
          rw [if_neg, Finset.union_empty]
          · exact hrep
          · rintro ⟨hsmall, hbig⟩
            exact hkeep ⟨fun hb => absurd (UInt32.lt_iff_toNat_lt.mp hb) (Nat.not_lt.mpr hsmall),
              hshaped.indirect.mpr hbig⟩
        · have hd := h.isData (x := (n, none)) (mem_refs_update_self.mpr ⟨hn, hshaped.indirect.mpr (by omega)⟩)
          rw [target_update_self] at hd
          exact hr.disk_eq hl hd
  · rw [hw] at he
    cases he

end

end OwStorage.Owfs
