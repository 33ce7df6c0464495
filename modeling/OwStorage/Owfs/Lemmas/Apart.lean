import OwStorage.Owfs.Lemmas.Inside

/-!
# 間接ブロックの離れた記録

間接ブロックがビットマップの外にあり、データ領域の中なら使用中でファイル自身のデータのブロックではない、という条件は、ブロックを
いくつ足しても保たれる。整合したボリュームの inode はこれを満たすので、追加の先を調べなくてよい。
-/

namespace OwStorage.Owfs

open Lib

/-- 番号 1034 未満のポインタは範囲の中を指し、間接ブロックは離れている。間接ブロックがなければ、直接のブロックは使用中である。 -/
structure Scene.Apart (x : Scene) : Prop where
  layout : Layout x.sb
  within : ∀ i < 1034, i < x.ino.blockCount.toNat → (10 ≤ i → x.ino.indirectBlock ≠ 0) → x.PointsInside i
  outside : x.ino.indirectBlock ≠ 0 → x.ino.indirectBlock ∉ x.sb.bitmapRegion
  own : x.ino.indirectBlock ≠ 0 → x.sb.IsData x.ino.indirectBlock → x.ino.indirectBlock ∈ usedSet x.disk x.sb ∧
    ∀ i < 1034, i < x.ino.blockCount.toNat → x.block i ≠ x.ino.indirectBlock
  direct : x.ino.indirectBlock = 0 → ∀ i < 10, i < x.ino.blockCount.toNat → x.sb.IsData (x.block i) →
    x.block i ∈ usedSet x.disk x.sb

/-- 空きブロック `b` を取り、0 で埋めた。 -/
structure Scene.Seized (x y : Scene) (b : UInt32) : Prop where
  shape : SameShape x.sb y.sb
  ino : y.ino = x.ino
  isData : x.sb.IsData b
  fresh : b ∉ usedSet x.disk x.sb
  used : b ∈ usedSet y.disk y.sb
  more : usedSet x.disk x.sb ⊆ usedSet y.disk y.sb
  zeroed : y.disk b = Bytes.zero 4096
  disk : ∀ z, z ∉ x.sb.bitmapRegion → z ≠ b → y.disk z = x.disk z

namespace Scene

variable {c : HtlConfig} {x y z : Scene} {b : UInt32}

theorem seized_of_take (hl : Layout x.sb) (h : x.take = some (b, y)) : x.Seized y b := by
  obtain ⟨hfind, rfl⟩ := take_eq h
  obtain ⟨hdata, hfresh⟩ := lowestFree_free hfind
  have hmem : ∀ w, x.sb.IsData w →
    (w ∈ usedSet (Function.update (setMark x.disk x.sb b true) b (Bytes.zero 4096)) x.sb ↔
      w = b ∨ w ∈ usedSet x.disk x.sb) := by
    intro w hw
    have hbits : usedSet (Function.update (setMark x.disk x.sb b true) b (Bytes.zero 4096)) x.sb =
        usedSet (setMark x.disk x.sb b true) x.sb := by
      refine usedSet_congr hl fun u hu => Function.update_of_ne ?_ _ _
      rintro rfl
      exact hl.data_not_bitmap hdata hu
    rw [hbits]
    change _ ∧ _ ↔ _
    rw [bitOf_setMark hl hdata (lt_of_lt_of_le hw.relOf_lt hl.bitmapCovers)]
    by_cases heq : w = b
    · subst heq
      rw [if_pos rfl]
      exact ⟨fun _ => .inl rfl, fun _ => ⟨hw, rfl⟩⟩
    · rw [if_neg fun hrel => heq (relOf_inj hw hdata hrel)]
      exact ⟨fun h => .inr h, fun h => h.resolve_left heq⟩
  refine ⟨⟨_, x.sb.freeInodes, rfl⟩, rfl, hdata, hfresh, ?_, fun w hw =>
    ?_, Function.update_self _ _ _, fun w hw hne => ?_⟩
  · exact (hmem b hdata).mpr (.inl rfl)
  · exact (hmem w hw.1).mpr (.inr hw)
  · exact (Function.update_of_ne hne _ _).trans (setMark_outside hl hdata hw)

theorem Apart.ind_ne (h : x.Apart) (hs : x.Seized y b) (hne : x.ino.indirectBlock ≠ 0) : b ≠ x.ino.indirectBlock := by
  rintro rfl
  exact hs.fresh (h.own hne hs.isData).1

/-- 取ることは、間接ブロックの内容も使用中の印も保つ。 -/
theorem Apart.seized (h : x.Apart) (hs : x.Seized y b) : y.Apart := by
  have hind : x.ino.indirectBlock ≠ 0 → y.disk x.ino.indirectBlock = x.disk x.ino.indirectBlock :=
    fun hne => hs.disk _ (h.outside hne) (h.ind_ne hs hne).symm
  have hblock : ∀ i, (10 ≤ i → x.ino.indirectBlock ≠ 0) → y.block i = x.block i := by
    intro i hi
    unfold block
    rw [hs.ino]
    exact mapBlock_congr fun hten => hind (hi hten)
  refine ⟨hs.shape.layout h.layout, fun i hi hbc hopen => ?_, fun hne => ?_, fun hne hdata => ?_, fun hz i hi hbc => ?_⟩
  · rw [hs.ino] at hbc hopen
    unfold PointsInside
    rw [hblock i hopen, hs.shape.isData]
    exact h.within i hi hbc hopen
  · rw [hs.ino] at hne ⊢
    rw [hs.shape.bitmapRegion]
    exact h.outside hne
  · rw [hs.ino] at hne hdata ⊢
    obtain ⟨hused, hother⟩ := h.own hne (hs.shape.isData.mp hdata)
    refine ⟨hs.more hused, fun i hi hbc => ?_⟩
    rw [hblock i fun _ => hne]
    exact hother i hi hbc
  · rw [hs.ino] at hz hbc
    rw [hblock i fun hten => absurd hi (Nat.not_lt.mpr hten), hs.shape.isData]
    exact fun hdata => hs.more (h.direct hz i hi hbc hdata)

theorem Apart.pushDirect (h : x.Apart) (hb : b ∈ usedSet x.disk x.sb)
    (hne : x.ino.indirectBlock ≠ 0 → b ≠ x.ino.indirectBlock) (hten : x.ino.blockCount.toNat < 10) :
    (x.withInode (x.ino.pushDirect b)).Apart := by
  have hcount : (x.ino.pushDirect b).blockCount.toNat = x.ino.blockCount.toNat + 1 := toNat_blockCount_succ (by omega)
  have hblock : ∀ i, i < x.ino.blockCount.toNat + 1 → (x.withInode (x.ino.pushDirect b)).block i =
      if i = x.ino.blockCount.toNat then b else x.block i := fun i hi => mapBlock_pushDirect hten hi
  refine ⟨h.layout, fun i hi hbc hopen => ?_, h.outside, fun hind hdata => ⟨(h.own hind hdata).1, fun i hi hbc => ?_⟩,
    fun hz i hi hbc => ?_⟩
  all_goals
    change i < (x.ino.pushDirect b).blockCount.toNat at hbc
    rw [hcount] at hbc
  · unfold PointsInside
    rw [hblock i hbc]
    split
    · exact fun _ => hb.1
    · exact h.within i hi (by omega) hopen
  · rw [hblock i hbc]
    split
    · exact hne hind
    · exact (h.own hind hdata).2 i hi (by omega)
  · rw [hblock i hbc]
    split
    · exact fun _ => hb
    · exact h.direct hz i hi (by omega)

theorem ptrLoad_zero (entry : Nat) : ptrLoad (Bytes.zero 4096) entry = 0 := by
  have hbyte : ∀ k : Nat, (Bytes.zero 4096)[k]?.getD 0 = (0 : UInt8) := by
    intro k
    by_cases hk : k < 4096
    · rw [Vector.getElem?_eq_getElem hk, Bytes.getElem_zero]
      rfl
    · rw [Vector.getElem?_eq_none (Nat.not_lt.mp hk)]
      rfl
  unfold ptrLoad
  rw [hbyte, hbyte, hbyte, hbyte]
  decide

/-- 空の間接ブロックを作る。 -/
theorem Apart.create (h : x.Apart) (hz : x.ino.indirectBlock = 0) (hs : x.Seized y b) :
    (y.withInode (y.ino.withIndirect b)).Apart := by
  have hne : b ≠ 0 := h.layout.data_ne_zero hs.isData
  have hlow : ∀ i, i < 10 → (y.withInode (y.ino.withIndirect b)).block i = x.block i := by
    intro i hi
    rw [block_direct hi, block_direct hi]
    change (y.ino.directBlocks)[i]?.getD 0 = _
    rw [hs.ino]
  have hhigh : ∀ i, 10 ≤ i → (y.withInode (y.ino.withIndirect b)).block i = 0 := by
    intro i hi
    rw [block_indirect hi]
    change ptrLoad (y.disk b) (i - 10) = 0
    rw [hs.zeroed]
    exact ptrLoad_zero _
  have hbc : (y.withInode (y.ino.withIndirect b)).ino.blockCount = x.ino.blockCount := by
    change y.ino.blockCount = _
    rw [hs.ino]
  refine ⟨hs.shape.layout h.layout, fun i hi hlt _ => ?_, fun _ => ?_, fun _ _ => ⟨hs.used, fun i hi hlt => ?_⟩,
    fun hno => absurd hno hne⟩
  · rw [hbc] at hlt
    unfold PointsInside
    rcases Nat.lt_or_ge i 10 with hten | hten
    · rw [hlow i hten]
      change _ → y.sb.IsData _
      rw [hs.shape.isData]
      exact h.within i hi hlt fun hge => absurd hten (Nat.not_lt.mpr hge)
    · rw [hhigh i hten]
      exact fun hno => absurd rfl hno
  · exact (hs.shape.layout h.layout).data_not_bitmap (hs.shape.isData.mpr hs.isData)
  · rw [hbc] at hlt
    change _ ≠ b
    rcases Nat.lt_or_ge i 10 with hten | hten
    · rw [hlow i hten]
      rintro rfl
      exact hs.fresh (h.direct hz i hten hlt hs.isData)
    · rw [hhigh i hten]
      exact hne.symm

theorem Apart.push (h : x.Apart) (hind : x.ino.indirectBlock ≠ 0) (hb : b ∈ usedSet x.disk x.sb)
    (hne : b ≠ x.ino.indirectBlock) (hten : 10 ≤ x.ino.blockCount.toNat) (hmax : x.ino.blockCount.toNat < 1034) :
    (x.push b).Apart := by
  have hcount : x.ino.bump.blockCount.toNat = x.ino.blockCount.toNat + 1 := toNat_blockCount_succ (by omega)
  have hbits : usedSet (x.push b).disk x.sb = usedSet x.disk x.sb := by
    refine usedSet_congr h.layout fun w hw => Function.update_of_ne ?_ _ _
    rintro rfl
    exact h.outside hind hw
  have hblock : ∀ i, (x.push b).block i = if i = x.ino.blockCount.toNat then b else x.block i := fun i =>
    mapBlock_pushPtr x.ino hten hmax
  refine ⟨h.layout, fun i hi hbc hopen => ?_, h.outside, fun _ hdata =>
    ⟨?_, fun i hi hbc => ?_⟩, fun hz => absurd hz hind⟩
  · change i < x.ino.bump.blockCount.toNat at hbc
    unfold PointsInside
    rw [hblock i]
    split
    · exact fun _ => hb.1
    · exact h.within i hi (by omega) hopen
  · change _ ∈ usedSet (x.push b).disk x.sb
    rw [hbits]
    exact (h.own hind hdata).1
  · change i < x.ino.bump.blockCount.toNat at hbc
    rw [hblock i]
    split
    · exact hne
    · exact (h.own hind hdata).2 i hi (by omega)

theorem Apart.appends (h : x.Apart) (hstep : Appends c x y) : y.Apart := by
  rcases next_cases hstep.next with ⟨b, x₁, htake, hten, rfl⟩ | ⟨b, x₁, ind, x₂, htake, hten, hmax, hz, htake₂, rfl⟩ |
    ⟨b, x₁, htake, hten, hmax, hind, rfl⟩
  · have hs := seized_of_take h.layout htake
    refine (h.seized hs).pushDirect hs.used ?_ ?_
    · rw [hs.ino]
      exact h.ind_ne hs
    · rw [hs.ino]
      exact hten
  · have hs := seized_of_take h.layout htake
    have hs₂ := seized_of_take (hs.shape.layout h.layout) htake₂
    have hz₁ : x₁.ino.indirectBlock = 0 := by rw [hs.ino, hz]
    have hbc : x₂.ino.blockCount = x.ino.blockCount := by rw [hs₂.ino, hs.ino]
    refine ((h.seized hs).create hz₁ hs₂).push ?_ (hs₂.more hs.used) ?_ ?_ ?_
    · exact (hs.shape.layout h.layout).data_ne_zero hs₂.isData
    · rintro rfl
      exact hs₂.fresh hs.used
    · change 10 ≤ x₂.ino.blockCount.toNat
      rw [hbc]
      exact hten
    · change x₂.ino.blockCount.toNat < 1034
      rw [hbc]
      exact hmax
  · have hs := seized_of_take h.layout htake
    refine (h.seized hs).push ?_ hs.used ?_ ?_ ?_
    all_goals rw [hs.ino]
    · exact hind
    · exact h.ind_ne hs hind
    · exact hten
    · exact hmax

theorem Apart.appendsMany (h : x.Apart) (hxy : AppendsMany c x y) : y.Apart := by
  induction hxy with
  | refl => exact h
  | tail _ hstep ih => exact ih.appends hstep

theorem Apart.pointed (h : x.Apart) : x.Pointed c := fun i hi hbc hopen => h.within i hi hbc fun hten => (hopen hten).1

theorem Apart.not_forgeable (h : x.Apart) : ¬ x.Forgeable := by
  rintro ⟨hdata, i, hself, hopen⟩
  have hlt := hopen.1
  exact (h.own (h.layout.data_ne_zero hdata) hdata).2 i (by omega) (by omega) hself

end Scene

end OwStorage.Owfs
