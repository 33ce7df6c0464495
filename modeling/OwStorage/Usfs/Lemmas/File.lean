import OwStorage.Usfs.Lemmas.Content
import OwStorage.Usfs.Lemmas.Table

/-!
# ファイルの伸縮

失敗のない装置の上で、並びの移し替えと、書き込みと切り詰めが、見かけとデータブロックをどう変えるかを述べる。
-/

namespace OwStorage.Usfs

open Lib Prog

/-- 並びが空か、データ領域に収まる。 -/
def Superblock.Houses (sb : Superblock) (e : Entry) : Prop :=
  0 < e.blockCount.toNat → sb.InRange e.firstBlock e.blockCount

/-- 並びのブロックはどれも使用中である。 -/
def Occupies (v : Vol) (e : Entry) : Prop :=
  ∀ j < e.blockCount.toNat, (viewOf v).used (v.sb.relOf e.firstBlock + j) = true

/-- 使用中でないデータブロック。 -/
def vacantSet (v : Vol) : Set UInt32 := { b | v.sb.IsData b ∧ (viewOf v).used (v.sb.relOf b) = false }

section

variable {sb sb' : Superblock} {v v' : Vol} {e : Entry} {b : UInt32}

theorem SameShape.cryptoXform (h : SameShape sb sb') (e : Entry) (buf : Block) (b : UInt32) :
    cryptoXform sb' e buf b = cryptoXform sb e buf b := by
  obtain ⟨_, _, rfl⟩ := h
  rfl

theorem SameShape.plainBlock (h : SameShape sb sb') (disk : Disk) (e : Entry) (i : Nat) :
    plainBlock disk sb' e i = plainBlock disk sb e i := h.cryptoXform e _ _

theorem SameShape.relOf (h : SameShape sb sb') (b : UInt32) : sb'.relOf b = sb.relOf b := by
  obtain ⟨_, _, rfl⟩ := h
  rfl

theorem SameShape.inRange (h : SameShape sb sb') {first count : UInt32} :
    sb'.InRange first count ↔ sb.InRange first count := by
  obtain ⟨_, _, rfl⟩ := h
  exact ⟨fun h => ⟨h.pos, h.low, h.high⟩, fun h => ⟨h.pos, h.low, h.high⟩⟩

theorem SameShape.houses (h : SameShape sb sb') : sb'.Houses e ↔ sb.Houses e := by
  unfold Superblock.Houses
  rw [h.inRange]

theorem Superblock.Houses.straight (h : sb.Houses e) : e.Straight := by
  have htot := sb.totalBlocks.toNat_lt
  have hfirst := e.firstBlock.toNat_lt
  unfold Entry.Straight
  by_cases hpos : 0 < e.blockCount.toNat
  · have hhigh := (h hpos).high
    omega
  · omega

theorem Superblock.Houses.isData (h : sb.Houses e) (hb : b ∈ e.run) : sb.IsData b := by
  have hlow := hb.1
  have hhigh := hb.2
  have hrange := h (by omega)
  have hstart := hrange.low
  have hend := hrange.high
  exact ⟨by omega, by omega⟩

theorem Superblock.Houses.relOf (h : sb.Houses e) (hb : b ∈ e.run) :
    sb.relOf b = sb.relOf e.firstBlock + (b.toNat - e.firstBlock.toNat) ∧
      b.toNat - e.firstBlock.toNat < e.blockCount.toNat := by
  have hlow := hb.1
  have hhigh := hb.2
  have hstart := (h (by omega)).low
  unfold Superblock.relOf
  omega

theorem Occupies.used (h : Occupies v e) (hh : v.sb.Houses e) (hb : b ∈ e.run) :
    (viewOf v).used (v.sb.relOf b) = true := by
  obtain ⟨hrel, hlt⟩ := hh.relOf hb
  rw [hrel]
  exact h _ hlt

end

/-! ## ファイルでない項目 -/

section

variable {v : Vol} {e : Entry}

theorem Entry.live_of_file (h : e.entryType = entryFile) : e.Live := by
  unfold Live
  rw [h]
  decide

theorem idle_fileWrite_of_notFile (h : e.entryType ≠ entryFile) (who : OwIdentity) (idx : UInt32) (buf : List UInt8)
    (offset len : UInt32) : Idle (fileWrite who idx buf offset len) ⟨v, e⟩ := .get_bind (.stopped h)

theorem idle_fileTruncate_of_notFile (h : e.entryType ≠ entryFile) (who : OwIdentity) (idx size : UInt32) :
    Idle (fileTruncate who idx size) ⟨v, e⟩ := .get_bind (.stopped h)

theorem entryRead_fresh (hr : Stable v) {idx : UInt32} {v₀ : Vol} (h : entryRead idx v = (.ok e, v₀)) :
    idx.toNat < v.sb.totalEntries.toNat ∧ e = (viewOf v).table idx ∧ ∃ c, v₀ = v.atClock c := by
  obtain ⟨hidx, he, _, hstill⟩ := (entryRead_stable hr idx).ok h
  exact ⟨hidx, he, hstill⟩

end

/-! ## 並びの移し替え -/

section

variable {v : Vol} {e : Entry}

theorem copyBlock_spec (sb : Superblock) (oldFirst newFirst i : UInt32) :
    wp (copyBlock sb e oldFirst newFirst i)
      (fun _ v' => ∃ blk c, v' = v.put (newFirst + i) blk c ∧
        cryptoXform sb e blk (newFirst + i) = cryptoXform sb e (v.dev.disk (oldFirst + i)) (oldFirst + i))
      (fun _ v' => Still v v' ∧ ¬ (v.dev.FaultFree ∧ v.dev.Reads (oldFirst + i) ∧ v.dev.Writes (newFirst + i))) v := by
  unfold copyBlock
  rw [wp_bind]
  refine wp_readBlk (fun c _ => ?_) (fun c hno => ⟨⟨c, rfl⟩, fun h => hno ⟨h.1, h.2.1⟩⟩)
  refine wp_writeBlk (fun c' _ => ⟨_, c', rfl, ?_⟩) (fun _ c' _ hno => ⟨⟨c', rfl⟩, fun h => hno ⟨h.1, h.2.2⟩⟩)
  exact cryptoXform_invol _ _ _ _

/-- 移し替えた先の並びを持つ項目。 -/
def Entry.moved (e : Entry) (first count : UInt32) : Entry := { e with firstBlock := first, blockCount := count }

/-- 並びを取り、まだ古い並びを返していないときの見かけ。 -/
def claimedView (v : Vol) (s : Nat) (need : UInt32) : View :=
  { viewOf v with
    used := fill (viewOf v).used s need.toNat true
    freeBlocks := v.sb.freeBlocks - need }

/-- 新しい並びを取り、前から `k` ブロックを写した。 -/
structure Copied (v v' : Vol) (e : Entry) (first need : UInt32) (s k : Nat) : Prop where
  effect : Becomes (e.moved first need).run v v' (claimedView v s need)
  content : ∀ j < k, plainBlock v'.dev.disk v.sb (e.moved first need) j = plainBlock v.dev.disk v.sb e j

section

variable {first need : UInt32} {s : Nat} (hr : Ready v) (hs : FirstFit (viewOf v).used v.sb.dataCount need.toNat s)
  (hfirst : first.toNat = v.sb.dataRegionStart.toNat + s)
include hr hs hfirst

theorem moved_houses : v.sb.Houses (e.moved first need) := by
  intro hpos
  have hfits := hs.fits
  have hne := hr.nonempty
  unfold Superblock.dataCount at hfits
  change 0 < need.toNat at hpos
  refine ⟨hpos, ?_, ?_⟩
  · change _ ≤ first.toNat
    omega
  · change first.toNat + need.toNat ≤ _
    omega

theorem moved_vacant : (e.moved first need).run ⊆ vacantSet v := by
  intro b hb
  have hhouse : v.sb.Houses (e.moved first need) := moved_houses hr hs hfirst
  refine ⟨hhouse.isData hb, ?_⟩
  obtain ⟨hrel, hlt⟩ := hhouse.relOf hb
  have hbase : v.sb.relOf (e.moved first need).firstBlock = s := by
    change first.toNat - v.sb.dataRegionStart.toNat = s
    omega
  rw [hrel, hbase]
  exact hs.vacant _ hlt

theorem copyStep_ready (hw : volumeWritable v.sb = .ok ()) (hh : v.sb.Houses e) (hocc : Occupies v e)
    {v₁ : Vol} {k : Nat}
    (hk : k < e.blockCount.toNat) (hneed : e.blockCount.toNat < need.toNat) (hc : Copied v v₁ e first need s k)
    {sb : Superblock} (hsb : SameShape v.sb sb) :
    wp (orRelease first need (copyBlock sb e e.firstBlock first (UInt32.ofNat k)))
      (fun _ v' => Copied v v' e first need s (k + 1))
      (fun _ v' => Becomes (e.moved first need).run v v' (viewOf v) ∧ ¬ ∀ b, v.sb.IsData b → v.dev.Writes b) v₁ := by
  have hhouse : v.sb.Houses (e.moved first need) := moved_houses hr hs hfirst
  have hmem : (e.moved first need).block k ∈ (e.moved first need).run :=
    hhouse.straight.block_mem (by change k < need.toNat; omega)
  have hold : e.block k ∈ e.run := hh.straight.block_mem hk
  have hold_out : e.block k ∉ (e.moved first need).run := by
    intro hin
    have hclear := (moved_vacant hr hs hfirst hin).2
    rw [hocc.used hh hold] at hclear
    cases hclear
  have hr₁ := hc.effect.ready hr
  unfold orRelease
  rw [wp_bind, wp_attempt]
  refine (copyBlock_spec sb e.firstBlock first (UInt32.ofNat k)).mono ?_ ?_
  · rintro _ _ ⟨blk, c, rfl, hblk⟩
    have hput := hc.effect.trans (@put_becomes _ ((e.moved first need).block k) blk c hr₁.layout
      (hc.effect.shape.isData.mpr (hhouse.isData hmem)))
    rw [hc.effect.view] at hput
    refine ⟨hput.mono (Set.union_subset (fun _ h => h) (Set.singleton_subset_iff.mpr hmem)), fun j hj => ?_⟩
    rcases Nat.lt_succ_iff_lt_or_eq.mp hj with hlt | rfl
    · rw [← hc.content j hlt]
      unfold plainBlock
      rw [dev_put, HtlDevice.disk_atClock, HtlDevice.disk_store, Function.update_of_ne]
      exact hhouse.straight.block_ne (by change j < need.toNat; omega) (by change k < need.toNat; omega)
        (Nat.ne_of_lt hlt)
    · rw [hsb.cryptoXform, hsb.cryptoXform] at hblk
      unfold plainBlock
      rw [dev_put, HtlDevice.disk_atClock, HtlDevice.disk_store]
      change cryptoXform v.sb e (Function.update v₁.dev.disk (first + UInt32.ofNat j) blk (first + UInt32.ofNat j))
        (first + UInt32.ofNat j) = _
      rw [Function.update_self, hblk]
      exact congrArg (fun blk => cryptoXform v.sb e blk (e.block j)) (hc.effect.data _ (hh.isData hold) hold_out)
  · rintro err _ ⟨⟨c, rfl⟩, hno⟩
    change wp (Prog.attempt (blockFree first need) >>= _) _ _ _
    rw [wp_bind, wp_attempt]
    have hclock : Becomes (e.moved first need).run v (v₁.atClock c) (claimedView v s need) :=
      ⟨hc.effect.shape, hc.effect.config, hc.effect.view, hc.effect.data⟩
    refine (release_ready hr hs (by omega) hfirst hw hclock rfl).mono (fun _ _ h => ⟨h, fun hall => hno ?_⟩)
      (fun _ _ h => h.elim)
    refine ⟨hr₁.faultFree, ?_, ?_⟩
    · rw [hc.effect.config]
      exact (hall _ (hh.isData hold)).toReads
    · rw [hc.effect.config]
      exact hall _ (hhouse.isData hmem)

end

/-- 並びを移し替えて伸ばした。 -/
structure Grown (v v' : Vol) (idx : UInt32) (e e' : Entry) (need : UInt32) : Prop where
  short : e.blockCount.toNat < need.toNat
  entry : e' = (e.moved e'.firstBlock need).sealed
  moved : ∃ s, FirstFit (viewOf v).used v.sb.dataCount need.toNat s ∧ need.toNat ≤ v.sb.freeBlocks.toNat ∧
    e'.firstBlock.toNat = v.sb.dataRegionStart.toNat + s ∧
    Becomes e'.run v v'
      { used := fill (fill (viewOf v).used s need.toNat true) (v.sb.relOf e.firstBlock) e.blockCount.toNat false
        table := Function.update (viewOf v).table idx e'
        freeBlocks := v.sb.freeBlocks - need + e.blockCount
        usedEntries := v.sb.usedEntries }
  content : ∀ j < e.blockCount.toNat, plainBlock v'.dev.disk v'.sb e' j = plainBlock v.dev.disk v.sb e j

/-- 伸ばせない訳。 -/
def NoRun (v : Vol) (need : UInt32) : Prop :=
  v.sb.freeBlocks.toNat < need.toNat ∨ ¬ ∃ s, FirstFit (viewOf v).used v.sb.dataCount need.toNat s

/-- 並びを伸ばす。失敗すれば、使用中でないブロックの内容のほかは何も変わらない。 -/
theorem growFile_ready (hr : Ready v) (hw : volumeWritable v.sb = .ok ()) {idx : UInt32}
    (hidx : idx.toNat < v.sb.totalEntries.toNat) (hh : v.sb.Houses e) (hocc : Occupies v e) (need : UInt32) :
    wp (growFile idx need)
      (fun _ s' => (need.toNat ≤ e.blockCount.toNat ∧ s' = ⟨v, e⟩) ∨ Grown v s'.vol idx e s'.entry need)
      (fun _ s' => e.blockCount.toNat < need.toNat ∧ s'.entry = e ∧ Becomes (vacantSet v) v s'.vol (viewOf v) ∧
        ((∀ b, v.sb.IsData b → v.dev.Writes b) → NoRun v need)) ⟨v, e⟩ := by
  unfold growFile
  rw [wp_bind, wp_get, wp_ite]
  refine ⟨fun hge => .inl ⟨UInt32.le_iff_toNat_le.mp hge, rfl⟩, fun hlt => ?_⟩
  have hshort : e.blockCount.toNat < need.toNat := by
    rw [ge_iff_le, UInt32.not_le] at hlt
    exact UInt32.lt_iff_toNat_lt.mp hlt
  rw [wp_bind, wp_onVol]
  refine (blockAlloc_ready hr need).mono ?_ ?_
  rotate_left
  · rintro err v' ⟨hstill, hrefused⟩
    refine ⟨hshort, rfl, .of_still hstill, fun _ => ?_⟩
    rcases hrefused with (⟨_, hz | hfew | hempty⟩ | hshut) | ⟨_, hno⟩
    · rw [hz] at hshort
      exact absurd hshort (Nat.not_lt_zero _)
    · exact .inl (UInt32.lt_iff_toNat_lt.mp hfew)
    · exact absurd hr.nonempty (Nat.not_lt.mpr (UInt32.le_iff_toNat_le.mp hempty))
    · exact absurd hshut (writable_unit hw err)
    · exact .inr hno
  rintro first v₁ ⟨s, hs, _, hfree, hfirst, hclaimed⟩
  have hhouse : v.sb.Houses (e.moved first need) := moved_houses hr hs hfirst
  have hvacant : (e.moved first need).run ⊆ vacantSet v := moved_vacant hr hs hfirst
  simp only [wp_bind, wp_get]
  refine wp_forUpto (fun k s' => s'.entry = e ∧ Copied v s'.vol e first need s k)
    ⟨rfl, hclaimed.mono (Set.empty_subset _), fun j hj => absurd hj (Nat.not_lt_zero j)⟩ ?_ ?_
  · rintro k ⟨v₂, e₂⟩ hk ⟨he, hc⟩
    change e₂ = e at he
    subst he
    rw [wp_onVol]
    refine (copyStep_ready hr hs hfirst hw hh hocc hk hshort hc hclaimed.shape).mono (fun _ _ h => ⟨rfl, h⟩) ?_
    exact fun _ _ h => ⟨hshort, rfl, h.1.mono hvacant, fun hall => absurd hall h.2⟩
  rintro ⟨v₂, e₂⟩ ⟨he, hc⟩
  change e₂ = e at he
  subst he
  have hr₂ := hc.effect.ready hr
  have hfree₂ : v₂.sb.freeBlocks = v.sb.freeBlocks - need := congrArg View.freeBlocks hc.effect.view
  have hused₂ : v₂.sb.usedEntries = v.sb.usedEntries := congrArg View.usedEntries hc.effect.view
  -- 古い並びを返して、項目を書き直す。
  have hfinish : ∀ v₃, Becomes ∅ v₂ v₃ { viewOf v₂ with
        used := fill (viewOf v₂).used (v₂.sb.relOf e₂.firstBlock) e₂.blockCount.toNat false
        freeBlocks := v₂.sb.freeBlocks + e₂.blockCount } →
      wp (entryWrite idx) (fun _ s' => Grown v s'.vol idx e₂ s'.entry need) (fun _ _ => False)
        ⟨v₃, e₂.moved first need⟩ := by
    intro v₃ h₃
    have h₀₃ := hc.effect.trans h₃
    have hw₃ : volumeWritable v₃.sb = .ok () := h₀₃.shape.writable.trans hw
    refine (entryWrite_ready (s := ⟨v₃, e₂.moved first need⟩) (h₀₃.ready hr) idx).mono ?_ ?_
    · rintro _ ⟨v₄, e₄⟩ ⟨he₄, _, hwrite⟩
      change e₄ = _ at he₄
      subst he₄
      have hall := h₀₃.trans hwrite
      refine ⟨hshort, rfl, ⟨s, hs, hfree, hfirst, ?_⟩, fun j hj => ?_⟩
      · rw [h₃.view, hc.effect.view, Set.union_empty, Set.union_empty, hfree₂] at hall
        refine ⟨hall.shape, hall.config, hall.view.trans ?_, hall.data⟩
        rw [hc.effect.shape.relOf]
        rfl
      · have hmem : (e₂.moved first need).block j ∈ (e₂.moved first need).run :=
          hhouse.straight.block_mem (by change j < need.toNat; omega)
        have hdata := hhouse.isData hmem
        rw [← hc.content j hj, hall.shape.plainBlock]
        unfold plainBlock
        refine congrArg (fun blk => cryptoXform v.sb e₂ blk (first + UInt32.ofNat j)) ?_
        change v₄.dev.disk ((e₂.moved first need).block j) = v₂.dev.disk ((e₂.moved first need).block j)
        rw [hwrite.data _ (h₀₃.shape.isData.mpr hdata) (Set.notMem_empty _),
          h₃.data _ (hc.effect.shape.isData.mpr hdata) (Set.notMem_empty _)]
    · rintro err s' ⟨_, ⟨_, hno⟩ | hshut⟩
      · rw [h₀₃.shape.totalEntries] at hno
        exact absurd hidx hno
      · exact writable_unit hw₃ err hshut
  rw [wp_whenever]
  refine ⟨fun hpos => ?_, fun hzero => ?_⟩
  · rw [wp_onVol]
    unfold orRelease
    rw [wp_bind, wp_attempt]
    refine (blockFree_ready hr₂ e₂.firstBlock e₂.blockCount).mono ?_ ?_
    · rintro _ v₃ (⟨hz, _⟩ | ⟨_, hfreed⟩)
      · rw [hz] at hpos
        exact absurd hpos (by decide)
      · exact (hfinish v₃ hfreed).mono (fun _ _ h => .inr h) (fun _ _ h => h.elim)
    · rintro err _ ⟨_, ⟨_, hno⟩ | hshut⟩
      · exact absurd (hc.effect.shape.inRange.mpr (hh (UInt32.lt_iff_toNat_lt.mp hpos))) hno
      · exact absurd hshut (writable_unit (hc.effect.shape.writable.trans hw) err)
  · have hz : e₂.blockCount = 0 :=
      UInt32.toNat_inj.mp (Nat.eq_zero_of_not_pos fun h => hzero (UInt32.lt_iff_toNat_lt.mpr h))
    refine (hfinish v₂ ?_).mono (fun _ _ h => .inr h) (fun _ _ h => h.elim)
    rw [hz, UInt32.toNat_zero, fill_zero, UInt32.add_zero]
    exact .refl v₂

end

/-! ## 書き込み -/

section

variable {v v' : Vol} {e e' : Entry} {idx need : UInt32} {T : Set UInt32}

theorem becomes_of_evolves (hl : Layout v.sb) (hsb : v'.sb = v.sb) (hdev : v.dev.Evolves T v'.dev)
    (hT : ∀ b ∈ T, v.sb.IsData b) : Becomes T v v' (viewOf v) := by
  have hbits : bitsView v'.dev.disk v.sb = bitsView v.dev.disk v.sb := by
    funext r
    unfold bitsView
    by_cases hr : r < v.sb.dataCount
    · rw [bitOf_congr hl (fun b hb => hdev.disk b fun hin => data_not_bitmap hl (hT b hin) hb)
        (lt_bitmap_of_lt_data hl hr)]
    · rw [decide_eq_false hr, Bool.false_and, Bool.false_and]
  have htable : tableView v'.dev.disk v.sb = tableView v.dev.disk v.sb := by
    funext j
    unfold tableView
    split
    · rename_i hj
      exact entryAt_congr hl (fun b hb => hdev.disk b fun hin => data_not_table hl (hT b hin) hb) hj
    · rfl
  refine ⟨hsb ▸ SameShape.refl _, hdev.config, ?_, fun b _ hb => hdev.disk b hb⟩
  unfold viewOf
  rw [hsb, hbits, htable]

/-- 並びが `need` ブロックに足りるか、伸ばして足りるようにした。 -/
def Reached (v v' : Vol) (idx : UInt32) (e e' : Entry) (need : UInt32) : Prop :=
  (need.toNat ≤ e.blockCount.toNat ∧ v' = v ∧ e' = e) ∨ Grown v v' idx e e' need

/-- 項目の大きさだけを書き直した。 -/
structure Resized (v v' : Vol) (idx : UInt32) (e e' : Entry) (size : UInt32) : Prop where
  entry : e' = Entry.sealed { e with sizeBytes := size }
  effect : Becomes ∅ v v' { viewOf v with table := Function.update (viewOf v).table idx e' }

theorem Grown.houses (h : Grown v v' idx e e' need) (hr : Ready v) : v.sb.Houses e' := by
  obtain ⟨s, hs, _, hfirst, _⟩ := h.moved
  have hcount : e'.blockCount = need := by rw [h.entry]; rfl
  intro hpos
  have hhouse := moved_houses (e := e) hr hs hfirst
  rw [hcount] at hpos ⊢
  exact hhouse hpos

theorem Grown.becomes (h : Grown v v' idx e e' need) : ∃ w, Becomes e'.run v v' w := by
  obtain ⟨_, _, _, _, hb⟩ := h.moved
  exact ⟨_, hb⟩

theorem Grown.blockCount (h : Grown v v' idx e e' need) : e'.blockCount = need := by
  rw [h.entry]
  rfl

theorem Reached.shape (h : Reached v v' idx e e' need) : SameShape v.sb v'.sb := by
  rcases h with ⟨_, rfl, _⟩ | h
  · exact .refl _
  · exact h.becomes.choose_spec.shape

theorem Reached.ready (h : Reached v v' idx e e' need) (hr : Ready v) : Ready v' := by
  rcases h with ⟨_, rfl, _⟩ | h
  · exact hr
  · exact h.becomes.choose_spec.ready hr

theorem Reached.config (h : Reached v v' idx e e' need) : v'.dev.toHtlConfig = v.dev.toHtlConfig := by
  rcases h with ⟨_, rfl, _⟩ | h
  · rfl
  · exact h.becomes.choose_spec.config

theorem Reached.houses (h : Reached v v' idx e e' need) (hr : Ready v) (hh : v.sb.Houses e) : v'.sb.Houses e' := by
  rw [h.shape.houses]
  rcases h with ⟨_, _, rfl⟩ | h
  · exact hh
  · exact h.houses hr

theorem Reached.enough (h : Reached v v' idx e e' need) : need.toNat ≤ e'.blockCount.toNat := by
  rcases h with ⟨hle, _, rfl⟩ | h
  · exact hle
  · rw [h.blockCount]

theorem resize_ready (hr : Ready v) (hw : volumeWritable v.sb = .ok ()) (hidx : idx.toNat < v.sb.totalEntries.toNat)
    (size : UInt32) :
    wp (entryWrite idx) (fun _ s' => Resized v s'.vol idx e s'.entry size) (fun _ _ => False)
      ⟨v, { e with sizeBytes := size }⟩ := by
  refine (entryWrite_ready (s := ⟨v, { e with sizeBytes := size }⟩) hr idx).mono ?_ ?_
  · rintro _ ⟨v', e'⟩ ⟨he, _, hb⟩
    change e' = _ at he
    subst he
    exact ⟨rfl, hb⟩
  · rintro err s' ⟨_, ⟨_, hno⟩ | hshut⟩
    · exact absurd hidx hno
    · exact writable_unit hw err hshut

/-- 書き込みと切り詰めの門を通る。 -/
structure Editable (v : Vol) (who : OwIdentity) (e : Entry) : Prop where
  file : e.entryType = entryFile
  writable : volumeWritable v.sb = .ok ()
  notReadonly : e.securityFlags.toUInt32 &&& secReadonly = 0
  access : entryAccessCheck who e accessWrite = .ok ()

theorem le_blocksFor {size : Nat} (h : size < 2 ^ 33) : size ≤ (blocksFor size).toNat * 4096 := by
  unfold blocksFor
  rw [toNat_ofNat_lt (by omega)]
  omega

theorem need_le_room {offset len : UInt32} {count : Nat} (h : (blocksFor (offset.toNat + len.toNat)).toNat ≤ count) :
    offset.toNat + len.toNat ≤ count * 4096 := by
  have hoff := offset.toNat_lt
  have hlen := len.toNat_lt
  exact (le_blocksFor (by omega)).trans (Nat.mul_le_mul_right 4096 h)

/-- 通った書き込み。 -/
def Written (v v' : Vol) (idx : UInt32) (e e' : Entry) (buf : List UInt8) (offset len : UInt32) : Prop :=
  ∃ v₁ e₁ v₂, Reached v v₁ idx e e₁ (blocksFor (offset.toNat + len.toNat)) ∧
    Wrote e₁ v₁ v₂ offset.toNat (buf.take len.toNat) ∧
    Resized v₂ v' idx e₁ e' (UInt32.ofNat (offset.toNat + len.toNat))

/-- 途中で終わった書き込み。何も変わらないか、伸ばした並びの一部だけが書かれている。 -/
def HalfWritten (v v' : Vol) (idx : UInt32) (e e' : Entry) (need : UInt32) : Prop :=
  (Becomes (vacantSet v) v v' (viewOf v) ∧ e' = e) ∨
    ∃ v₁, Reached v v₁ idx e e' need ∧ Becomes e'.run v₁ v' (viewOf v₁)

theorem fileWrite_ready (hr : Ready v) (hidx : idx.toNat < v.sb.totalEntries.toNat) (hh : v.sb.Houses e)
    (hocc : Occupies v e) (who : OwIdentity) {buf : List UInt8} {offset len : UInt32} (hbuf : len.toNat ≤ buf.length) :
    wp (fileWrite who idx buf offset len)
      (fun done s' => Editable v who e ∧ done = len ∧
        ((len = 0 ∧ s' = ⟨v, e⟩) ∨ (len ≠ 0 ∧ Written v s'.vol idx e s'.entry buf offset len)))
      (fun _ s' => HalfWritten v s'.vol idx e s'.entry (blocksFor (offset.toNat + len.toNat)) ∧
        (Editable v who e → (∀ b, v.sb.IsData b → v.dev.Writes b) →
          e.blockCount.toNat < (blocksFor (offset.toNat + len.toNat)).toNat ∧
            NoRun v (blocksFor (offset.toNat + len.toNat)))) ⟨v, e⟩ := by
  have hself : HalfWritten v v idx e e (blocksFor (offset.toNat + len.toNat)) :=
    .inl ⟨Becomes.refl v, rfl⟩
  have hoff := offset.toNat_lt
  have hlen := len.toNat_lt
  unfold fileWrite
  simp only [wp_bind, wp_get, wp_failIf, wp_ofExcept, wp_ite]
  refine ⟨fun htype => ⟨hself, fun h => absurd h.file htype⟩, fun htype => ⟨fun _ hw => ⟨fun hro => ⟨hself, fun h =>
    absurd h.notReadonly hro⟩, fun hro => ⟨fun _ hacc => ?_, fun err he => ⟨hself, fun h => ?_⟩⟩⟩, fun err he =>
    ⟨hself, fun h => absurd he (writable_unit h.writable err)⟩⟩⟩
  rotate_left
  · rw [h.access] at he
    cases he
  have hedit : Editable v who e := ⟨not_not.mp htype, hw, not_not.mp hro, hacc⟩
  refine ⟨fun hz => ⟨hedit, hz.symm, .inl ⟨hz, rfl⟩⟩, fun hnz => ?_⟩
  refine (growFile_ready hr hw hidx hh hocc _).mono ?_ fun _ s' h =>
    ⟨.inl ⟨h.2.2.1, h.2.1⟩, fun _ hall => ⟨h.1, h.2.2.2 hall⟩⟩
  rintro _ ⟨v₁, e₁⟩ hgrow
  have hreach : Reached v v₁ idx e e₁ (blocksFor (offset.toNat + len.toNat)) := by
    rcases hgrow with ⟨hle, heq⟩ | hgrown
    · cases heq
      exact .inl ⟨hle, rfl, rfl⟩
    · exact .inr hgrown
  have hhouse := hreach.houses hr hh
  have hr₁ := hreach.ready hr
  have henough := hreach.enough
  have hneed : offset.toNat + len.toNat ≤ _ := le_blocksFor (by omega)
  rw [wp_onVol]
  refine (writeLoop_spec hhouse.straight hbuf (hneed.trans (Nat.mul_le_mul_right 4096 henough))).mono ?_ ?_
  · rintro _ v₂ ⟨rfl, hwrote⟩
    have hdata := becomes_of_evolves hr₁.layout hwrote.sb hwrote.dev fun b hb => hhouse.isData hb
    have hw₂ : volumeWritable v₂.sb = .ok () := by
      rw [hwrote.sb, hreach.shape.writable]
      exact hw
    have hidx₂ : idx.toNat < v₂.sb.totalEntries.toNat := by
      rw [hwrote.sb, hreach.shape.totalEntries]
      exact hidx
    refine (resize_ready (hdata.ready hr₁) hw₂ hidx₂ _).mono ?_ (fun _ _ h => h.elim)
    intro _ s' hres
    exact ⟨hedit, rfl, .inr ⟨hnz, v₁, e₁, v₂, hreach, hwrote, hres⟩⟩
  · rintro err v₂ ⟨hsb, hdev, hno⟩
    have hdata := becomes_of_evolves hr₁.layout hsb hdev fun b hb => hhouse.isData hb
    refine ⟨.inr ⟨v₁, hreach, hdata⟩, fun _ hall => absurd ⟨hr₁.faultFree, fun b hb => ?_⟩ hno⟩
    rw [hreach.config]
    exact hall b (hreach.shape.isData.mp (hhouse.isData hb))

/-! ## 切り詰め -/

/-- 末尾のブロックを返して縮めた。 -/
structure Shrunk (v v' : Vol) (idx : UInt32) (e e' : Entry) (keep size : UInt32) : Prop where
  less : keep.toNat < e.blockCount.toNat
  entry : e' = Entry.sealed { e with blockCount := keep, sizeBytes := size }
  effect : Becomes ∅ v v'
    { used := fill (viewOf v).used (v.sb.relOf e.firstBlock + keep.toNat) (e.blockCount.toNat - keep.toNat) false
      table := Function.update (viewOf v).table idx e'
      freeBlocks := v.sb.freeBlocks + (e.blockCount - keep)
      usedEntries := v.sb.usedEntries }

theorem keep_eq_blocksFor (size : UInt32) : (if size = 0 then 0 else blocksFor size.toNat) = blocksFor size.toNat := by
  split
  · rename_i hz
    rw [hz]
    rfl
  · rfl

/-- 通った切り詰め。 -/
inductive Truncated (v v' : Vol) (idx : UInt32) (e e' : Entry) (size : UInt32) : Prop
  | same (h : size = e.sizeBytes) (hv : v' = v) (he : e' = e)
  | extended {v₁ : Vol} {e₁ : Entry} (h : e.sizeBytes < size) (hg : Reached v v₁ idx e e₁ (blocksFor size.toNat))
      (hr : Resized v₁ v' idx e₁ e' size)
  | kept (h : size < e.sizeBytes) (hk : e.blockCount.toNat ≤ (blocksFor size.toNat).toNat)
      (hr : Resized v v' idx e e' size)
  | cut (h : size < e.sizeBytes) (hs : Shrunk v v' idx e e' (blocksFor size.toNat) size)

theorem shrink_ready (hr : Ready v) (hw : volumeWritable v.sb = .ok ()) (hidx : idx.toNat < v.sb.totalEntries.toNat)
    (hh : v.sb.Houses e) {keep : UInt32} (hless : keep.toNat < e.blockCount.toNat) (size : UInt32) :
    wp (onVol (blockFree (e.firstBlock + keep) (e.blockCount - keep)))
      (fun _ s₁ => s₁.entry = e ∧ wp (entryWrite idx)
        (fun _ s' => Shrunk v s'.vol idx e s'.entry keep size) (fun _ _ => False)
        ⟨s₁.vol, { e with blockCount := keep, sizeBytes := size }⟩) (fun _ _ => False) ⟨v, e⟩ := by
  have hrange := hh (by omega)
  have hlow := hrange.low
  have hhigh := hrange.high
  have htot := v.sb.totalBlocks.toNat_lt
  have hfirst : (e.firstBlock + keep).toNat = e.firstBlock.toNat + keep.toNat := toNat_add_lt (by omega)
  have hcount : (e.blockCount - keep).toNat = e.blockCount.toNat - keep.toNat := toNat_sub_le hless.le
  have hrel : v.sb.relOf (e.firstBlock + keep) = v.sb.relOf e.firstBlock + keep.toNat := by
    unfold Superblock.relOf
    omega
  rw [wp_onVol]
  refine (blockFree_ready hr _ _).mono ?_ ?_
  · rintro _ v₁ (⟨hz, _⟩ | ⟨_, hfreed⟩)
    · rw [hz, UInt32.toNat_zero] at hcount
      omega
    · refine ⟨rfl, ?_⟩
      have hw₁ : volumeWritable v₁.sb = .ok () := hfreed.shape.writable.trans hw
      refine (entryWrite_ready (s := ⟨v₁, { e with blockCount := keep, sizeBytes := size }⟩)
        (hfreed.ready hr) idx).mono ?_ ?_
      · rintro _ ⟨v', e'⟩ ⟨he, _, hb⟩
        change e' = _ at he
        subst he
        have hall := hfreed.trans hb
        rw [hfreed.view, hrel, hcount, Set.union_empty] at hall
        exact ⟨hless, rfl, hall.shape, hall.config, hall.view, hall.data⟩
      · rintro err s' ⟨_, ⟨_, hno⟩ | hshut⟩
        · rw [hfreed.shape.totalEntries] at hno
          exact absurd hidx hno
        · exact writable_unit hw₁ err hshut
  · rintro err _ ⟨_, ⟨_, hno⟩ | hshut⟩
    · refine hno ⟨by omega, ?_, ?_⟩
      · rw [hfirst]
        omega
      · rw [hfirst, hcount]
        omega
    · exact writable_unit hw err hshut

theorem fileTruncate_ready (hr : Ready v) (hidx : idx.toNat < v.sb.totalEntries.toNat) (hh : v.sb.Houses e)
    (hocc : Occupies v e) (who : OwIdentity) (size : UInt32) :
    wp (fileTruncate who idx size)
      (fun _ s' => Editable v who e ∧ Truncated v s'.vol idx e s'.entry size)
      (fun _ s' => Becomes (vacantSet v) v s'.vol (viewOf v) ∧ s'.entry = e) ⟨v, e⟩ := by
  have hself : Becomes (vacantSet v) v v (viewOf v) := .refl v
  unfold fileTruncate
  simp only [keep_eq_blocksFor, wp_bind, wp_get, wp_failIf, wp_ofExcept, wp_ite]
  refine ⟨fun _ => ⟨hself, trivial⟩, fun htype => ⟨fun _ hw => ⟨fun _ => ⟨hself, trivial⟩, fun hro => ⟨fun _ hacc => ?_,
    fun _ _ => ⟨hself, trivial⟩⟩⟩, fun _ _ => ⟨hself, trivial⟩⟩⟩
  have hedit : Editable v who e := ⟨not_not.mp htype, hw, not_not.mp hro, hacc⟩
  refine ⟨fun heq => ⟨hedit, .same heq rfl rfl⟩, fun hne => ⟨fun hgt => ?_, fun hle => ?_⟩⟩
  · refine (growFile_ready hr hw hidx hh hocc _).mono ?_ fun _ _ h => ⟨h.2.2.1, h.2.1⟩
    rintro _ ⟨v₁, e₁⟩ hgrow
    have hreach : Reached v v₁ idx e e₁ (blocksFor size.toNat) := by
      rcases hgrow with ⟨hle, heq⟩ | hgrown
      · cases heq
        exact .inl ⟨hle, rfl, rfl⟩
      · exact .inr hgrown
    have hw₁ : volumeWritable v₁.sb = .ok () := hreach.shape.writable.trans hw
    have hidx₁ : idx.toNat < v₁.sb.totalEntries.toNat := by
      rw [hreach.shape.totalEntries]
      exact hidx
    exact (resize_ready (hreach.ready hr) hw₁ hidx₁ size).mono (fun _ _ h => ⟨hedit, .extended hgt hreach h⟩)
      (fun _ _ h => h.elim)
  · have hlt : size < e.sizeBytes := by
      rw [UInt32.lt_iff_toNat_lt]
      have hle : size.toNat ≤ e.sizeBytes.toNat := UInt32.le_iff_toNat_le.mp (UInt32.not_lt.mp hle)
      have hne : size.toNat ≠ e.sizeBytes.toNat := fun h => hne (UInt32.toNat_inj.mp h)
      omega
    rw [wp_whenever, wp_bind]
    refine ⟨fun hcut => ?_, fun hkeep => ?_⟩
    · rw [keep_eq_blocksFor] at hcut
      refine (shrink_ready hr hw hidx hh (UInt32.lt_iff_toNat_lt.mp hcut) size).mono ?_ (fun _ _ h => h.elim)
      rintro _ ⟨v₁, e₁⟩ ⟨he, hfin⟩
      change e₁ = e at he
      subst he
      exact hfin.mono (fun _ _ h => ⟨hedit, .cut hlt h⟩) (fun _ _ h => h.elim)
    · rw [keep_eq_blocksFor] at hkeep
      exact (resize_ready hr hw hidx size).mono
        (fun _ _ h => ⟨hedit, .kept hlt (UInt32.le_iff_toNat_le.mp (UInt32.not_lt.mp hkeep)) h⟩) (fun _ _ h => h.elim)

end

end OwStorage.Usfs
