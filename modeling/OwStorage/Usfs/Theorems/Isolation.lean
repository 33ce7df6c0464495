import OwStorage.Usfs.Lemmas.File
import OwStorage.Usfs.Lemmas.Layout
import OwStorage.Usfs.Lemmas.Format

/-!
# 移し替えとほかのファイル

並びの移し替えは、復号した内容を保つ。書き込み、切り詰め、解放は、ほかの項目の並びと内容を変えない。ビットマップがデータ領域を
覆わない大きさでは、印の書き換えがほかのファイルの内容を壊す。
-/

namespace OwStorage.Usfs

open Lib Prog

/-! ## 重ならない並び -/

/-- 生きている項目の並びはデータ領域の中の使用中のブロックからなり、互いに重ならない。 -/
structure Apart (v : Vol) : Prop where
  housed : ∀ idx, ((viewOf v).table idx).Live → v.sb.Houses ((viewOf v).table idx)
  occupied : ∀ idx, ((viewOf v).table idx).Live → Occupies v ((viewOf v).table idx)
  disjoint : ∀ i j, i ≠ j → ((viewOf v).table i).Live → ((viewOf v).table j).Live →
    ∀ b ∈ ((viewOf v).table i).run, b ∉ ((viewOf v).table j).run

/-- 項目 `j` の並びと大きさとブロックの内容が変わらない。 -/
structure SameFile (v v' : Vol) (j : UInt32) : Prop where
  first : ((viewOf v').table j).firstBlock = ((viewOf v).table j).firstBlock
  count : ((viewOf v').table j).blockCount = ((viewOf v).table j).blockCount
  size : ((viewOf v').table j).sizeBytes = ((viewOf v).table j).sizeBytes
  content : ∀ i < ((viewOf v).table j).blockCount.toNat,
    plainBlock v'.dev.disk v'.sb ((viewOf v').table j) i = plainBlock v.dev.disk v.sb ((viewOf v).table j) i

section

variable {v v' v'' : Vol} {e e' : Entry} {idx j need : UInt32} {T : Set UInt32} {w : View}

theorem SameFile.refl (v : Vol) (j : UInt32) : SameFile v v j := ⟨rfl, rfl, rfl, fun _ _ => rfl⟩

theorem SameFile.of_atClock {c : Nat} (h : SameFile (v.atClock c) v' j) : SameFile v v' j :=
  ⟨h.first, h.count, h.size, h.content⟩

theorem SameFile.trans (h : SameFile v v' j) (h' : SameFile v' v'' j) : SameFile v v'' j := by
  refine ⟨h'.first.trans h.first, h'.count.trans h.count, h'.size.trans h.size, fun i hi => ?_⟩
  rw [h'.content i (by rw [h.count]; exact hi), h.content i hi]

/-- 項目 `j` の記録と並びに触れない変化。 -/
theorem Becomes.sameFile (h : Becomes T v v' w) (htable : w.table j = (viewOf v).table j)
    (hh : v.sb.Houses ((viewOf v).table j)) (hT : ∀ b ∈ ((viewOf v).table j).run, b ∉ T) : SameFile v v' j := by
  have hsame : (viewOf v').table j = (viewOf v).table j := by
    rw [h.view]
    exact htable
  refine ⟨by rw [hsame], by rw [hsame], by rw [hsame], fun i hi => ?_⟩
  have hmem := hh.straight.block_mem hi
  rw [hsame, h.shape.plainBlock]
  unfold plainBlock
  rw [h.data _ (hh.isData hmem) (hT _ hmem)]

theorem Occupies.notMem_vacant (h : Occupies v e) (hh : v.sb.Houses e) {b : UInt32} (hb : b ∈ e.run) :
    b ∉ vacantSet v := by
  intro hin
  have hclear := hin.2
  rw [h.used hh hb] at hclear
  cases hclear

theorem Grown.run_vacant (h : Grown v v' idx e e' need) (hr : Ready v) : e'.run ⊆ vacantSet v := by
  obtain ⟨s, hs, _, hfirst, _⟩ := h.moved
  have hcount := h.blockCount
  rintro b ⟨hlow, hhigh⟩
  rw [hcount] at hhigh
  exact moved_vacant (e := e) hr hs hfirst ⟨hlow, hhigh⟩

end

/-! ## 移し替えの前後 -/

section

variable {v v' : Vol} {e e' : Entry} {idx j need : UInt32} (hr : Ready v) (ha : Apart v)
  (hj : ((viewOf v).table j).Live) (hne : j ≠ idx)
include hr ha hj hne

theorem Grown.sameFile (h : Grown v v' idx e e' need) : SameFile v v' j := by
  obtain ⟨s, hs, _, hfirst, hb⟩ := h.moved
  refine hb.sameFile (Function.update_of_ne hne _ _) (ha.housed j hj) fun b hin hout => ?_
  exact (ha.occupied j hj).notMem_vacant (ha.housed j hj) hin (h.run_vacant hr hout)

theorem Reached.sameFile (h : Reached v v' idx e e' need) : SameFile v v' j := by
  rcases h with ⟨_, rfl, _⟩ | h
  · exact .refl v' j
  · exact h.sameFile hr ha hj hne

/-- 用意した並びは、ほかの項目の並びに重ならない。 -/
theorem Reached.apart (h : Reached v v' idx ((viewOf v).table idx) e' need) (hi : ((viewOf v).table idx).Live) :
    ∀ b ∈ ((viewOf v).table j).run, b ∉ e'.run := by
  rcases h with ⟨_, _, rfl⟩ | h
  · exact ha.disjoint j idx hne hj hi
  · exact fun b hin hout => (ha.occupied j hj).notMem_vacant (ha.housed j hj) hin (h.run_vacant hr hout)

/-- 並びを用意した後の、その並びだけの変化。 -/
theorem Reached.then_sameFile {v₁ : Vol} {w : View} (h : Reached v v₁ idx ((viewOf v).table idx) e' need)
    (hi : ((viewOf v).table idx).Live) (hb : Becomes e'.run v₁ v' w) (hw : w.table j = (viewOf v₁).table j) :
    SameFile v v' j := by
  have h₁ := h.sameFile hr ha hj hne
  have hrun : ((viewOf v₁).table j).run = ((viewOf v).table j).run := by
    unfold Entry.run
    rw [h₁.first, h₁.count]
  have hhouse : v₁.sb.Houses ((viewOf v₁).table j) := by
    have hold := h.shape.houses.mpr (ha.housed j hj)
    unfold Superblock.Houses at hold ⊢
    rw [h₁.first, h₁.count]
    exact hold
  refine h₁.trans (hb.sameFile hw hhouse fun b hin => ?_)
  rw [hrun] at hin
  exact h.apart hr ha hj hne hi b hin

omit hr hne in
theorem vacant_sameFile (h : Becomes (vacantSet v) v v' (viewOf v)) : SameFile v v' j :=
  h.sameFile rfl (ha.housed j hj) fun _ hin => (ha.occupied j hj).notMem_vacant (ha.housed j hj) hin

omit hr in
theorem record_sameFile {w : View} (h : Becomes ∅ v v' w) (hw : w.table = Function.update (viewOf v).table idx e) :
    SameFile v v' j := by
  refine h.sameFile ?_ (ha.housed j hj) fun _ _ => Set.notMem_empty _
  rw [hw]
  exact Function.update_of_ne hne _ _

/-- 書き込みは、ほかの項目を変えない。 -/
theorem fileWrite_isolates (hi : ((viewOf v).table idx).Live) (hidx : idx.toNat < v.sb.totalEntries.toNat)
    (who : OwIdentity) {buf : List UInt8} {offset len : UInt32} (hbuf : len.toNat ≤ buf.length) :
    wp (fileWrite who idx buf offset len) (fun _ s' => SameFile v s'.vol j) (fun _ s' => SameFile v s'.vol j)
      ⟨v, (viewOf v).table idx⟩ := by
  refine (fileWrite_ready hr hidx (ha.housed idx hi) (ha.occupied idx hi) who hbuf).mono ?_ ?_
  · rintro done ⟨v', e'⟩ ⟨_, _, ⟨_, heq⟩ | ⟨_, v₁, e₁, v₂, hreach, hwrote, hres⟩⟩
    · cases heq
      exact .refl v j
    · have hr₁ := hreach.ready hr
      have hhouse := hreach.houses hr (ha.housed idx hi)
      have hdata := becomes_of_evolves hr₁.layout hwrote.sb hwrote.dev fun b hb => hhouse.isData hb
      have hall := hdata.trans hres.effect
      rw [Set.union_empty] at hall
      refine hreach.then_sameFile hr ha hj hne hi hall ?_
      rw [hdata.view]
      exact Function.update_of_ne hne _ _
  · rintro err ⟨v', e'⟩ ⟨⟨hb, _⟩ | ⟨v₁, hreach, hb⟩, _⟩
    · exact vacant_sameFile ha hj hb
    · exact hreach.then_sameFile hr ha hj hne hi hb rfl

/-- 切り詰めは、ほかの項目を変えない。 -/
theorem fileTruncate_isolates (hi : ((viewOf v).table idx).Live) (hidx : idx.toNat < v.sb.totalEntries.toNat)
    (who : OwIdentity) (size : UInt32) :
    wp (fileTruncate who idx size) (fun _ s' => SameFile v s'.vol j) (fun _ s' => SameFile v s'.vol j)
      ⟨v, (viewOf v).table idx⟩ := by
  refine (fileTruncate_ready hr hidx (ha.housed idx hi) (ha.occupied idx hi) who size).mono ?_
    fun _ _ h => vacant_sameFile ha hj h.1
  rintro _ ⟨v', e'⟩ ⟨_, h⟩
  cases h with
  | same _ hv _ =>
      change v' = v at hv
      subst hv
      exact .refl v' j
  | extended _ hreach hres =>
      exact hreach.then_sameFile hr ha hj hne hi (hres.effect.mono (Set.empty_subset _)) (Function.update_of_ne hne _ _)
  | kept _ _ hres => exact record_sameFile ha hj hne hres.effect rfl
  | cut _ hs => exact record_sameFile ha hj hne hs.effect rfl

/-- 解放は、ほかの項目を変えない。検査値の合わない記録は断られる。 -/
theorem entryFree_isolates (who : OwIdentity) :
    wp (entryFree who idx) (fun _ v' => SameFile v v' j) (fun _ v' => SameFile v v' j) v := by
  have hstill : ∀ {v' : Vol}, Still v v' → SameFile v v' j := fun h => (Becomes.of_still (T := ∅) h).sameFile rfl
    (ha.housed j hj) fun _ _ => Set.notMem_empty _
  by_cases hsum : ((viewOf v).table idx).entryType ≠ 0 → entryVerifyChecksum ((viewOf v).table idx) = true
  · exact (entryFree_ready hr who hsum).mono (fun _ _ h => record_sameFile ha hj hne h.effect rfl) fun _ _ h =>
      hstill h.1
  · have hself : Still v v := refl_of Still v
    unfold entryFree
    simp only [wp_bind, wp_get, wp_ofExcept]
    refine ⟨fun _ _ => ?_, fun _ _ => hstill hself⟩
    refine (entryRead_stable hr.stable idx).mono ?_ fun _ _ h => hstill h.1
    rintro e v' ⟨_, rfl, hok, _⟩
    exact absurd hok hsum

end

/-! ## 大きさごとの成り立ち -/

/-- フォーマットが `total` ブロックに作る配置を持つ、失敗のない装置の上のボリューム。 -/
structure VolumeOf (total : UInt32) (v : Vol) : Prop where
  large : 19 ≤ total.toNat
  totalBlocks : v.sb.totalBlocks = total
  tableStart : v.sb.entryTableStart = 1
  tableBlocks : v.sb.entryTableBlocks = 16
  entries : v.sb.totalEntries = 256
  bitmapStart : v.sb.bitmapStartBlock = 17
  bitmapBlocks : layoutBitmapBlocks total = some v.sb.bitmapBlockCount
  dataStart : v.sb.dataRegionStart = 17 + v.sb.bitmapBlockCount
  faultFree : v.dev.FaultFree
  serves : Serves v.dev.toHtlConfig v.sb

/-- 移し替えは内容を保ち、書き込みと切り詰めと解放は、返す値を問わず、ほかの項目を変えない。 -/
structure Isolates (v : Vol) : Prop where
  grow : ∀ idx need v' e', ((viewOf v).table idx).Live →
    growFile idx need ⟨v, (viewOf v).table idx⟩ = (.ok (), ⟨v', e'⟩) → ∀ i < ((viewOf v).table idx).blockCount.toNat,
      plainBlock v'.dev.disk v'.sb e' i = plainBlock v.dev.disk v.sb ((viewOf v).table idx) i
  write : ∀ who idx e v₀ buf offset len, entryRead idx v = (.ok e, v₀) → UInt32.toNat len ≤ List.length buf →
    ∀ j, j ≠ idx → ((viewOf v).table j).Live → SameFile v (fileWrite who idx buf offset len ⟨v₀, e⟩).2.vol j
  truncate : ∀ who idx e v₀ size, entryRead idx v = (.ok e, v₀) →
    ∀ j, j ≠ idx → ((viewOf v).table j).Live → SameFile v (fileTruncate who idx size ⟨v₀, e⟩).2.vol j
  free : ∀ who idx j, j ≠ idx → ((viewOf v).table j).Live → SameFile v (entryFree who idx v).2 j

section

variable {total : UInt32} {v : Vol}

theorem VolumeOf.ready (h : VolumeOf total v) (hfit : total.toNat < 2 ^ 32 - 32749) : Ready v := by
  obtain ⟨b, hb, hpos, hne, henough⟩ := layoutBitmapBlocks_of_fit h.large hfit
  have htot := total.toNat_lt
  rw [h.bitmapBlocks, Option.some.injEq] at hb
  subst hb
  have hdata : v.sb.dataRegionStart.toNat = 17 + v.sb.bitmapBlockCount.toNat := by
    have h17 : (17 : UInt32).toNat = 17 := rfl
    rw [h.dataStart, toNat_add_lt (by omega), h17]
  refine ⟨⟨?_, ?_, ?_, ?_, ?_⟩, ?_, h.faultFree, h.serves⟩
  · rw [h.tableStart]
    decide
  · rw [h.tableStart, h.tableBlocks, h.bitmapStart]
    decide
  · rw [h.bitmapStart, hdata]
    exact le_refl _
  · rw [h.entries, h.tableBlocks]
    decide
  · rw [h.totalBlocks, hdata]
    omega
  · rw [h.totalBlocks, hdata]
    exact hne

theorem live_inTable {v : Vol} {idx : UInt32} (h : ((viewOf v).table idx).Live) :
    idx.toNat < v.sb.totalEntries.toNat := by
  by_contra hout
  have hzero : (viewOf v).table idx = Entry.zero := if_neg hout
  rw [hzero] at h
  exact h.1 rfl

/-- 門が閉じていれば、並びは伸びない。 -/
theorem growFile_shut {e : Entry} {idx need : UInt32} (hw : ¬ volumeWritable v.sb = .ok ()) :
    wp (growFile idx need) (fun _ s' => s' = ⟨v, e⟩ ∧ need.toNat ≤ e.blockCount.toNat) (fun _ _ => True) ⟨v, e⟩ := by
  unfold growFile
  rw [wp_bind, wp_get, wp_ite]
  refine ⟨fun hge => ⟨rfl, UInt32.le_iff_toNat_le.mp hge⟩, fun _ => ?_⟩
  rw [wp_bind, wp_onVol]
  unfold blockAlloc
  simp only [wp_bind, wp_get, wp_failIf, wp_ofExcept]
  exact ⟨fun _ => trivial, fun _ => ⟨fun _ => trivial, fun _ => ⟨fun _ hok => absurd hok hw, fun _ _ => trivial⟩⟩⟩

theorem isolates_of_ready (hr : Ready v) (ha : Apart v) : Isolates v := by
  constructor
  case grow =>
    intro idx need v' e' hi hrun i hib
    by_cases hw : volumeWritable v.sb = .ok ()
    · rcases (growFile_ready hr hw (live_inTable hi) (ha.housed idx hi) (ha.occupied idx hi) need).ok hrun with
        ⟨_, heq⟩ | hgrown
      · cases heq
        rfl
      · exact hgrown.content i hib
    · have hshut : wp (growFile idx need)
          (fun _ s' => s' = ⟨v, (viewOf v).table idx⟩ ∧ need.toNat ≤ ((viewOf v).table idx).blockCount.toNat)
          (fun _ _ => True) ⟨v, (viewOf v).table idx⟩ := growFile_shut hw
      cases (hshut.ok hrun).1
      rfl
  case write =>
    intro who idx e v₀ buf offset len hread hbuf j hne hj
    obtain ⟨hidx, rfl, c, rfl⟩ := entryRead_fresh hr.stable hread
    by_cases hfile : ((viewOf v).table idx).entryType = entryFile
    · have hr₀ : Ready (v.atClock c) := Still.ready ⟨c, rfl⟩ hr
      have ha₀ : Apart (v.atClock c) := ⟨ha.housed, ha.occupied, ha.disjoint⟩
      exact (fileWrite_isolates hr₀ ha₀ hj hne (Entry.live_of_file hfile) hidx who hbuf).state.of_atClock
    · rw [(idle_fileWrite_of_notFile hfile who idx buf offset len).state]
      exact (SameFile.refl (v.atClock c) j).of_atClock
  case truncate =>
    intro who idx e v₀ size hread j hne hj
    obtain ⟨hidx, rfl, c, rfl⟩ := entryRead_fresh hr.stable hread
    by_cases hfile : ((viewOf v).table idx).entryType = entryFile
    · have hr₀ : Ready (v.atClock c) := Still.ready ⟨c, rfl⟩ hr
      have ha₀ : Apart (v.atClock c) := ⟨ha.housed, ha.occupied, ha.disjoint⟩
      exact (fileTruncate_isolates hr₀ ha₀ hj hne (Entry.live_of_file hfile) hidx who size).state.of_atClock
    · rw [(idle_fileTruncate_of_notFile hfile who idx size).state]
      exact (SameFile.refl (v.atClock c) j).of_atClock
  case free =>
    intro who idx j hne hj
    exact (entryFree_isolates hr ha hj hne who).state

end

/-! ## ビットマップの足りないボリューム -/

section

variable {total : UInt32}

/-- 表の記録 `idx` を書いたディスク。 -/
def putEntry (disk : Disk) (sb : Superblock) (idx : UInt32) (e : Entry) : Disk :=
  Function.update disk (entryBlockOffset sb idx) ((disk (entryBlockOffset sb idx)).patch
    ((entrySlotIndex idx).toNat * 256) (Entry.codec.enc e))

/-- ブロック `first` だけを並びに持つ記録。 -/
def oneBlock (idx : UInt32) (entryType : UInt8) (mode : UInt16) (first size : UInt32) : Entry :=
  Entry.sealed { Entry.zero with
    entryIndex := idx
    entryType := entryType
    permissions := mode
    nameLength := 1
    parentEntry := 0
    firstBlock := first
    blockCount := 1
    sizeBytes := size
    name := (Bytes.zero 128).patch 0 [0x2F] }

/-- 根と、二つのファイルの記録。三つ目の並びの印は、二つ目の並びのブロックに置かれる。 -/
def crowdedTable (idx : UInt32) : Entry :=
  if idx = 2 then oneBlock 2 entryFile modeDefaultFile 65554 4096
  else if idx = 1 then oneBlock 1 entryFile modeDefaultFile 19 4096
  else if idx = 0 then oneBlock 0 entryCatalog modeDefaultDir 18 0
  else Entry.zero

def crowdedSb (total : UInt32) : Superblock :=
  { freshSuperblock total 1 none (Bytes.zero 12) with usedEntries := 3, freeBlocks := total - 21 }

/-- ビットマップのブロック 17 と、三つ目の並びの印を含むブロック 19。 -/
def crowdedMarks : Disk :=
  Function.update (Function.update (fun _ => Bytes.zero 4096) 17 ((Bytes.zero 4096).patch 0 [3])) 19
    ((Bytes.zero 4096).patch 0 [1])

def crowdedDisk (total : UInt32) : Disk :=
  putEntry (putEntry (putEntry crowdedMarks (crowdedSb total) 0 (crowdedTable 0)) (crowdedSb total) 1 (crowdedTable 1))
    (crowdedSb total) 2 (crowdedTable 2)

def crowdedVolume (total : UInt32) : Vol := ⟨{ zeroDevice 0 with disk := crowdedDisk total }, crowdedSb total⟩

theorem tableFits_crowded : TableFits (crowdedSb total) := by
  refine ⟨?_, ?_⟩
  · change (256 : UInt32).toNat ≤ 16 * (16 : UInt32).toNat
    decide
  · change (1 : UInt32).toNat + (16 : UInt32).toNat < 2 ^ 32
    decide

theorem entryAt_putEntry {disk : Disk} {sb : Superblock} (ht : TableFits sb) {idx j : UInt32}
    (hi : idx.toNat < sb.totalEntries.toNat) (hj : j.toNat < sb.totalEntries.toNat) (e : Entry) :
    entryAt (putEntry disk sb idx e) sb j = if j = idx then e else entryAt disk sb j := ht.entryAt_update hi hj e

theorem entryAt_crowdedMarks {j : UInt32} (hj : j.toNat < 256) :
    entryAt crowdedMarks (crowdedSb total) j = Entry.zero := by
  have hat : (entryBlockOffset (crowdedSb total) j).toNat = 1 + j.toNat / 16 := tableFits_crowded.toNat_blockOffset hj
  have hne : ∀ b : UInt32, 17 ≤ b.toNat → entryBlockOffset (crowdedSb total) j ≠ b := by
    rintro b hb rfl
    omega
  unfold entryAt crowdedMarks
  rw [Function.update_of_ne (hne 19 (by decide)), Function.update_of_ne (hne 17 (by decide))]
  exact entryIn_zero j

theorem table_crowded (idx : UInt32) : (viewOf (crowdedVolume total)).table idx = crowdedTable idx := by
  change tableView (crowdedDisk total) (crowdedSb total) idx = _
  have hin : ∀ j : UInt32, j.toNat < 256 → j.toNat < (crowdedSb total).totalEntries.toNat := fun _ h => h
  unfold tableView
  split
  · rename_i hidx
    unfold crowdedDisk
    rw [entryAt_putEntry tableFits_crowded (hin 2 (by decide)) hidx]
    by_cases h2 : idx = 2
    · rw [if_pos h2, h2]
    · rw [if_neg h2, entryAt_putEntry tableFits_crowded (hin 1 (by decide)) hidx]
      by_cases h1 : idx = 1
      · rw [if_pos h1, h1]
      · rw [if_neg h1, entryAt_putEntry tableFits_crowded (hin 0 (by decide)) hidx]
        by_cases h0 : idx = 0
        · rw [if_pos h0, h0]
        · rw [if_neg h0, entryAt_crowdedMarks hidx]
          unfold crowdedTable
          rw [if_neg h2, if_neg h1, if_neg h0]
  · rename_i hout
    have hne : ∀ j : UInt32, j.toNat < 256 → idx ≠ j := by
      rintro j hj rfl
      exact hout hj
    unfold crowdedTable
    rw [if_neg (hne 2 (by decide)), if_neg (hne 1 (by decide)), if_neg (hne 0 (by decide))]

theorem disk_crowded {b : UInt32} (hb : 17 ≤ b.toNat) : crowdedDisk total b = crowdedMarks b := by
  have hne : ∀ j : UInt32, j.toNat < 256 → b ≠ entryBlockOffset (crowdedSb total) j := by
    rintro j hj rfl
    have hat : (entryBlockOffset (crowdedSb total) j).toNat = 1 + j.toNat / 16 := tableFits_crowded.toNat_blockOffset hj
    omega
  unfold crowdedDisk putEntry
  rw [Function.update_of_ne (hne 2 (by decide)), Function.update_of_ne (hne 1 (by decide)),
    Function.update_of_ne (hne 0 (by decide))]

theorem volumeOf_crowded (hover : 2 ^ 32 - 32749 ≤ total.toNat) : VolumeOf total (crowdedVolume total) :=
  ⟨by omega, rfl, rfl, rfl, rfl, rfl, layoutBitmapBlocks_of_overflow hover, rfl, fun _ => rfl,
    ⟨fun _ _ => writes_zeroDevice (.inl rfl), rfl⟩⟩

theorem crowded_writable : volumeWritable (crowdedSb total) = .ok () := by
  change volumeWritable { Superblock.zero with stateFlags := 0, securityFlags := 0 } = _
  decide

/-- 生きている記録は三つだけである。 -/
theorem crowded_live {idx : UInt32} (h : (crowdedTable idx).Live) : idx = 2 ∨ idx = 1 ∨ idx = 0 := by
  by_contra hno
  rw [not_or, not_or] at hno
  unfold crowdedTable at h
  rw [if_neg hno.1, if_neg hno.2.1, if_neg hno.2.2] at h
  exact h.1 rfl

theorem mem_run_oneBlock {idx : UInt32} {t : UInt8} {mode : UInt16} {first size b : UInt32} :
    b ∈ (oneBlock idx t mode first size).run ↔ b = first := by
  change first.toNat ≤ b.toNat ∧ b.toNat < first.toNat + 1 ↔ _
  rw [← UInt32.toNat_inj]
  omega

theorem apart_crowded (hover : 2 ^ 32 - 32749 ≤ total.toNat) : Apart (crowdedVolume total) := by
  have hcount : (crowdedSb total).dataCount = total.toNat - 18 := rfl
  have hused : ∀ r, r < total.toNat - 18 → bitOf (crowdedDisk total) (crowdedSb total) r = true →
      (viewOf (crowdedVolume total)).used r = true := by
    intro r hr hbit
    change bitsView (crowdedDisk total) (crowdedSb total) r = true
    rw [bitsView_eq hr, hbit]
  have hocc : ∀ idx t mode first size, 18 ≤ UInt32.toNat first → UInt32.toNat first < total.toNat →
      bitOf (crowdedDisk total) (crowdedSb total) (UInt32.toNat first - 18) = true →
      (crowdedSb total).Houses (oneBlock idx t mode first size) ∧
        Occupies (crowdedVolume total) (oneBlock idx t mode first size) := by
    intro idx t mode first size hlow hhigh hbit
    refine ⟨fun _ => ⟨(by decide : 0 < (1 : UInt32).toNat), hlow, ?_⟩, fun j hj => ?_⟩
    · change first.toNat + 1 ≤ total.toNat
      exact hhigh
    · have hj : j = 0 := Nat.lt_one_iff.mp hj
      subst hj
      exact hused _ (by change first.toNat - 18 + 0 < _; omega) hbit
  have h17 : crowdedDisk total 17 = (Bytes.zero 4096).patch 0 [3] := disk_crowded (by decide)
  have h19 : crowdedDisk total 19 = (Bytes.zero 4096).patch 0 [1] := disk_crowded (by decide)
  have hbit0 : bitOf (crowdedDisk total) (crowdedSb total) 0 = true := by
    change (crowdedDisk total 17).bitAt 0 = true
    rw [h17]
    decide +kernel
  have hbit1 : bitOf (crowdedDisk total) (crowdedSb total) 1 = true := by
    change (crowdedDisk total 17).bitAt 1 = true
    rw [h17]
    decide +kernel
  have hbit2 : bitOf (crowdedDisk total) (crowdedSb total) 65536 = true := by
    change (crowdedDisk total 19).bitAt 0 = true
    rw [h19]
    decide +kernel
  have hall : ∀ idx, (crowdedTable idx).Live → (crowdedSb total).Houses (crowdedTable idx) ∧
      Occupies (crowdedVolume total) (crowdedTable idx) := by
    intro idx hlive
    rcases crowded_live hlive with rfl | rfl | rfl
    · exact hocc 2 _ _ 65554 _ (by decide) (by change 65554 < _; omega) hbit2
    · exact hocc 1 _ _ 19 _ (by decide) (by change 19 < _; omega) hbit1
    · exact hocc 0 _ _ 18 _ (by decide) (by change 18 < _; omega) hbit0
  constructor
  case housed =>
    intro idx hlive
    rw [table_crowded] at hlive ⊢
    exact (hall idx hlive).1
  case occupied =>
    intro idx hlive
    rw [table_crowded] at hlive ⊢
    exact (hall idx hlive).2
  case disjoint =>
    intro i j hne hi hj
    rw [table_crowded] at hi hj ⊢
    rw [table_crowded]
    intro b hbi hbj
    rcases crowded_live hi with rfl | rfl | rfl <;> rcases crowded_live hj with rfl | rfl | rfl
    all_goals first
      | exact absurd rfl hne
      | exact absurd ((mem_run_oneBlock.mp hbi).symm.trans (mem_run_oneBlock.mp hbj)) (by decide)

/-- 三つ目の並びの印を消すと、二つ目の並びのブロックのビットが落ちる。 -/
theorem unmark_crowded (hover : 2 ^ 32 - 32749 ≤ total.toNat) {c : Nat} :
    wp (blockFree 65554 1)
      (fun _ v' => (v'.dev.disk 19).bitAt 0 = false ∧ v'.dev.toHtlConfig = (crowdedVolume total).dev.toHtlConfig ∧
        v'.sb = { crowdedSb total with freeBlocks := (crowdedSb total).freeBlocks + 1 })
      (fun _ _ => False) ((crowdedVolume total).atClock c) := by
  have hwrites : ∀ b, (crowdedVolume total).dev.Writes b := fun b => writes_zeroDevice (.inl rfl)
  unfold blockFree
  rw [wp_bind, wp_get, wp_ite]
  refine ⟨fun hz => absurd hz (by decide), fun _ => ?_⟩
  simp only [wp_bind, wp_failIf, wp_ofExcept]
  refine ⟨fun hout => ?_, fun _ => ⟨fun _ _ => ?_, fun e he => writable_unit (@crowded_writable total) e he⟩⟩
  · rcases hout with hlow | hhigh
    · exact absurd hlow (by decide : ¬ (65554 : UInt32) < 17 + 1)
    · change 65554 + 1 > total.toNat at hhigh
      omega
  have hstart : ((crowdedVolume total).atClock c).sb.dataRegionStart = 18 := rfl
  have hfirst : ((65554 : UInt32) - 18) / bitsPerBlock = 2 := by decide
  have hlast : ((65554 : UInt32) - 18 + 1 - 1) / bitsPerBlock = 2 := by decide
  unfold markRun
  rw [wp_bind, wp_get]
  dsimp only
  rw [hstart, hfirst, hlast, show (2 : UInt32).toNat + 1 - (2 : UInt32).toNat = 1 from rfl]
  refine wp_forUpto (fun k v' => v'.dev.toHtlConfig = (crowdedVolume total).dev.toHtlConfig ∧ v'.sb = crowdedSb total ∧
    (k = 1 → (v'.dev.disk 19).bitAt 0 = false)) ⟨rfl, rfl, fun h => absurd h (by decide)⟩ ?_ ?_
  · rintro k v₁ hk ⟨hconf, hsb, _⟩
    have hk : k = 0 := Nat.lt_one_iff.mp hk
    subst hk
    have hff : v₁.dev.FaultFree := by
      unfold HtlConfig.FaultFree
      rw [hconf]
      exact fun _ => rfl
    have hw₁ : ∀ b, v₁.dev.Writes b := by
      rw [hconf]
      exact hwrites
    rw [wp_bind]
    refine wp_readBlk (fun c₁ _ => ?_) (fun c₁ hno => hno ⟨hff, (hw₁ _).toReads⟩)
    refine wp_writeBlk (fun c₂ _ => ⟨hconf, hsb, fun _ => ?_⟩) (fun _ c₂ _ hno => hno ⟨hff, hw₁ _⟩)
    change (Function.update v₁.dev.disk 19 (fillBits (v₁.dev.disk 19) 0 0 false) 19).bitAt 0 = false
    rw [Function.update_self, bitAt_fillBits (by decide)]
    exact fill_of_mem (by decide)
  · rintro v' ⟨hconf, hsb, hbit⟩
    exact ⟨hbit rfl, hconf, congrArg (fun sb : Superblock => { sb with freeBlocks := sb.freeBlocks + 1 }) hsb⟩

/-- 三つ目の項目の解放は、印を消すために、二つ目の項目のブロックを書き換える。 -/
theorem free_crowded (hover : 2 ^ 32 - 32749 ≤ total.toNat) : wp (entryFree ⟨0, 0⟩ 2)
    (fun _ v' => (v'.dev.disk 19).bitAt 0 = false ∧ v'.sb.securityFlags = 0) (fun _ _ => False)
    (crowdedVolume total) := by
  have hw : volumeWritable (crowdedSb total) = .ok () := crowded_writable
  have hwrites : ∀ b, (crowdedVolume total).dev.Writes b := fun b => writes_zeroDevice (.inl rfl)
  unfold entryFree
  simp only [wp_bind, wp_get, wp_ofExcept, wp_failIf]
  refine ⟨fun _ _ => ?_, fun e he => writable_unit hw e he⟩
  unfold entryRead
  simp only [wp_bind, wp_get, wp_failIf]
  refine ⟨fun hout => absurd hout (by decide : ¬ (2 : UInt32) ≥ 256), fun _ => ?_⟩
  have hrec : entryIn ((crowdedVolume total).dev.disk (entryBlockOffset (crowdedVolume total).sb 2)) 2 =
      oneBlock 2 entryFile modeDefaultFile 65554 4096 :=
    (tableView_eq (by decide : (2 : UInt32).toNat < (256 : UInt32).toNat)).symm.trans (table_crowded 2)
  refine wp_readBlk (fun c _ => ?_) (fun c hno => hno ⟨fun _ => rfl, (hwrites _).toReads⟩)
  rw [hrec]
  refine ⟨fun hbad => ?_, fun _ => ?_⟩
  · rw [show entryVerifyChecksum (oneBlock 2 entryFile modeDefaultFile 65554 4096) = true from verify_sealed _] at hbad
    exact absurd hbad.2 (by decide)
  refine ⟨fun hnone => absurd hnone (by decide : ¬ entryFile = 0), fun _ => ⟨fun hro => absurd rfl hro, fun _ =>
    ⟨fun _ _ => ?_, fun e he => ?_⟩⟩⟩
  rotate_left
  · have hacc : entryCheckAccess ⟨0, 0⟩ (oneBlock 2 entryFile modeDefaultFile 65554 4096) accessWrite = .ok () := by
      change (if entryFile = 0 then _ else if ! owSecAccess ⟨0, 0⟩ modeDefaultFile 0 0 accessWrite then _ else _) = _
      decide
    rw [hacc] at he
    cases he
  rw [wp_whenever]
  refine ⟨fun _ => ?_, fun hnone => absurd (by decide : (1 : UInt32) > 0) hnone⟩
  refine (unmark_crowded hover).mono ?_ (fun _ _ h => h)
  rintro _ v₁ ⟨hbit, hconf, hsb⟩
  have hff : v₁.dev.FaultFree := by
    unfold HtlConfig.FaultFree
    rw [hconf]
    exact fun _ => rfl
  have hw₁ : ∀ b, v₁.dev.Writes b := by
    rw [hconf]
    exact hwrites
  rw [wp_withEntry]
  unfold entryWrite
  simp only [wp_bind, wp_get, wp_failIf, wp_ofExcept, wp_onVol, wp_modifyEntry]
  rw [hsb]
  refine ⟨fun hout => absurd hout (by decide : ¬ (2 : UInt32) ≥ 256), fun _ => ⟨fun _ _ => ?_, fun e he =>
    writable_unit hw e he⟩⟩
  refine wp_readBlk (fun c₁ _ => ?_) (fun c₁ hno => hno ⟨hff, (hw₁ _).toReads⟩)
  refine wp_writeBlk (fun c₂ _ => ⟨?_, ?_⟩) (fun _ c₂ _ hno => hno ⟨hff, hw₁ _⟩)
  · refine (congrArg (fun b : Block => b.bitAt 0) (Function.update_of_ne ?_ _ v₁.dev.disk)).trans hbit
    exact (by decide : (19 : UInt32) ≠ 1)
  · change (if v₁.sb.usedEntries > 0 then { v₁.sb with usedEntries := v₁.sb.usedEntries - 1 } else
      v₁.sb).securityFlags = 0
    rw [hsb]
    rfl

/-- 二つ目の項目の内容は、三つ目の項目の解放で変わる。 -/
theorem not_sameFile_crowded (hover : 2 ^ 32 - 32749 ≤ total.toNat) {v' : Vol}
    (hrun : entryFree ⟨0, 0⟩ 2 (crowdedVolume total) = (.ok (), v')) : ¬ SameFile (crowdedVolume total) v' 1 := by
  intro hsame
  obtain ⟨hbit, hsec⟩ := (free_crowded hover).ok hrun
  have hrec : (viewOf (crowdedVolume total)).table 1 = oneBlock 1 entryFile modeDefaultFile 19 4096 := table_crowded 1
  have hcontent := hsame.content 0 (by rw [hrec]; decide)
  have hfirst : ((viewOf v').table 1).firstBlock = 19 := by
    rw [hsame.first, hrec]
    rfl
  have hblock : ((viewOf v').table 1).block 0 = 19 := by
    unfold Entry.block
    rw [hfirst]
    decide
  have hplain : ∀ {sb : Superblock} {e : Entry} {disk : Disk}, sb.securityFlags = 0 → e.block 0 = 19 →
      plainBlock disk sb e 0 = disk 19 := by
    intro sb e disk hsec hblock
    have hopen : isEncrypted sb e = false := by
      unfold isEncrypted
      rw [hsec]
      rfl
    unfold plainBlock cryptoXform
    rw [hblock, hopen]
    rfl
  have hblock₀ : ((viewOf (crowdedVolume total)).table 1).block 0 = 19 := by
    rw [hrec]
    rfl
  have hold : crowdedDisk total 19 = (Bytes.zero 4096).patch 0 [1] := disk_crowded (by decide)
  rw [hplain hsec hblock, hplain rfl hblock₀] at hcontent
  have hcontent : v'.dev.disk 19 = (Bytes.zero 4096).patch 0 [1] := hcontent.trans hold
  rw [hcontent] at hbit
  exact absurd hbit (by decide +kernel)

end

/-- 移し替えの内容の保存と、ほかの項目の保存は、ビットマップがデータ領域を覆う大きさで、かつその大きさに限って成り立つ。 -/
theorem relocation_isolates_iff (total : UInt32) :
    (∀ v, VolumeOf total v → Apart v → Isolates v) ↔ total.toNat < 2 ^ 32 - 32749 := by
  constructor
  · intro h
    by_contra hover
    have hover := Nat.not_lt.mp hover
    obtain ⟨_, v', hrun, _⟩ := (free_crowded hover).exists_ok
    have hiso := h _ (volumeOf_crowded hover) (apart_crowded hover)
    have hkeep := hiso.free ⟨0, 0⟩ 2 1 (by decide) (Entry.live_of_file (by rw [table_crowded]; rfl))
    rw [hrun] at hkeep
    exact not_sameFile_crowded hover hrun hkeep
  · intro hfit v hv ha
    exact isolates_of_ready (hv.ready hfit) ha

/-- 最大の大きさのボリュームでは、一つのファイルの解放が、ほかのファイルの内容を変える。 -/
theorem free_corrupts_neighbour : ∃ v v', VolumeOf 0xFFFFFFFF v ∧ Apart v ∧ entryFree ⟨0, 0⟩ 2 v = (.ok (), v') ∧
    ((viewOf v).table 1).Live ∧ ¬ SameFile v v' 1 := by
  have hover : 2 ^ 32 - 32749 ≤ (0xFFFFFFFF : UInt32).toNat := by decide
  obtain ⟨_, v', hrun, _⟩ := (free_crowded hover).exists_ok
  refine ⟨crowdedVolume 0xFFFFFFFF, v', volumeOf_crowded hover, apart_crowded hover, hrun, ?_,
    not_sameFile_crowded hover hrun⟩
  exact Entry.live_of_file (by rw [table_crowded]; rfl)

end OwStorage.Usfs
