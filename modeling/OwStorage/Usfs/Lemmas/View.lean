import OwStorage.Usfs.Lemmas.Entry

/-!
# ボリュームの見かけ

装置とスーパーブロックから、印の列と項目の表と二つの数の欄だけを取り出して `View` とする。基本の操作はどれも、
見かけの一つの成分と、決まったデータブロックだけを変える。
-/

namespace OwStorage.Usfs

open Lib Prog

/-- 呼び出しの列が変えうるもの。 -/
structure View where
  used : Nat → Bool
  table : UInt32 → Entry
  freeBlocks : UInt32
  usedEntries : UInt32

/-- データ領域の中の番号に限った印。 -/
def bitsView (disk : Disk) (sb : Superblock) (r : Nat) : Bool := decide (r < sb.dataCount) && bitOf disk sb r

/-- 表の外の番号には空の項目を置く。 -/
def tableView (disk : Disk) (sb : Superblock) (idx : UInt32) : Entry :=
  if idx.toNat < sb.totalEntries.toNat then entryAt disk sb idx else Entry.zero

def viewOf (v : Vol) : View :=
  ⟨bitsView v.dev.disk v.sb, tableView v.dev.disk v.sb, v.sb.freeBlocks, v.sb.usedEntries⟩

/-- 二つの数の欄だけが違うスーパーブロック。 -/
def SameShape (sb sb' : Superblock) : Prop :=
  ∃ n k, sb' = { sb with freeBlocks := n, usedEntries := k }

/-- `v` から `v'` へ、データブロックは `T` の中だけを変えて移り、見かけが `w` になった。 -/
structure Becomes (T : Set UInt32) (v v' : Vol) (w : View) : Prop where
  shape : SameShape v.sb v'.sb
  config : v'.dev.toHtlConfig = v.dev.toHtlConfig
  view : viewOf v' = w
  data : ∀ b, v.sb.IsData b → b ∉ T → v'.dev.disk b = v.dev.disk b

/-- 失敗のない装置の上のボリューム。 -/
structure Ready (v : Vol) : Prop where
  layout : Layout v.sb
  nonempty : v.sb.dataRegionStart.toNat < v.sb.totalBlocks.toNat
  faultFree : v.dev.FaultFree
  serves : Serves v.dev.toHtlConfig v.sb

/-- 失敗のない装置の上の、領域の並んだボリューム。ビットマップはデータ領域を覆わなくてもよい。 -/
structure Stable (v : Vol) : Prop where
  placed : Placed v.sb
  faultFree : v.dev.FaultFree
  serves : Serves v.dev.toHtlConfig v.sb

theorem Ready.stable {v : Vol} (hr : Ready v) : Stable v := ⟨hr.layout.placed, hr.faultFree, hr.serves⟩

theorem Still.stable {v v' : Vol} (h : Still v v') (hs : Stable v) : Stable v' := by
  obtain ⟨c, rfl⟩ := h
  exact ⟨hs.placed, hs.faultFree, hs.serves⟩

section

variable {sb sb' sb'' : Superblock} {disk : Disk}

theorem SameShape.refl (sb : Superblock) : SameShape sb sb := ⟨sb.freeBlocks, sb.usedEntries, rfl⟩

theorem SameShape.trans (h : SameShape sb sb') (h' : SameShape sb' sb'') : SameShape sb sb'' := by
  obtain ⟨_, _, rfl⟩ := h
  obtain ⟨n, k, rfl⟩ := h'
  exact ⟨n, k, rfl⟩

theorem SameShape.layout (h : SameShape sb sb') (hl : Layout sb) : Layout sb' := by
  obtain ⟨_, _, rfl⟩ := h
  exact ⟨hl.tableAfter, hl.bitmapAfter, hl.dataAfter, hl.entriesFit, hl.bitmapCovers⟩

theorem SameShape.isData (h : SameShape sb sb') {b : UInt32} : sb'.IsData b ↔ sb.IsData b := by
  obtain ⟨_, _, rfl⟩ := h
  exact Iff.rfl

theorem SameShape.dataCount (h : SameShape sb sb') : sb'.dataCount = sb.dataCount := by
  obtain ⟨_, _, rfl⟩ := h
  rfl

theorem SameShape.dataRegionStart (h : SameShape sb sb') : sb'.dataRegionStart = sb.dataRegionStart := by
  obtain ⟨_, _, rfl⟩ := h
  rfl

theorem SameShape.totalBlocks (h : SameShape sb sb') : sb'.totalBlocks = sb.totalBlocks := by
  obtain ⟨_, _, rfl⟩ := h
  rfl

theorem SameShape.totalEntries (h : SameShape sb sb') : sb'.totalEntries = sb.totalEntries := by
  obtain ⟨_, _, rfl⟩ := h
  rfl

theorem SameShape.serves (h : SameShape sb sb') {c : HtlConfig} (hs : Serves c sb) : Serves c sb' := by
  obtain ⟨_, _, rfl⟩ := h
  exact ⟨hs.writes, hs.wholeBlocks⟩

theorem SameShape.writable (h : SameShape sb sb') : volumeWritable sb' = volumeWritable sb := by
  obtain ⟨_, _, rfl⟩ := h
  rfl

theorem SameShape.bitsView (h : SameShape sb sb') : bitsView disk sb' = bitsView disk sb := by
  obtain ⟨_, _, rfl⟩ := h
  rfl

theorem SameShape.tableView (h : SameShape sb sb') : tableView disk sb' = tableView disk sb := by
  obtain ⟨_, _, rfl⟩ := h
  rfl

theorem bitsView_eq {r : Nat} (hr : r < sb.dataCount) : bitsView disk sb r = bitOf disk sb r := by
  unfold bitsView
  rw [decide_eq_true hr, Bool.true_and]

theorem tableView_eq {idx : UInt32} (h : idx.toNat < sb.totalEntries.toNat) :
    tableView disk sb idx = entryAt disk sb idx := if_pos h

end

namespace Becomes

variable {T T' : Set UInt32} {v v' v'' : Vol} {w w' : View}

theorem refl (v : Vol) : Becomes T v v (viewOf v) := ⟨.refl _, rfl, rfl, fun _ _ _ => rfl⟩

theorem trans (h : Becomes T v v' w) (h' : Becomes T' v' v'' w') : Becomes (T ∪ T') v v'' w' := by
  refine ⟨h.shape.trans h'.shape, h'.config.trans h.config, h'.view, fun b hb hout => ?_⟩
  rw [Set.mem_union, not_or] at hout
  rw [h'.data b (h.shape.isData.mpr hb) hout.2, h.data b hb hout.1]

theorem mono (h : Becomes T v v' w) (hT : T ⊆ T') : Becomes T' v v' w :=
  ⟨h.shape, h.config, h.view, fun b hb hout => h.data b hb fun hb' => hout (hT hb')⟩

theorem ready (h : Becomes T v v' w) (hr : Ready v) : Ready v' := by
  refine ⟨h.shape.layout hr.layout, ?_, ?_, ?_⟩
  · obtain ⟨_, _, hsb⟩ := h.shape
    rw [hsb]
    exact hr.nonempty
  · unfold HtlConfig.FaultFree
    rw [h.config]
    exact hr.faultFree
  · rw [h.config]
    exact h.shape.serves hr.serves

theorem of_still (h : Still v v') : Becomes T v v' (viewOf v) := by
  obtain ⟨c, rfl⟩ := h
  exact ⟨.refl _, rfl, rfl, fun _ _ _ => rfl⟩

end Becomes

theorem Still.ready {v v' : Vol} (h : Still v v') (hr : Ready v) : Ready v' :=
  (Becomes.of_still (T := ∅) h).ready hr

/-! ## 基本の操作 -/

section

variable {T : Set UInt32} {v v' : Vol}

theorem Marked.becomes {s len : Nat} {used : Bool} {n : UInt32} (h : Marked v v' s len used) (hl : Layout v.sb)
    (hfit : s + len ≤ v.sb.dataCount) (hsb : v'.sb = { v.sb with freeBlocks := n }) :
    Becomes T v v' { viewOf v with used := fill (viewOf v).used s len used, freeBlocks := n } := by
  have hshape : SameShape v.sb v'.sb := ⟨n, v.sb.usedEntries, hsb⟩
  have hbits : bitsView v'.dev.disk v'.sb = fill (bitsView v.dev.disk v.sb) s len used := by
    rw [hshape.bitsView]
    funext r
    by_cases hr : r < v.sb.dataCount
    · rw [bitsView_eq hr, h.bits r (lt_bitmap_of_lt_data hl hr)]
      unfold fill
      rw [bitsView_eq hr]
    · rw [fill_of_notMem (by omega)]
      unfold bitsView
      rw [decide_eq_false hr, Bool.false_and, Bool.false_and]
  have htable : tableView v'.dev.disk v'.sb = tableView v.dev.disk v.sb := by
    rw [hshape.tableView]
    funext idx
    unfold tableView
    split
    · rename_i hi
      exact entryAt_congr hl (fun b hb => h.dev.disk b (table_not_bitmap hl hb)) hi
    · rfl
  refine ⟨hshape, h.dev.config, ?_, fun b hb _ => h.dev.disk b (data_not_bitmap hl hb)⟩
  unfold viewOf
  rw [hbits, htable, hsb]

theorem Recorded.becomes {idx : UInt32} {e : Entry} (h : Recorded v v' idx e) (hl : Layout v.sb) :
    Becomes T v v' { viewOf v with table := Function.update (viewOf v).table idx e } := by
  have hshape : SameShape v.sb v'.sb := h.sb ▸ SameShape.refl _
  have hbits : bitsView v'.dev.disk v'.sb = bitsView v.dev.disk v.sb := by
    rw [hshape.bitsView]
    funext r
    by_cases hr : r < v.sb.dataCount
    · rw [bitsView_eq hr, bitsView_eq hr]
      exact bitOf_congr hl (fun b hb => h.dev.disk b fun ht => table_not_bitmap hl ht hb) (lt_bitmap_of_lt_data hl hr)
    · unfold bitsView
      rw [decide_eq_false hr, Bool.false_and, Bool.false_and]
  have htable : tableView v'.dev.disk v'.sb = Function.update (tableView v.dev.disk v.sb) idx e := by
    rw [hshape.tableView]
    funext j
    by_cases hj : j.toNat < v.sb.totalEntries.toNat
    · rw [tableView_eq hj, h.table j hj]
      by_cases hji : j = idx
      · rw [if_pos hji, hji, Function.update_self]
      · rw [if_neg hji, Function.update_of_ne hji, tableView_eq hj]
    · have hji : j ≠ idx := by
        rintro rfl
        exact hj h.inTable
      rw [Function.update_of_ne hji]
      unfold tableView
      rw [if_neg hj, if_neg hj]
  refine ⟨hshape, h.dev.config, ?_, fun b hb _ => h.dev.disk b (data_not_table hl hb)⟩
  unfold viewOf
  rw [hbits, htable, h.sb]

theorem put_becomes {b : UInt32} {blk : Block} {c : Nat} (hl : Layout v.sb) (hb : v.sb.IsData b) :
    Becomes {b} v (v.put b blk c) (viewOf v) := by
  have hne : ∀ x, x ≠ b → (v.put b blk c).dev.disk x = v.dev.disk x := fun x hx => Function.update_of_ne hx _ _
  have hbits : bitsView (v.put b blk c).dev.disk v.sb = bitsView v.dev.disk v.sb := by
    funext r
    by_cases hr : r < v.sb.dataCount
    · rw [bitsView_eq hr, bitsView_eq hr]
      refine bitOf_congr hl (fun x hx => hne x ?_) (lt_bitmap_of_lt_data hl hr)
      rintro rfl
      exact data_not_bitmap hl hb hx
    · unfold bitsView
      rw [decide_eq_false hr, Bool.false_and, Bool.false_and]
  have htable : tableView (v.put b blk c).dev.disk v.sb = tableView v.dev.disk v.sb := by
    funext idx
    unfold tableView
    split
    · rename_i hi
      refine entryAt_congr hl (fun x hx => hne x ?_) hi
      rintro rfl
      exact data_not_table hl hb hx
    · rfl
  refine ⟨.refl _, rfl, ?_, fun x _ hx => hne x fun he => hx (by rw [he]; exact Set.mem_singleton b)⟩
  unfold viewOf
  change View.mk (bitsView (v.put b blk c).dev.disk v.sb) (tableView (v.put b blk c).dev.disk v.sb) _ _ = _
  rw [hbits, htable]
  rfl

theorem usedEntries_becomes (k : UInt32) :
    Becomes T v { v with sb := { v.sb with usedEntries := k } } { viewOf v with usedEntries := k } :=
  ⟨⟨v.sb.freeBlocks, k, rfl⟩, rfl, rfl, fun _ _ _ => rfl⟩

end

/-! ## スーパーブロックの書き直し -/

/-- 配置と二つの数の欄の同じスーパーブロック。 -/
def SameGeometry (sb sb' : Superblock) : Prop :=
  ∃ sec state mounts sig sum crc, sb' = { sb with
    securityFlags := sec
    stateFlags := state
    mountCount := mounts
    signature := sig
    fletcher64Bitmap := sum
    checksum := crc }

/-- ブロック 0 と、配置に関わらない欄だけを変えて移った。 -/
structure Resaved (v v' : Vol) : Prop where
  geometry : SameGeometry v.sb v'.sb
  config : v'.dev.toHtlConfig = v.dev.toHtlConfig
  disk : ∀ b, b ≠ 0 → v'.dev.disk b = v.dev.disk b

section

variable {sb sb' sb'' : Superblock}

theorem SameGeometry.refl (sb : Superblock) : SameGeometry sb sb :=
  ⟨sb.securityFlags, sb.stateFlags, sb.mountCount, sb.signature, sb.fletcher64Bitmap, sb.checksum, rfl⟩

theorem SameGeometry.trans (h : SameGeometry sb sb') (h' : SameGeometry sb' sb'') : SameGeometry sb sb'' := by
  obtain ⟨_, _, _, _, _, _, rfl⟩ := h
  obtain ⟨sec, state, mounts, sig, sum, crc, rfl⟩ := h'
  exact ⟨sec, state, mounts, sig, sum, crc, rfl⟩

theorem SameGeometry.sealed (sb : Superblock) : SameGeometry sb sb.sealed :=
  ⟨sb.securityFlags, sb.stateFlags, sb.mountCount, sb.signature, sb.fletcher64Bitmap, superblockComputeChecksum sb, rfl⟩

theorem SameGeometry.layout (h : SameGeometry sb sb') (hl : Layout sb) : Layout sb' := by
  obtain ⟨_, _, _, _, _, _, rfl⟩ := h
  exact ⟨hl.tableAfter, hl.bitmapAfter, hl.dataAfter, hl.entriesFit, hl.bitmapCovers⟩

theorem SameGeometry.branded (h : SameGeometry sb sb') (hb : sb.Branded) : sb'.Branded := by
  obtain ⟨_, _, _, _, _, _, rfl⟩ := h
  exact hb

end

namespace Resaved

variable {v v' v'' : Vol}

theorem refl (v : Vol) : Resaved v v := ⟨.refl _, rfl, fun _ _ => rfl⟩

theorem trans (h : Resaved v v') (h' : Resaved v' v'') : Resaved v v'' :=
  ⟨h.geometry.trans h'.geometry, h'.config.trans h.config, fun b hb => (h'.disk b hb).trans (h.disk b hb)⟩

theorem of_still (h : Still v v') : Resaved v v' := by
  obtain ⟨c, rfl⟩ := h
  exact ⟨.refl _, rfl, fun _ _ => rfl⟩

theorem ready (h : Resaved v v') (hr : Ready v) : Ready v' := by
  have hff : v'.dev.FaultFree := by
    unfold HtlConfig.FaultFree
    rw [h.config]
    exact hr.faultFree
  obtain ⟨⟨_, _, _, _, _, _, hsb⟩, hconfig, _⟩ := h
  refine ⟨?_, ?_, hff, ?_⟩
  · rw [hsb]
    exact ⟨hr.layout.tableAfter, hr.layout.bitmapAfter, hr.layout.dataAfter, hr.layout.entriesFit,
      hr.layout.bitmapCovers⟩
  · rw [hsb]
    exact hr.nonempty
  · rw [hsb, hconfig]
    exact ⟨hr.serves.writes, hr.serves.wholeBlocks⟩

theorem bitmap (h : Resaved v v') (hl : Layout v.sb) : ∀ b ∈ v.sb.bitmapRegion, v'.dev.disk b = v.dev.disk b := by
  intro b hb
  apply h.disk b
  rintro rfl
  have htable := hl.tableAfter
  have hbitmap := hl.bitmapAfter
  have hlow := hb.1
  rw [UInt32.toNat_zero] at hlow
  omega

theorem table (h : Resaved v v') (hp : Placed v.sb) : ∀ b ∈ v.sb.tableRegion, v'.dev.disk b = v.dev.disk b := by
  intro b hb
  apply h.disk b
  rintro rfl
  have htable := hp.tableAfter
  have hlow := hb.1
  rw [UInt32.toNat_zero] at hlow
  omega

theorem view (h : Resaved v v') (hl : Layout v.sb) : viewOf v' = viewOf v := by
  have hbits : bitsView v'.dev.disk v.sb = bitsView v.dev.disk v.sb := by
    funext r
    unfold bitsView
    by_cases hr : r < v.sb.dataCount
    · rw [bitOf_congr hl (h.bitmap hl) (lt_bitmap_of_lt_data hl hr)]
    · rw [decide_eq_false hr, Bool.false_and, Bool.false_and]
  have htable : tableView v'.dev.disk v.sb = tableView v.dev.disk v.sb := by
    funext idx
    unfold tableView
    split
    · rename_i hi
      exact entryAt_congr hl (h.table hl.placed) hi
    · rfl
  obtain ⟨⟨_, _, _, _, _, _, hsb⟩, _, _⟩ := h
  calc viewOf v' = ⟨bitsView v'.dev.disk v.sb, tableView v'.dev.disk v.sb, v.sb.freeBlocks, v.sb.usedEntries⟩ := by
        unfold viewOf
        rw [hsb]
        rfl
    _ = viewOf v := by
        rw [hbits, htable]
        rfl

end Resaved

end OwStorage.Usfs
