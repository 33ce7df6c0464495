import OwStorage.Owfs.Lemmas.InodeTable
import OwStorage.Owfs.Catalog
import OwStorage.Lib.Slots

/-!
# カタログの項目の並び

カタログの項目は、カタログの inode のデータブロックに 16 個ずつ並ぶ枠の中にある。生きている枠の項目を順に並べたものを
カタログの中身とみて、枠の書き換えとカタログの伸長で、それがどう変わるかを示す。
-/

namespace OwStorage.Owfs

open Lib Prog

/-- ブロックの `e` 番目の枠。消された項目は空きとみる。 -/
def slotIn (blk : Block) (e : Nat) : Option CatalogEntry :=
  if entryLive (entryIn blk e) then some (entryIn blk e) else none

/-- カタログの `j` 番目の枠。 -/
def slotAt (disk : Disk) (ino : Inode) (j : Nat) : Option CatalogEntry :=
  slotIn (disk (mapBlock disk ino (j / 16))) (j % 16)

/-- カタログの中身。 -/
def entries (disk : Disk) (ino : Inode) : List CatalogEntry :=
  filled (slotAt disk ino) (ino.blockCount.toNat * 16)

/-- 項目に記された名前。 -/
def CatalogEntry.storedName (e : CatalogEntry) : List UInt8 := e.name.toList.take e.nameLength.toNat

/-! ## 一つのブロックの枠 -/

section

variable {blk blk' : Block} {e e' : Nat} {entry : CatalogEntry}

theorem length_enc_entry (entry : CatalogEntry) : (CatalogEntry.codec.enc entry).length = 256 :=
  CatalogEntry.codec.length_enc entry

theorem slotIn_of_live (h : entryLive (entryIn blk e) = true) : slotIn blk e = some (entryIn blk e) := if_pos h

theorem slotIn_of_not_live (h : entryLive (entryIn blk e) = false) : slotIn blk e = none := by
  unfold slotIn
  rw [h]
  rfl

theorem slotIn_eq_none : slotIn blk e = none ↔ entryLive (entryIn blk e) = false := by
  unfold slotIn
  split <;> simp_all

theorem slotIn_eq_some : slotIn blk e = some entry ↔ entryLive (entryIn blk e) = true ∧ entryIn blk e = entry := by
  unfold slotIn
  split <;> simp_all

theorem slotIn_congr (h : entryIn blk' e' = entryIn blk e) : slotIn blk' e' = slotIn blk e := by
  unfold slotIn
  rw [h]

theorem entryIn_putEntry_same (he : e < 16) : entryIn (putEntry blk e entry) e = entry := by
  have hsame := Bytes.slice_patch_same (v := blk) (k := e * 256) (w := CatalogEntry.codec.enc entry)
    (by rw [length_enc_entry]; omega)
  rw [length_enc_entry] at hsame
  unfold entryIn putEntry
  rw [hsame, CatalogEntry.codec.dec_enc]

theorem entryIn_putEntry_other (h : e' ≠ e) : entryIn (putEntry blk e entry) e' = entryIn blk e' := by
  unfold entryIn putEntry
  rw [Bytes.slice_patch_disjoint (by rw [length_enc_entry]; omega)]

theorem slotIn_putEntry_other (h : e' ≠ e) : slotIn (putEntry blk e entry) e' = slotIn blk e' :=
  slotIn_congr (entryIn_putEntry_other h)

theorem slotIn_zero (he : e < 16) : slotIn (Bytes.zero 4096) e = none := by
  have hslice : (Bytes.zero 4096).slice (e * 256) 256 = List.replicate 256 0 := by
    apply List.ext_getElem?
    intro i
    rw [Bytes.getElem?_slice, List.getElem?_replicate]
    by_cases hi : i < 256
    · rw [if_pos hi, if_pos hi, Vector.getElem?_eq_getElem (by omega), Bytes.getElem_zero]
    · rw [if_neg hi, if_neg hi]
  rw [slotIn_eq_none]
  unfold entryIn
  rw [hslice]
  decide

theorem entryName_eq (he : e < 16) (hlen : (entryIn blk e).nameLength.toNat ≤ 128) :
    entryName blk e = (entryIn blk e).storedName := by
  have hname : (entryIn blk e).name = Bytes.ofList 128 (blk.slice (e * 256 + 6) 128) := by
    unfold entryIn
    change Bytes.ofList 128 (((((blk.slice (e * 256) 256).take 252).drop 4).drop 1).drop 1 |>.take 128) = _
    congr 1
    apply List.ext_getElem?
    intro i
    simp only [List.getElem?_take, List.getElem?_drop, Bytes.getElem?_slice]
    by_cases hi : i < 128
    · rw [if_pos hi, if_pos hi, if_pos (by omega), if_pos (by omega),
        show e * 256 + (4 + (1 + (1 + i))) = e * 256 + 6 + i by omega]
    · rw [if_neg hi, if_neg hi]
  unfold entryName CatalogEntry.storedName
  rw [hname, Bytes.toList_ofList (by rw [Bytes.length_slice]; omega)]
  unfold Bytes.slice
  rw [List.take_take, Nat.min_eq_left hlen]

end

/-! ## 書く項目 -/

/-- 名前の緩衝域は、名前の長さだけのバイトを持つ。呼び出し側の約束である。 -/
def HoldsName (name : Option (List UInt8)) (nameLen : Nat) : Prop := ∀ l ∈ name, nameLen ≤ l.length

section

variable {name : Option (List UInt8)} {nameLen : Nat} {target : UInt32} {entryType : UInt8}

theorem length_nameBytes (h : HoldsName name nameLen) (hs : name.isSome = true) :
    (nameBytes name nameLen).length = nameLen := by
  obtain ⟨l, rfl⟩ := Option.isSome_iff_exists.mp hs
  have hl := h l rfl
  simp [nameBytes, hl]

theorem catalogEntryComputeChecksum_set (e : CatalogEntry) (c : UInt32) :
    catalogEntryComputeChecksum { e with checksum := c } = catalogEntryComputeChecksum e := by
  have hfront : (CatalogEntry.front.enc (CatalogEntry.fields e).1).length = 0xFC := CatalogEntry.front.length_enc _
  have h := owCrc32cStruct_field (CatalogEntry.front.enc (CatalogEntry.fields e).1) [] (Codec.u32.enc c)
    (Codec.u32.enc e.checksum) (Codec.u32.length_enc _) (Codec.u32.length_enc _)
  rw [hfront, List.append_nil, List.append_nil] at h
  exact h

theorem verify_freshEntry : catalogEntryVerifyChecksum (freshEntry target entryType name nameLen) = true := by
  unfold catalogEntryVerifyChecksum freshEntry
  rw [beq_iff_eq, catalogEntryComputeChecksum_set]

theorem entryLive_freshEntry (h : entryType = entryFile ∨ entryType = entryCatalog) :
    entryLive (freshEntry target entryType name nameLen) = true := by
  change (entryType != 0 && entryType &&& entryDeleted == 0) = true
  rcases h with rfl | rfl <;> decide

theorem entryLive_deletedEntry (e : CatalogEntry) : entryLive (deletedEntry e) = false := by
  change (_ && (e.entryType ||| entryDeleted) &&& entryDeleted == 0) = false
  rw [or_and_mask, Bool.and_eq_false_iff]
  exact .inr (by decide)

theorem nameLength_freshEntry (hlt : nameLen < 128) :
    (freshEntry target entryType name nameLen).nameLength.toNat = nameLen := by
  change (UInt8.ofNat nameLen).toNat = nameLen
  exact UInt8.toNat_ofNat_of_lt (hlt.trans (by decide))

theorem storedName_freshEntry (h : HoldsName name nameLen) (hs : name.isSome = true) (hlt : nameLen < 128) :
    (freshEntry target entryType name nameLen).storedName = nameBytes name nameLen := by
  have hlen := length_nameBytes h hs
  have hsame := Bytes.slice_patch_same (v := Bytes.zero 128) (k := 0) (w := nameBytes name nameLen)
    (by rw [hlen]; omega)
  unfold CatalogEntry.storedName
  rw [nameLength_freshEntry hlt]
  rw [hlen] at hsame
  exact hsame

end

/-! ## カタログの全体 -/

section

variable {v v' : Vol} {f : UInt32 → Inode} {n : UInt32} {ino ino' : Inode} {disk disk' : Disk}
  {k e c : Nat} {blk : Block}
  {T : Set UInt32} {a : CatalogEntry}

theorem mem_entries : a ∈ entries disk ino ↔ ∃ j, j < ino.blockCount.toNat * 16 ∧ slotAt disk ino j = some a :=
  mem_filled

theorem slotAt_congr {j : Nat}
    (h : disk' (mapBlock disk' ino' (j / 16)) = disk (mapBlock disk ino (j / 16))) :
    slotAt disk' ino' j = slotAt disk ino j := by
  unfold slotAt
  rw [h]

theorem entries_eq_nil (h : ino.blockCount = 0) : entries disk ino = [] := by
  unfold entries
  rw [h]
  rfl

theorem entries_congr (hcount : ino'.blockCount = ino.blockCount)
    (h : ∀ i, i < ino.blockCount.toNat → disk' (mapBlock disk' ino' i) = disk (mapBlock disk ino i)) :
    entries disk' ino' = entries disk ino := by
  unfold entries
  rw [hcount]
  refine filled_congr fun j hj => slotAt_congr (h _ ?_)
  omega

theorem Spares.entries_eq (h : Spares T v v') (hw : WellFormed v) (hn : n.toNat < v.sb.totalInodes.toNat) (hT : n ∉ T)
    (ht : (inodeAt v.dev.disk v.sb n).entryType ≠ 0) :
    entries v'.dev.disk (inodeAt v'.dev.disk v'.sb n) = entries v.dev.disk (inodeAt v.dev.disk v.sb n) := by
  rw [h.record n hn hT]
  refine entries_congr rfl fun i hi => ?_
  obtain ⟨hmap, hblk⟩ := h.mapped_eq hw hn hT ht hi
  rw [hmap, hblk]

theorem Sound.block_put (h : Sound v.dev.disk v.sb (Function.update f n ino)) (hn : n.toNat < v.sb.totalInodes.toNat)
    (hk : k < ino.blockCount.toNat) {i : Nat} (hi : i < ino.blockCount.toNat) :
    (v.put (mapBlock v.dev.disk ino k) blk c).dev.disk
        (mapBlock (v.put (mapBlock v.dev.disk ino k) blk c).dev.disk ino i) =
      if i = k then blk else v.dev.disk (mapBlock v.dev.disk ino i) := by
  have hmap : mapBlock (v.put (mapBlock v.dev.disk ino k) blk c).dev.disk ino i = mapBlock v.dev.disk ino i := by
    refine h.mapBlock_of_mapped hn (fun b hb => Function.update_of_ne ?_ _ _) hi
    rintro rfl
    exact hb ⟨k, hk, rfl⟩
  rw [hmap]
  split
  · rename_i hik
    rw [hik]
    exact Function.update_self _ _ _
  · rename_i hik
    exact Function.update_of_ne (h.mapped_ne_self hn hi hk hik) _ _

theorem Sound.slotAt_put (h : Sound v.dev.disk v.sb (Function.update f n ino)) (hn : n.toNat < v.sb.totalInodes.toNat)
    (hk : k < ino.blockCount.toNat) {j : Nat} (hj : j < ino.blockCount.toNat * 16) :
    slotAt (v.put (mapBlock v.dev.disk ino k) blk c).dev.disk ino j =
      if j / 16 = k then slotIn blk (j % 16) else slotAt v.dev.disk ino j := by
  unfold slotAt
  rw [h.block_put hn hk (by omega)]
  split <;> rfl

theorem Sound.slotAt_putEntry_other (h : Sound v.dev.disk v.sb (Function.update f n ino))
    (hn : n.toNat < v.sb.totalInodes.toNat) (hk : k < ino.blockCount.toNat) {j : Nat}
    (hj : j < ino.blockCount.toNat * 16) (hne : j ≠ k * 16 + e) :
    slotAt (v.put (mapBlock v.dev.disk ino k) (putEntry (v.dev.disk (mapBlock v.dev.disk ino k)) e a)
      c).dev.disk ino j =
      slotAt v.dev.disk ino j := by
  rw [h.slotAt_put hn hk hj]
  split
  · rename_i hjk
    rw [slotIn_putEntry_other (by omega)]
    unfold slotAt
    rw [hjk]
  · rfl

theorem Sound.slotAt_putEntry_same (h : Sound v.dev.disk v.sb (Function.update f n ino))
    (hn : n.toNat < v.sb.totalInodes.toNat) (hk : k < ino.blockCount.toNat) (he : e < 16) :
    slotAt (v.put (mapBlock v.dev.disk ino k) (putEntry (v.dev.disk (mapBlock v.dev.disk ino k)) e a) c).dev.disk ino
      (k * 16 + e) = if entryLive a then some a else none := by
  rw [h.slotAt_put hn hk (by omega), if_pos (by omega), show (k * 16 + e) % 16 = e by omega]
  unfold slotIn
  rw [entryIn_putEntry_same he]

theorem slotAt_at (disk : Disk) (ino : Inode) (k : Nat) (he : e < 16) :
    slotAt disk ino (k * 16 + e) = slotIn (disk (mapBlock disk ino k)) e := by
  unfold slotAt
  rw [show (k * 16 + e) / 16 = k by omega, show (k * 16 + e) % 16 = e by omega]

theorem Sound.entries_put (h : Sound v.dev.disk v.sb (Function.update f n ino)) (hn : n.toNat < v.sb.totalInodes.toNat)
    (hk : k < ino.blockCount.toNat) (he : e < 16)
    (hfree : entryLive (entryIn (v.dev.disk (mapBlock v.dev.disk ino k)) e) = false) (hlive : entryLive a = true) :
    (entries (v.put (mapBlock v.dev.disk ino k) (putEntry (v.dev.disk (mapBlock v.dev.disk ino k)) e a) c).dev.disk
      ino).Perm (a :: entries v.dev.disk ino) := by
  refine filled_put (j := k * 16 + e) (by omega) ?_ ?_ fun j hj hne => h.slotAt_putEntry_other hn hk hj hne
  · rw [slotAt_at _ _ _ he, slotIn_of_not_live hfree]
  · rw [h.slotAt_putEntry_same hn hk he, if_pos hlive]

theorem Sound.entries_erase (h : Sound v.dev.disk v.sb (Function.update f n ino))
    (hn : n.toNat < v.sb.totalInodes.toNat)
    (hk : k < ino.blockCount.toNat) (he : e < 16)
    (hlive : entryLive (entryIn (v.dev.disk (mapBlock v.dev.disk ino k)) e) = true) (hdead : entryLive a = false) :
    (entries v.dev.disk ino).Perm (entryIn (v.dev.disk (mapBlock v.dev.disk ino k)) e ::
      entries (v.put (mapBlock v.dev.disk ino k) (putEntry (v.dev.disk (mapBlock v.dev.disk ino k)) e a) c).dev.disk
        ino) := by
  refine filled_put (j := k * 16 + e) (by omega) ?_ ?_ fun j hj hne => (h.slotAt_putEntry_other hn hk hj hne).symm
  · rw [h.slotAt_putEntry_same hn hk he, if_neg (by simp [hdead])]
  · rw [slotAt_at _ _ _ he, slotIn_of_live hlive]

theorem entries_grow (hcount : ino'.blockCount.toNat = ino.blockCount.toNat + 1)
    (hold : ∀ i, i < ino.blockCount.toNat → disk' (mapBlock disk' ino' i) = disk (mapBlock disk ino i))
    (hnew : disk' (mapBlock disk' ino' ino.blockCount.toNat) = putEntry (Bytes.zero 4096) 0 a)
    (hlive : entryLive a = true) : entries disk' ino' = entries disk ino ++ [a] := by
  unfold entries
  rw [hcount, show (ino.blockCount.toNat + 1) * 16 = ino.blockCount.toNat * 16 + 16 by ring]
  refine filled_grow (by decide) (fun j hj => slotAt_congr (hold _ (by omega))) ?_ fun j hlo hhi => ?_
  · rw [← Nat.add_zero (ino.blockCount.toNat * 16), slotAt_at _ _ _ (by decide), hnew]
    unfold slotIn
    rw [entryIn_putEntry_same (by decide), if_pos hlive]
  · obtain ⟨e, rfl⟩ : ∃ e, j = ino.blockCount.toNat * 16 + e := ⟨j - ino.blockCount.toNat * 16, by omega⟩
    rw [slotAt_at _ _ _ (by omega), hnew, slotIn_putEntry_other (by omega), slotIn_zero (by omega)]

end

end OwStorage.Owfs
