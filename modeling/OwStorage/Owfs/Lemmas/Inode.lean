import OwStorage.Owfs.Lemmas.Bitmap
import OwStorage.Owfs.Inode

/-!
# inode の表

表の一つの記録を書いても、ほかの記録は変わらない。書いた記録の検査値は合う。
-/

namespace OwStorage.Owfs

open Lib Prog

/-! ## 呼び出し側の inode を持つ計算 -/

section

variable {α : Type} {s : FileState} {Q : α → FileState → Prop} {E : OwfsErr → FileState → Prop}

@[simp] theorem wp_onVol {p : OwfsM α} :
    wp (onVol p) Q E s ↔
      wp p (fun a v => Q a { s with vol := v }) (fun e v => E e { s with vol := v }) s.vol := wp_within

@[simp] theorem wp_modifyInode {f : Inode → Inode} {Q : Unit → FileState → Prop} :
    wp (modifyInode f) Q E s ↔ Q () { s with inode := f s.inode } := Iff.rfl

theorem withInode_state {ino : Inode} {p : FileM α} {v : Vol} : (withInode ino p v).2 = (p ⟨v, ino⟩).2.vol := by
  unfold withInode
  rcases p ⟨v, ino⟩ with ⟨r, s⟩
  cases r <;> rfl

@[simp] theorem wp_withInode {ino : Inode} {p : FileM α} {v : Vol} {Q : α × Inode → Vol → Prop}
    {E : OwfsErr → Vol → Prop} :
    wp (withInode ino p) Q E v ↔
      wp p (fun a s => Q (a, s.inode) s.vol) (fun e s => E e s.vol) ⟨v, ino⟩ := by
  unfold wp withInode
  rcases p ⟨v, ino⟩ with ⟨r, s⟩
  cases r <;> rfl

end

/-! ## 記録の往復 -/

theorem length_enc_inode (ino : Inode) : (Inode.codec.enc ino).length = 256 := Inode.codec.length_enc ino

theorem toNat_inodeEntryIndex (n : UInt32) : (inodeEntryIndex n).toNat = n.toNat % 16 :=
  toNat_and_fifteen n

theorem inodeIn_patch_same (blk : Block) (n : UInt32) (ino : Inode) :
    inodeIn (blk.patch ((inodeEntryIndex n).toNat * 256) (Inode.codec.enc ino)) n = ino := by
  have hidx := toNat_inodeEntryIndex n
  have hsame := Bytes.slice_patch_same (v := blk) (k := (inodeEntryIndex n).toNat * 256)
    (w := Inode.codec.enc ino) (by rw [length_enc_inode]; omega)
  rw [length_enc_inode] at hsame
  unfold inodeIn
  rw [hsame, Inode.codec.dec_enc]

theorem inodeIn_patch_other (blk : Block) {n m : UInt32} (h : n.toNat % 16 ≠ m.toNat % 16) (ino : Inode) :
    inodeIn (blk.patch ((inodeEntryIndex n).toNat * 256) (Inode.codec.enc ino)) m = inodeIn blk m := by
  unfold inodeIn
  rw [Bytes.slice_patch_disjoint]
  rw [length_enc_inode, toNat_inodeEntryIndex, toNat_inodeEntryIndex]
  omega

/-- 検査値を付け直した inode。 -/
def Inode.sealed (ino : Inode) : Inode := { ino with checksum := inodeComputeChecksum ino }

theorem inodeComputeChecksum_checksum (ino : Inode) (x : UInt32) :
    inodeComputeChecksum { ino with checksum := x } = inodeComputeChecksum ino := by
  have hfront : (Inode.front.enc (Inode.fields ino).1).length = 0xFC := Inode.front.length_enc _
  have h := owCrc32cStruct_field (Inode.front.enc (Inode.fields ino).1) []
    (Codec.u32.enc x) (Codec.u32.enc ino.checksum) (Codec.u32.length_enc _) (Codec.u32.length_enc _)
  rw [hfront, List.append_nil, List.append_nil] at h
  exact h

theorem inodeComputeChecksum_sealed (ino : Inode) : inodeComputeChecksum ino.sealed = inodeComputeChecksum ino :=
  inodeComputeChecksum_checksum ino _

theorem verify_sealed (ino : Inode) : inodeVerifyChecksum ino.sealed = true := by
  unfold inodeVerifyChecksum
  rw [inodeComputeChecksum_sealed, beq_iff_eq]
  rfl

/-! ## 表 -/

/-- inode の表のブロック。 -/
def Superblock.tableRegion (sb : Superblock) : Set UInt32 :=
  { b | sb.inodeTableStart.toNat ≤ b.toNat ∧
    b.toNat < sb.inodeTableStart.toNat + sb.inodeTableBlocks.toNat }

/-- ディスク上の inode `n` の記録。 -/
def inodeAt (disk : Disk) (sb : Superblock) (n : UInt32) : Inode := inodeIn (disk (inodeBlockOffset sb n)) n

/-- inode `n` の記録の 256 バイト。 -/
def recordBytes (disk : Disk) (sb : Superblock) (n : UInt32) : List UInt8 :=
  (disk (inodeBlockOffset sb n)).slice ((inodeEntryIndex n).toNat * 256) 256

theorem enc_inodeAt (disk : Disk) (sb : Superblock) (n : UInt32) :
    Inode.codec.enc (inodeAt disk sb n) = recordBytes disk sb n := by
  have hidx : (inodeEntryIndex n).toNat < 16 := by
    unfold inodeEntryIndex
    rw [toNat_and_fifteen]
    exact Nat.mod_lt _ (by decide)
  unfold inodeAt inodeIn
  refine Inode.codec.enc_dec _ ?_
  rw [Bytes.length_slice]
  change min 256 (4096 - (inodeEntryIndex n).toNat * 256) = 256
  omega

section

variable {sb : Superblock} (hl : Layout sb)
include hl

theorem toNat_inodeBlockOffset {n : UInt32} (hn : n.toNat < sb.totalInodes.toNat) :
    (inodeBlockOffset sb n).toNat = sb.inodeTableStart.toNat + n.toNat / 16 := by
  have := hl.inodesFit
  have := hl.dataAfter
  have := sb.dataRegionStart.toNat_lt
  unfold inodeBlockOffset
  rw [toNat_add_lt (by rw [toNat_shiftRight_four]; omega), toNat_shiftRight_four]

theorem inodeBlockOffset_mem {n : UInt32} (hn : n.toNat < sb.totalInodes.toNat) :
    inodeBlockOffset sb n ∈ sb.tableRegion := by
  have := hl.inodesFit
  change _ ∧ _
  rw [toNat_inodeBlockOffset hl hn]
  omega

theorem inodeAt_congr {disk disk' : Disk} (h : ∀ b ∈ sb.tableRegion, disk' b = disk b) {n : UInt32}
    (hn : n.toNat < sb.totalInodes.toNat) : inodeAt disk' sb n = inodeAt disk sb n := by
  unfold inodeAt
  rw [h _ (inodeBlockOffset_mem hl hn)]

theorem inodeAt_update {disk : Disk} {n m : UInt32} (hn : n.toNat < sb.totalInodes.toNat)
    (hm : m.toNat < sb.totalInodes.toNat) (ino : Inode) :
    inodeAt (Function.update disk (inodeBlockOffset sb n) ((disk (inodeBlockOffset sb n)).patch
      ((inodeEntryIndex n).toNat * 256) (Inode.codec.enc ino))) sb m =
      if m = n then ino else inodeAt disk sb m := by
  unfold inodeAt
  by_cases hmn : m = n
  · subst hmn
    rw [Function.update_self, inodeIn_patch_same, if_pos rfl]
  · rw [if_neg hmn]
    by_cases hblk : inodeBlockOffset sb m = inodeBlockOffset sb n
    · have hq := congrArg UInt32.toNat hblk
      rw [toNat_inodeBlockOffset hl hn, toNat_inodeBlockOffset hl hm] at hq
      have hne : n.toNat % 16 ≠ m.toNat % 16 := by
        intro he
        exact hmn (UInt32.toNat_inj.mp (by omega))
      rw [hblk, Function.update_self, inodeIn_patch_other _ hne]
    · rw [Function.update_of_ne hblk]

end

/-- 表の一つの記録だけが変わった。 -/
structure Recorded (v v' : Vol) (n : UInt32) (ino : Inode) : Prop where
  inTable : n.toNat < v.sb.totalInodes.toNat
  sb : v'.sb = v.sb
  dev : v.dev.Evolves v.sb.tableRegion v'.dev
  table : ∀ m : UInt32, m.toNat < v.sb.totalInodes.toNat →
    inodeAt v'.dev.disk v.sb m = if m = n then ino else inodeAt v.dev.disk v.sb m

section

variable {v : Vol} (hl : Layout v.sb)
include hl

theorem Serves.table (hs : Serves v.dev.toHtlConfig v.sb) {n : UInt32}
    (hn : n.toNat < v.sb.totalInodes.toNat) : v.dev.Writes (inodeBlockOffset v.sb n) := by
  have := hl.dataAfter
  have := hl.dataNonempty
  have hmem := inodeBlockOffset_mem hl hn
  exact hs.writes _ (by have := hmem.2; omega)

theorem inodeLoad_spec (n : UInt32) :
    wp (inodeLoad n)
      (fun ino v' => n.toNat < v.sb.totalInodes.toNat ∧ ino = inodeAt v.dev.disk v.sb n ∧ Still v v')
      (fun e v' => Still v v' ∧
        ((e = .notFound ∧ ¬ n.toNat < v.sb.totalInodes.toNat) ∨
          (e = .io ∧ ¬ (v.dev.FaultFree ∧ Serves v.dev.toHtlConfig v.sb)))) v := by
  unfold inodeLoad
  simp only [wp_bind, wp_get, wp_failIf]
  refine ⟨fun h => ⟨refl_of Still v, .inl ⟨trivial, ?_⟩⟩, fun h => ?_⟩
  · have := UInt32.le_iff_toNat_le.mp h
    omega
  · have hn : n.toNat < v.sb.totalInodes.toNat := by
      rw [ge_iff_le, UInt32.not_le] at h
      exact UInt32.lt_iff_toNat_lt.mp h
    exact wp_readBlk (fun c _ => ⟨hn, rfl, c, rfl⟩)
      (fun c hf => ⟨⟨c, rfl⟩, .inr ⟨rfl, fun h => hf ⟨h.1, (h.2.table hl hn).toReads⟩⟩⟩)

theorem inodeRead_spec (n : UInt32) :
    wp (inodeRead n)
      (fun ino v' => n.toNat < v.sb.totalInodes.toNat ∧ ino = inodeAt v.dev.disk v.sb n ∧
        (ino.entryType ≠ 0 → inodeVerifyChecksum ino = true) ∧ Still v v')
      (fun e v' => Still v v' ∧
        ((e = .notFound ∧ ¬ n.toNat < v.sb.totalInodes.toNat) ∨
          (e = .checksumMismatch ∧ (inodeAt v.dev.disk v.sb n).entryType ≠ 0 ∧
            inodeVerifyChecksum (inodeAt v.dev.disk v.sb n) = false) ∨
          (e = .io ∧ ¬ (v.dev.FaultFree ∧ Serves v.dev.toHtlConfig v.sb)))) v := by
  unfold inodeRead
  rw [wp_bind]
  refine (inodeLoad_spec hl n).mono ?_ ?_
  · rintro _ v' ⟨hn, rfl, hstill⟩
    simp only [wp_bind, wp_failIf, wp_pure, Bool.not_eq_true', not_and, Bool.not_eq_false]
    exact ⟨fun h => ⟨hstill, .inr (.inl ⟨trivial, h⟩)⟩, fun h => ⟨hn, trivial, h, hstill⟩⟩
  · rintro e v' ⟨hstill, h | h⟩
    · exact ⟨hstill, .inl h⟩
    · exact ⟨hstill, .inr (.inr h)⟩

end

/-- inode の書き込みは、検査値を付けて、表のその記録だけを書き換える。 -/
theorem inodeWrite_spec {s : FileState} (hl : Layout s.vol.sb) (n : UInt32) :
    wp (inodeWrite n)
      (fun _ s' => s'.inode = s.inode.sealed ∧ Recorded s.vol s'.vol n s.inode.sealed)
      (fun _ s' => Still s.vol s'.vol ∧
        (s.vol.dev.FaultFree ∧ Serves s.vol.dev.toHtlConfig s.vol.sb →
          ¬ (n.toNat < s.vol.sb.totalInodes.toNat ∧ volumeWritable s.vol.sb = .ok ()))) s := by
  unfold inodeWrite
  simp only [wp_bind, wp_get, wp_failIf, wp_ofExcept]
  refine ⟨fun h => ⟨refl_of Still s.vol, fun _ hn => ?_⟩, fun h => ⟨fun _ _ => ?_, fun e he => ?_⟩⟩
  · have := UInt32.le_iff_toNat_le.mp h
    omega
  · have hn : n.toNat < s.vol.sb.totalInodes.toNat := by
      rw [ge_iff_le, UInt32.not_le] at h
      exact UInt32.lt_iff_toNat_lt.mp h
    rw [wp_onVol]
    refine wp_readBlk (fun c _ => ?_) (fun c hf => ?_)
    · rw [wp_modifyInode, wp_onVol]
      refine wp_writeBlk (fun c' _ => ⟨rfl, hn, rfl, .store (inodeBlockOffset_mem hl hn), ?_⟩)
        (fun e c' _ hf => ?_)
      · intro m hm
        exact inodeAt_update hl hn hm s.inode.sealed
      · exact ⟨⟨c', rfl⟩, fun hs _ => hf ⟨hs.1, hs.2.table hl hn⟩⟩
    · exact ⟨⟨c, rfl⟩, fun hs _ => hf ⟨hs.1, (hs.2.table hl hn).toReads⟩⟩
  · exact ⟨refl_of Still s.vol, fun _ hw => by rw [he] at hw; cases hw.2⟩

end OwStorage.Owfs
