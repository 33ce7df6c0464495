import OwStorage.Owfs.Lemmas.Grow
import OwStorage.Owfs.File
import OwStorage.Common.Lemmas.Crypto
import OwStorage.Lib.Paged

/-!
# ファイルの内容

ファイルの内容は、対応するブロックを復号して続けて並べ、大きさで切ったものである。読み取りはその一部を返し、
書き込みの繰り返しは書いた範囲だけを変える。
-/

namespace OwStorage.Owfs

open Lib Prog

/-- 論理番号 `i` のブロックを復号したもの。 -/
def plainBlock (disk : Disk) (sb : Superblock) (ino : Inode) (i : Nat) : Block :=
  cryptoXform sb ino (disk (mapBlock disk ino i)) (mapBlock disk ino i)

/-- ファイルの内容。 -/
def fileContent (disk : Disk) (sb : Superblock) (ino : Inode) : List UInt8 :=
  pages (plainBlock disk sb ino) ino.blockCount.toNat ino.sizeBytes.toNat

/-- 暗号化する鍵の列の、物理ブロック `b` の分。 -/
def keystreamBlock (sb : Superblock) (b : UInt32) : Block :=
  Bytes.ofList 4096 (owChacha20Xor b sb.keySlot1.toList sb.cryptoNonce.toList (Bytes.zero 4096).toList)

theorem cryptoXform_invol (sb : Superblock) (ino : Inode) (buf : Block) (b : UInt32) :
    cryptoXform sb ino (cryptoXform sb ino buf b) b = buf := by
  unfold cryptoXform
  split
  · rw [Bytes.toList_ofList (by simp), owChacha20Xor_invol, Bytes.ofList_toList]
  · rfl

/-- 暗号化するファイルのバイトは、鍵の列との排他的論理和になる。 -/
theorem cryptoXform_byte {sb : Superblock} {ino : Inode} (henc : isEncrypted sb ino = true) (buf : Block) (b : UInt32)
    {j : Nat} (hj : j < 4096) :
    (cryptoXform sb ino buf b)[j]?.getD 0 = buf[j]?.getD 0 ^^^ (keystreamBlock sb b)[j]?.getD 0 := by
  have hlen : buf.toList.length = 4096 := Vector.length_toList
  have hzeros : (Bytes.zero 4096).toList = List.replicate buf.toList.length 0 := by
    rw [hlen]
    exact Vector.toList_replicate
  unfold cryptoXform keystreamBlock Bytes.ofList
  rw [if_pos henc, getElem?_pos _ j hj, getElem?_pos _ j hj, getElem?_pos _ j hj, Bytes.getElem_build,
    Bytes.getElem_build,
    hzeros, owChacha20Xor_zeros]
  have hks : (owChacha20Xor b sb.keySlot1.toList sb.cryptoNonce.toList (List.replicate buf.toList.length 0)).length =
      4096 := by
    rw [length_owChacha20Xor, List.length_replicate, hlen]
  generalize owChacha20Xor b sb.keySlot1.toList sb.cryptoNonce.toList (List.replicate buf.toList.length 0) = ks at hks
  rw [List.getElem?_zipWith, List.getElem?_eq_getElem (hlen.symm ▸ hj : j < buf.toList.length),
    List.getElem?_eq_getElem (hks.symm ▸ hj : j < ks.length)]
  rfl

/-! ## 一回分の長さ -/

theorem toNat_chunkLen (pos rest : UInt32) :
    (chunkLen pos rest).toNat = min rest.toNat (4096 - pos.toNat % 4096) := toNat_chunk pos rest

/-! ## 対応するブロック -/

section

variable {v : Vol} {f : UInt32 → Inode} {n : UInt32} {ino : Inode}

theorem mapped_mem_refs (hn : n.toNat < v.sb.totalInodes.toNat) {i : Nat} (hi : i < ino.blockCount.toNat) :
    (n, some i) ∈ refs v.sb (Function.update f n ino) := mem_refs_update_self.mpr ⟨hn, hi⟩

theorem Sound.mapBlock_isData (h : Sound v.dev.disk v.sb (Function.update f n ino))
    (hn : n.toNat < v.sb.totalInodes.toNat) {i : Nat} (hi : i < ino.blockCount.toNat) :
    v.sb.IsData (mapBlock v.dev.disk ino i) := by
  have hd := h.isData (mapped_mem_refs hn hi)
  rwa [target_update_self] at hd

/-- 装置がデータブロックのどれも読める。 -/
structure ReadsData (c : HtlConfig) (sb : Superblock) : Prop where
  reads : ∀ b, sb.IsData b → c.Reads b
  wholeBlocks : c.WholeBlocks

theorem Serves.readsData {c : HtlConfig} {sb : Superblock} (hs : Serves c sb) : ReadsData c sb :=
  ⟨fun b hb => (hs.writes b hb.2).toReads, hs.wholeBlocks⟩

theorem blockmapGet_spec (h : Sound v.dev.disk v.sb (Function.update f n ino))
    (hn : n.toNat < v.sb.totalInodes.toNat) {idx : UInt32} (hi : idx.toNat < ino.blockCount.toNat) :
    wp (blockmapGet ino idx) (fun b v' => b = mapBlock v.dev.disk ino idx.toNat ∧ Still v v')
      (fun _ v' => Still v v' ∧ ¬ (v.dev.FaultFree ∧ ReadsData v.dev.toHtlConfig v.sb)) v := by
  have hshaped := h.shaped_self hn
  have hnz : mapBlock v.dev.disk ino idx.toNat ≠ 0 := h.layout.data_ne_zero (h.mapBlock_isData hn hi)
  unfold blockmapGet
  simp only [wp_bind, wp_failIf]
  refine ⟨fun hge => absurd (UInt32.le_iff_toNat_le.mp hge) (by omega), fun _ => ?_⟩
  by_cases h10 : idx.toNat < 10
  · have hdirect : mapBlock v.dev.disk ino idx.toNat = ino.directBlocks[idx.toNat] := by
      unfold mapBlock
      rw [if_pos h10, Vector.getElem?_eq_getElem h10, Option.getD_some]
    rw [dif_pos h10, wp_bind, wp_failIf, hdirect]
    rw [hdirect] at hnz
    exact ⟨fun hz => absurd hz hnz, fun _ => ⟨rfl, refl_of Still v⟩⟩
  · have hbig : 10 < ino.blockCount.toNat := by omega
    have hind := hshaped.indirect.mpr hbig
    have hptr : mapBlock v.dev.disk ino idx.toNat = ptrLoad (v.dev.disk ino.indirectBlock) (idx - 10).toNat := by
      unfold mapBlock
      rw [if_neg h10, toNat_sub_le (by change 10 ≤ _; omega)]
      rfl
    have hd : v.sb.IsData ino.indirectBlock := by
      have hd := h.isData (x := (n, none)) (mem_refs_update_self.mpr ⟨hn, hind⟩)
      rwa [target_update_self] at hd
    rw [dif_neg h10]
    simp only [wp_bind, wp_failIf]
    refine ⟨fun hz => absurd hz hind, fun _ => ?_⟩
    refine wp_readBlk (fun c _ => ?_) (fun c hf => ⟨⟨c, rfl⟩, fun hs => hf ⟨hs.1, hs.2.reads _ hd⟩⟩)
    rw [← hptr]
    exact ⟨fun hz => absurd hz hnz, fun _ => ⟨rfl, c, rfl⟩⟩

/-- inode に対応するデータブロックの全体。 -/
def mappedSet (disk : Disk) (ino : Inode) : Set UInt32 :=
  { b | ∃ i, i < ino.blockCount.toNat ∧ b = mapBlock disk ino i }

/-- 対応するデータブロックは、どの inode の間接ブロックでもない。 -/
theorem Sound.mapped_ne_indirect (h : Sound v.dev.disk v.sb (Function.update f n ino))
    (hn : n.toNat < v.sb.totalInodes.toNat) {i : Nat} (hi : i < ino.blockCount.toNat) {m : UInt32}
    (hm : (m, none) ∈ refs v.sb (Function.update f n ino)) :
    (Function.update f n ino m).indirectBlock ≠ mapBlock v.dev.disk ino i := by
  have hne := h.owns.ne hm (mapped_mem_refs hn hi) (by simp)
  rwa [target_update_self] at hne

theorem Sound.mapped_ne_self (h : Sound v.dev.disk v.sb (Function.update f n ino))
    (hn : n.toNat < v.sb.totalInodes.toNat) {i j : Nat} (hi : i < ino.blockCount.toNat)
    (hj : j < ino.blockCount.toNat) (hij : i ≠ j) :
    mapBlock v.dev.disk ino i ≠ mapBlock v.dev.disk ino j := by
  have hne := h.owns.ne (mapped_mem_refs hn hi) (mapped_mem_refs hn hj) (by simp [hij])
  rwa [target_update_self, target_update_self] at hne

/-- 対応するデータブロックだけを書いても、論理番号の対応は変わらない。 -/
theorem Sound.mapBlock_of_mapped (h : Sound v.dev.disk v.sb (Function.update f n ino))
    (hn : n.toNat < v.sb.totalInodes.toNat) {disk' : Disk}
    (hd : ∀ b, b ∉ mappedSet v.dev.disk ino → disk' b = v.dev.disk b) {i : Nat}
    (hi : i < ino.blockCount.toNat) : mapBlock disk' ino i = mapBlock v.dev.disk ino i := by
  refine mapBlock_congr fun h10 => hd _ ?_
  rintro ⟨j, hj, he⟩
  have hind := (h.shaped_self hn).indirect.mpr (by omega)
  have hne := h.mapped_ne_indirect hn hj (m := n) (mem_refs_update_self.mpr ⟨hn, hind⟩)
  rw [Function.update_self] at hne
  exact hne he

end

/-! ## 一回分の書き込み -/

section

variable {v : Vol} {f : UInt32 → Inode} {n : UInt32} {ino : Inode}

/-- 一つのブロックの中の書き込み。暗号化されていても、復号した内容の一部だけが変わる。 -/
theorem writeChunk_spec (h : Sound v.dev.disk v.sb (Function.update f n ino))
    (hn : n.toNat < v.sb.totalInodes.toNat) {pos chunk : UInt32} {bytes : List UInt8}
    (hpos : pos.toNat / 4096 < ino.blockCount.toNat) (hlen : bytes.length = chunk.toNat) :
    wp (writeChunk v.sb ino pos chunk bytes)
      (fun _ v' => ∃ blk c, v' = v.put (mapBlock v.dev.disk ino (pos.toNat / 4096)) blk c ∧
        cryptoXform v.sb ino blk (mapBlock v.dev.disk ino (pos.toNat / 4096)) =
          (plainBlock v.dev.disk v.sb ino (pos.toNat / 4096)).patch (pos.toNat % 4096) bytes)
      (fun _ v' => Still v v' ∧ ¬ (v.dev.FaultFree ∧ Serves v.dev.toHtlConfig v.sb)) v := by
  have hwrites : Serves v.dev.toHtlConfig v.sb → v.dev.Writes (mapBlock v.dev.disk ino (pos.toNat / 4096)) :=
    fun hs => hs.writes _ (h.mapBlock_isData hn hpos).2
  unfold writeChunk
  simp only [wp_bind]
  refine (blockmapGet_spec h hn (by rwa [toNat_shiftRight_twelve])).mono ?_
    (fun _ _ hs => ⟨hs.1, fun hd => hs.2 ⟨hd.1, hd.2.readsData⟩⟩)
  rintro _ _ ⟨rfl, c, rfl⟩
  rw [toNat_shiftRight_twelve, wp_ite]
  refine ⟨fun hfull => ?_, fun _ => ?_⟩
  · -- ブロックの全体を書くときは、前の内容を読まない。
    have hoff : pos.toNat % 4096 = 0 := by
      rw [← toNat_and_4095, hfull.1]
      rfl
    have hbytes : bytes.length = 4096 := by
      rw [hlen, hfull.2]
      rfl
    refine wp_writeBlk (fun c' _ => ⟨_, c', rfl, ?_⟩) (fun _ c' _ hno =>
      ⟨⟨c', rfl⟩, fun hd => hno ⟨hd.1, hwrites hd.2⟩⟩)
    rw [cryptoXform_invol, hoff, Bytes.patch_full hbytes]
  · rw [wp_bind]
    refine wp_readBlk (fun c' _ => ?_) (fun c' hno => ⟨⟨c', rfl⟩, fun hd => hno ⟨hd.1, (hwrites hd.2).toReads⟩⟩)
    refine wp_writeBlk (fun c' _ => ⟨_, c', rfl, ?_⟩) (fun _ c' _ hno =>
      ⟨⟨c', rfl⟩, fun hd => hno ⟨hd.1, hwrites hd.2⟩⟩)
    rw [cryptoXform_invol, toNat_and_4095]
    rfl

/-- inode のデータブロックだけを書き、通し番号 `lo` からのバイトを `w` に変えた。 -/
structure Wrote (ino : Inode) (v v' : Vol) (lo : Nat) (w : List UInt8) : Prop where
  sb : v'.sb = v.sb
  dev : v.dev.Evolves (mappedSet v.dev.disk ino) v'.dev
  bytes : ∀ p, p < ino.blockCount.toNat * 4096 →
    paged (plainBlock v'.dev.disk v.sb ino) p =
      if lo ≤ p ∧ p < lo + w.length then w[p - lo]?.getD 0 else paged (plainBlock v.dev.disk v.sb ino) p

theorem Wrote.refl (lo : Nat) : Wrote ino v v lo [] := by
  refine ⟨rfl, .refl _ _, fun p _ => ?_⟩
  rw [if_neg (by simp only [List.length_nil]; omega)]

theorem Wrote.still {v₁ v₂ : Vol} {lo : Nat} {w : List UInt8} (h : Wrote ino v v₁ lo w) (hs : Still v₁ v₂) :
    Wrote ino v v₂ lo w := by
  obtain ⟨c, rfl⟩ := hs
  exact ⟨h.sb, h.dev.trans .atClock, h.bytes⟩

theorem Wrote.mapBlock_eq {v₁ : Vol} {lo : Nat} {w : List UInt8} (hw : Wrote ino v v₁ lo w)
    (h : Sound v.dev.disk v.sb (Function.update f n ino)) (hn : n.toNat < v.sb.totalInodes.toNat) {i : Nat}
    (hi : i < ino.blockCount.toNat) : mapBlock v₁.dev.disk ino i = mapBlock v.dev.disk ino i :=
  h.mapBlock_of_mapped hn hw.dev.disk hi

theorem Wrote.sound {v₁ : Vol} {lo : Nat} {w : List UInt8} (hw : Wrote ino v v₁ lo w)
    (h : Sound v.dev.disk v.sb (Function.update f n ino)) (hn : n.toNat < v.sb.totalInodes.toNat) :
    Sound v₁.dev.disk v₁.sb (Function.update f n ino) := by
  rw [hw.sb]
  refine h.congr (fun b hb => hw.dev.disk b ?_) (fun m hm hbc => hw.dev.disk _ ?_)
  · rintro ⟨i, hi, rfl⟩
    exact h.layout.data_not_bitmap (h.mapBlock_isData hn hi) hb
  · rintro ⟨i, hi, he⟩
    exact h.mapped_ne_indirect hn hi (h.indirect_live hm hbc) he

/-- 書いた範囲のすぐ後に、一つのブロックに収まる分を書き足す。 -/
theorem Wrote.put {v₁ : Vol} {lo q off c : Nat} {w w' : List UInt8} {blk : Block} (hw : Wrote ino v v₁ lo w)
    (h : Sound v.dev.disk v.sb (Function.update f n ino)) (hn : n.toNat < v.sb.totalInodes.toNat)
    (hq : q < ino.blockCount.toNat) (hnext : q * 4096 + off = lo + w.length) (hfit : off + w'.length ≤ 4096)
    (hblk : cryptoXform v.sb ino blk (mapBlock v₁.dev.disk ino q) =
      (plainBlock v₁.dev.disk v.sb ino q).patch off w') :
    Wrote ino v (v₁.put (mapBlock v₁.dev.disk ino q) blk c) lo (w ++ w') := by
  have hmap : ∀ i, i < ino.blockCount.toNat → mapBlock v₁.dev.disk ino i = mapBlock v.dev.disk ino i :=
    fun i hi => hw.mapBlock_eq h hn hi
  have hmem : mapBlock v₁.dev.disk ino q ∈ mappedSet v.dev.disk ino := ⟨q, hq, hmap q hq⟩
  have hdev : v.dev.Evolves (mappedSet v.dev.disk ino) (v₁.put (mapBlock v₁.dev.disk ino q) blk c).dev :=
    hw.dev.trans (.store hmem)
  have hmap' : ∀ i, i < ino.blockCount.toNat →
      mapBlock (v₁.put (mapBlock v₁.dev.disk ino q) blk c).dev.disk ino i = mapBlock v₁.dev.disk ino i :=
    fun i hi => (h.mapBlock_of_mapped hn hdev.disk hi).trans (hmap i hi).symm
  refine ⟨hw.sb, hdev, fun p hp => ?_⟩
  have hp' : p / 4096 < ino.blockCount.toNat := Nat.div_lt_of_lt_mul (by omega)
  have hstep := paged_patch (n := 4096) (B := plainBlock v₁.dev.disk v.sb ino)
    (C := plainBlock (v₁.put (mapBlock v₁.dev.disk ino q) blk c).dev.disk v.sb ino) (q := q)
    (w := w') (p := p) (by decide) hfit ?_ ?_
  · rw [hstep, hw.bytes p hp, List.length_append, hnext]
    by_cases hnew : lo + w.length ≤ p ∧ p < lo + w.length + w'.length
    · rw [if_pos hnew, if_pos (by omega), List.getElem?_append_right (by omega),
        show p - lo - w.length = p - (lo + w.length) by omega]
    · rw [if_neg hnew]
      by_cases hold : lo ≤ p ∧ p < lo + w.length
      · rw [if_pos hold, if_pos (by omega), List.getElem?_append_left (by omega)]
      · rw [if_neg hold, if_neg (by omega)]
  · unfold plainBlock at hblk ⊢
    rw [hmap' q hq, dev_put, HtlDevice.disk_atClock, HtlDevice.disk_store, Function.update_self, hblk]
  · intro hne
    unfold plainBlock
    rw [hmap' _ hp', dev_put, HtlDevice.disk_atClock, HtlDevice.disk_store, Function.update_of_ne]
    rw [hmap _ hp', hmap q hq]
    exact h.mapped_ne_self hn hp' hq hne

/-- 書き込みの繰り返しは、`offset` から、返した数だけのバイトを書く。 -/
theorem writeLoop_spec (h : Sound v.dev.disk v.sb (Function.update f n ino))
    (hn : n.toNat < v.sb.totalInodes.toNat) {buf : List UInt8} {offset len : UInt32}
    (hbuf : len.toNat ≤ buf.length) (hend : offset.toNat + len.toNat ≤ ino.blockCount.toNat * 4096) :
    wp (writeLoop v.sb ino buf offset len)
      (fun r v' => r.1.toNat ≤ len.toNat ∧ (r.2 = none → r.1 = len) ∧
        Wrote ino v v' offset.toNat (buf.take r.1.toNat) ∧
        (v.dev.FaultFree ∧ Serves v.dev.toHtlConfig v.sb → r.2 = none))
      (fun _ _ => False) v := by
  have hblocks := (h.shaped_self hn).blocks
  unfold writeLoop
  rw [wp_bind]
  refine wp_loop (fun k written v' => (k ≤ written.toNat ∨ written = len) ∧ written.toNat ≤ len.toNat ∧
    Wrote ino v v' offset.toNat (buf.take written.toNat)) ⟨.inl (by simp), by simp, .refl _⟩ ?_ ?_
  · rintro k written v₁ hk ⟨hprog, hle, hw⟩
    have hs := hw.sound h hn
    have hlen : (buf.take written.toNat).length = written.toNat := by
      rw [List.length_take]
      omega
    rw [wp_ite]
    refine ⟨fun hlt => ?_, fun hge => ?_⟩
    · have hlt' := UInt32.lt_iff_toNat_lt.mp hlt
      have hpos : (offset + written).toNat = offset.toNat + written.toNat := toNat_add_lt (by omega)
      have hrest : (len - written).toNat = len.toNat - written.toNat := toNat_sub_le hle
      have hchunk := toNat_chunkLen (offset + written) (len - written)
      rw [hpos, hrest] at hchunk
      have hbytes : ((buf.drop written.toNat).take (chunkLen (offset + written) (len - written)).toNat).length =
          (chunkLen (offset + written) (len - written)).toNat := by
        rw [List.length_take, List.length_drop]
        omega
      have hq : (offset + written).toNat / 4096 < ino.blockCount.toNat :=
        Nat.div_lt_of_lt_mul (by rw [hpos]; omega)
      have hn₁ : n.toNat < v₁.sb.totalInodes.toNat := by rwa [hw.sb]
      rw [wp_bind, wp_attempt, ← hw.sb]
      refine (writeChunk_spec hs hn₁ hq hbytes).mono ?_ ?_
      · rintro _ _ ⟨blk, c, rfl, hblk⟩
        rw [hw.sb] at hblk
        have hput := hw.put (c := c) h hn hq
          (by rw [hlen, hpos]; omega) (by rw [hbytes, hpos]; omega) hblk
        have hsum : (written + chunkLen (offset + written) (len - written)).toNat =
            written.toNat + (chunkLen (offset + written) (len - written)).toNat := toNat_add_lt (by omega)
        refine ⟨.inl ?_, ?_, ?_⟩
        · rw [hsum]
          rcases hprog with hprog | rfl
          · omega
          · omega
        · rw [hsum]
          omega
        · rw [hsum, List.take_add]
          exact hput
      · rintro e v₂ ⟨hstill, hno⟩
        refine ⟨hle, fun he => absurd he (Option.some_ne_none e), hw.still hstill, fun hd => absurd ⟨?_, ?_⟩ hno⟩
        · exact hw.dev.faultFree hd.1
        · rw [hw.dev.config]
          exact hd.2
    · have hge' : written = len := by
        apply UInt32.toNat_inj.mp
        rw [UInt32.not_lt, UInt32.le_iff_toNat_le] at hge
        omega
      exact ⟨hle, fun _ => hge', hw, fun _ => rfl⟩
  · rintro written v₁ ⟨hprog, hle, hw⟩
    refine ⟨hle, fun _ => ?_, hw, fun _ => rfl⟩
    rcases hprog with hprog | he
    · exact UInt32.toNat_inj.mp (le_antisymm hle hprog)
    · exact he

end

/-! ## 読み取り -/

section

variable {v : Vol} {f : UInt32 → Inode} {n : UInt32} {ino : Inode}

theorem readLoop_spec (h : Sound v.dev.disk v.sb (Function.update f n ino))
    (hn : n.toNat < v.sb.totalInodes.toNat) {offset len : UInt32}
    (hend : offset.toNat + len.toNat ≤ ino.sizeBytes.toNat) :
    wp (readLoop v.sb ino offset len)
      (fun out v' => Still v v' ∧ out = (List.range len.toNat).map fun j =>
        paged (plainBlock v.dev.disk v.sb ino) (offset.toNat + j))
      (fun _ v' => Still v v' ∧ ¬ (v.dev.FaultFree ∧ ReadsData v.dev.toHtlConfig v.sb)) v := by
  have hblocks := (h.shaped_self hn).blocks
  have hsize := (h.shaped_self hn).size
  unfold readLoop
  rw [wp_bind]
  refine wp_loop (fun k acc v' => Still v v' ∧ (k ≤ acc.1.toNat ∨ acc.1 = len) ∧
    acc.1.toNat ≤ len.toNat ∧ acc.2 = (List.range acc.1.toNat).map fun j =>
      paged (plainBlock v.dev.disk v.sb ino) (offset.toNat + j))
    ⟨refl_of Still v, .inl (by simp), by simp, rfl⟩ ?_ ?_
  · rintro k ⟨done, out⟩ _ hk ⟨⟨c, rfl⟩, hprog, hle, hacc⟩
    simp only at hprog hle hacc ⊢
    rw [wp_ite]
    refine ⟨fun hlt => ?_, fun hge => ?_⟩
    · have hlt' := UInt32.lt_iff_toNat_lt.mp hlt
      have hpos : (offset + done).toNat = offset.toNat + done.toNat := toNat_add_lt (by omega)
      have hrest : (len - done).toNat = len.toNat - done.toNat := toNat_sub_le hle
      have hchunk := toNat_chunkLen (offset + done) (len - done)
      rw [hpos, hrest] at hchunk
      have hq : (offset + done).toNat / 4096 < ino.blockCount.toNat :=
        Nat.div_lt_of_lt_mul (by rw [hpos]; omega)
      have hsum : (done + chunkLen (offset + done) (len - done)).toNat =
          done.toNat + (chunkLen (offset + done) (len - done)).toNat := toNat_add_lt (by omega)
      rw [wp_bind]
      refine (blockmapGet_spec (v := v.atClock c) h hn
        (by rwa [toNat_shiftRight_twelve])).mono ?_ ?_
      · rintro _ _ ⟨rfl, c', rfl⟩
        have hd := h.mapBlock_isData hn hq
        rw [toNat_shiftRight_twelve, wp_bind]
        refine wp_readBlk (fun c'' _ => ?_) (fun c'' hf => ⟨⟨c'', rfl⟩, fun hs => hf ⟨hs.1, hs.2.reads _ hd⟩⟩)
        refine ⟨⟨c'', rfl⟩, .inl ?_, ?_, ?_⟩
        · rw [hsum]
          rcases hprog with hprog | rfl <;> omega
        · rw [hsum]
          omega
        · have hpart := slice_eq_paged (B := plainBlock v.dev.disk v.sb ino)
            (q := (offset + done).toNat / 4096) (k := (offset + done).toNat % 4096)
            (l := (chunkLen (offset + done) (len - done)).toNat) (by rw [hpos]; omega)
          have hat : (offset + done).toNat / 4096 * 4096 + (offset + done).toNat % 4096 =
              offset.toNat + done.toNat := by
            rw [hpos]
            omega
          simp only [hat] at hpart
          rw [hsum, List.range_add, List.map_append, ← hacc, toNat_and_4095]
          refine congrArg (out ++ ·) (hpart.trans ?_)
          rw [List.map_map]
          refine List.map_congr_left fun j _ => ?_
          rw [Function.comp_apply, Nat.add_assoc]
      · rintro e _ ⟨⟨c', rfl⟩, hf⟩
        exact ⟨⟨c', rfl⟩, hf⟩
    · have hge' : done = len := by
        apply UInt32.toNat_inj.mp
        rw [UInt32.not_lt, UInt32.le_iff_toNat_le] at hge
        omega
      exact ⟨⟨c, rfl⟩, by rw [hacc, hge']⟩
  · rintro ⟨done, out⟩ v' ⟨hstill, hprog, hle, hacc⟩
    have hdone : done = len := by
      rcases hprog with hprog | he
      · exact UInt32.toNat_inj.mp (le_antisymm hle hprog)
      · exact he
    exact ⟨hstill, by rw [← hdone]; exact hacc⟩

/-- 読み取りは、内容のうち求められた部分を返す。大きさを越えた部分は切る。 -/
theorem fileRead_spec (h : Sound v.dev.disk v.sb (Function.update f n ino))
    (hn : n.toNat < v.sb.totalInodes.toNat) (who : OwIdentity) (offset len : UInt32) :
    wp (fileRead who ino offset len)
      (fun out v' => Still v v' ∧
        out = ((fileContent v.dev.disk v.sb ino).drop offset.toNat).take len.toNat)
      (fun _ v' => Still v v' ∧
        (v.dev.FaultFree ∧ ReadsData v.dev.toHtlConfig v.sb →
          ino.entryType &&& entryFile = 0 ∨ inodeAccessCheck who ino accessRead ≠ .ok ())) v := by
  have hshaped := h.shaped_self hn
  have hcontent : (fileContent v.dev.disk v.sb ino).length = ino.sizeBytes.toNat :=
    length_pages hshaped.size
  unfold fileRead
  simp only [wp_bind, wp_failIf, wp_ofExcept, wp_ite, wp_get]
  refine ⟨fun ht => ⟨refl_of Still v, fun _ => .inl ht⟩, fun _ => ⟨fun _ _ => ⟨fun hout => ?_, fun hin => ?_⟩,
    fun e he => ⟨refl_of Still v, fun _ => .inr fun hok => ?_⟩⟩⟩
  · refine ⟨refl_of Still v, ?_⟩
    rcases hout with hge | rfl
    · rw [List.drop_eq_nil_of_le (by rw [hcontent]; exact UInt32.le_iff_toNat_le.mp hge), List.take_nil]
    · simp
  · have hoff : offset.toNat < ino.sizeBytes.toNat := by
      rw [not_or, ge_iff_le, UInt32.not_le] at hin
      exact UInt32.lt_iff_toNat_lt.mp hin.1
    -- 終わりを越えないように縮めた長さ。
    generalize hlen' : (if len > ino.sizeBytes - offset then ino.sizeBytes - offset else len) = len'
    have hlen : len'.toNat = min len.toNat (ino.sizeBytes.toNat - offset.toNat) := by
      rw [← hlen', toNat_clamp, toNat_sub_le hoff.le]
    refine (readLoop_spec h hn (by omega)).mono ?_ (fun _ _ hf => ⟨hf.1, fun hs => absurd hs hf.2⟩)
    rintro out v' ⟨hstill, rfl⟩
    refine ⟨hstill, ?_⟩
    rw [← slice_pages (by decide) hshaped.size (by omega), List.take_eq_take_min (i := len.toNat),
      List.length_drop, hcontent, ← hlen]
    rfl
  · rw [he] at hok
    cases hok

end

end OwStorage.Owfs
