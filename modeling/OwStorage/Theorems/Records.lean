import OwStorage.Owfs.Lemmas.Format
import OwStorage.Usfs.Lemmas.Format

/-!
# 記録の表

inode の表と項目の表は、番号で読み書きする配列としてふるまう。書いた記録は検査値の欄だけを付け直して読め、
ほかの番号の記録も、表の外のブロックも変わらない。
-/

namespace OwStorage

open Lib Prog

/-- 番号 `i` への書き込みの後、`i` からは `r` が読め、ほかの番号の結果もバイトも変わらない。 -/
structure StoredAt {σ ε ρ : Type} (read : UInt32 → σ → Except ε ρ) (bytes : UInt32 → σ → List UInt8) (n : Nat)
    (i : UInt32) (r : ρ) (s s' : σ) : Prop where
  here : read i s' = .ok r
  result : ∀ j : UInt32, j.toNat < n → j ≠ i → read j s' = read j s
  bytes : ∀ j : UInt32, j.toNat < n → j ≠ i → bytes j s' = bytes j s

namespace Owfs

section

variable {v v' : Vol} {n : UInt32}

/-- 装置の失敗がなければ、読み取りの結果は表の記録だけで決まる。 -/
theorem inodeRead_result (hl : Layout v.sb) (hf : v.dev.FaultFree) (hs : Serves v.dev.toHtlConfig v.sb)
    (hn : n.toNat < v.sb.totalInodes.toNat) : (inodeRead n v).1 =
      if (inodeAt v.dev.disk v.sb n).entryType ≠ 0 ∧ inodeVerifyChecksum (inodeAt v.dev.disk v.sb n) = false then
        .error .checksumMismatch
      else .ok (inodeAt v.dev.disk v.sb n) := by
  have hspec := inodeRead_spec hl n
  unfold wp at hspec
  split at hspec
  · rename_i a v₁ hrun
    obtain ⟨_, rfl, hsum, _⟩ := hspec
    rw [hrun, if_neg fun h => by rw [hsum h.1] at h; exact absurd h.2 (by decide)]
  · rename_i e v₁ hrun
    obtain ⟨_, ⟨_, hno⟩ | ⟨rfl, hlive, hbad⟩ | ⟨_, hno⟩⟩ := hspec
    · exact absurd hn hno
    · rw [hrun, if_pos ⟨hlive, hbad⟩]
    · exact absurd ⟨hf, hs⟩ hno

/-- inode の書き込みの後の表。 -/
theorem inodeWrite_stored (hl : Layout v.sb) (hf : v.dev.FaultFree) (hs : Serves v.dev.toHtlConfig v.sb)
    (hw : volumeWritable v.sb = .ok ()) (hn : n.toNat < v.sb.totalInodes.toNat) (r : Inode) :
    ∃ s', inodeWrite n ⟨v, r⟩ = (.ok (), s') ∧
      StoredAt (fun j v => (inodeRead j v).1) (fun j v => recordBytes v.dev.disk v.sb j) v.sb.totalInodes.toNat n
        r.sealed v s'.vol ∧
      ∀ b ∉ v.sb.tableRegion, s'.vol.dev.disk b = v.dev.disk b := by
  obtain ⟨_, s', hrun, _, hrec⟩ := (inodeWrite_spec (s := ⟨v, r⟩) hl n).exists_ok_of
    fun _ _ herr => herr.2 ⟨hf, hs⟩ ⟨hn, hw⟩
  have hsb : s'.vol.sb = v.sb := hrec.sb
  have hconf : s'.vol.dev.toHtlConfig = v.dev.toHtlConfig := hrec.dev.config
  have hl' : Layout s'.vol.sb := by rwa [hsb]
  have hf' : s'.vol.dev.FaultFree := hrec.dev.faultFree hf
  have hs' : Serves s'.vol.dev.toHtlConfig s'.vol.sb := by rwa [hconf, hsb]
  have htable : ∀ j : UInt32, j.toNat < v.sb.totalInodes.toNat →
      inodeAt s'.vol.dev.disk s'.vol.sb j = if j = n then r.sealed else inodeAt v.dev.disk v.sb j := by
    intro j hj
    rw [hsb]
    exact hrec.table j hj
  refine ⟨s', hrun, ⟨?_, fun j hj hne => ?_, fun j hj hne => ?_⟩, hrec.dev.disk⟩
  · rw [inodeRead_result hl' hf' hs' (by rw [hsb]; exact hn), htable n hn, if_pos rfl, if_neg]
    rw [verify_sealed]
    exact fun h => absurd h.2 (by decide)
  · rw [inodeRead_result hl' hf' hs' (by rw [hsb]; exact hj), inodeRead_result hl hf hs hj, htable j hj, if_neg hne]
  · rw [← enc_inodeAt, ← enc_inodeAt, htable j hj, if_neg hne]

end

end Owfs

namespace Usfs

/-- 項目 `idx` の記録の 256 バイト。 -/
def recordBytes (disk : Disk) (sb : Superblock) (idx : UInt32) : List UInt8 :=
  (disk (entryBlockOffset sb idx)).slice ((entrySlotIndex idx).toNat * 256) 256

/-- 表のどのブロックも読み書きできる。 -/
structure ServesTable (c : HtlConfig) (sb : Superblock) : Prop where
  writes : ∀ b ∈ sb.tableRegion, c.Writes b
  wholeBlocks : c.WholeBlocks

section

variable {v v' : Vol} {idx : UInt32}

/-- フォーマットの置く表は、ボリュームの大きさを問わず番号の中に収まる。 -/
theorem tableFits_freshSuperblock (totalBlocks bitmapBlocks : UInt32) (label : Option (List UInt8)) (nonce : Bytes 12) :
    TableFits (freshSuperblock totalBlocks bitmapBlocks label nonce) := by
  constructor
  · change (256 : UInt32).toNat ≤ 16 * (16 : UInt32).toNat
    decide
  · change (1 : UInt32).toNat + (16 : UInt32).toNat < 2 ^ 32
    decide

theorem enc_entryAt (disk : Disk) (sb : Superblock) (idx : UInt32) :
    Entry.codec.enc (entryAt disk sb idx) = recordBytes disk sb idx := by
  have hidx : (entrySlotIndex idx).toNat < 16 := by
    rw [toNat_entrySlotIndex]
    exact Nat.mod_lt _ (by decide)
  unfold entryAt entryIn
  refine Entry.codec.enc_dec _ ?_
  rw [Bytes.length_slice]
  change min 256 (4096 - (entrySlotIndex idx).toNat * 256) = 256
  omega

theorem entryRead_result (ht : TableFits v.sb) (hf : v.dev.FaultFree) (hs : ServesTable v.dev.toHtlConfig v.sb)
    (hi : idx.toNat < v.sb.totalEntries.toNat) : (entryRead idx v).1 =
      if (entryAt v.dev.disk v.sb idx).entryType ≠ 0 ∧ entryVerifyChecksum (entryAt v.dev.disk v.sb idx) = false then
        .error .checksumMismatch
      else .ok (entryAt v.dev.disk v.sb idx) := by
  have hin : ¬ v.sb.totalEntries ≤ idx := by
    rw [UInt32.not_le]
    exact UInt32.lt_iff_toNat_lt.mpr hi
  have hspec : wp (entryRead idx)
      (fun e _ => e = entryAt v.dev.disk v.sb idx ∧ ¬ (e.entryType ≠ 0 ∧ entryVerifyChecksum e = false))
      (fun e _ => e = .checksumMismatch ∧ (entryAt v.dev.disk v.sb idx).entryType ≠ 0 ∧
        entryVerifyChecksum (entryAt v.dev.disk v.sb idx) = false) v := by
    unfold entryRead
    simp only [wp_bind, wp_get, wp_failIf, wp_pure, Bool.not_eq_true']
    exact ⟨fun h => absurd h hin, fun _ => wp_readBlk (fun _ _ => ⟨fun h => ⟨trivial, h⟩, fun h => ⟨rfl, h⟩⟩)
      (fun _ hno => absurd ⟨hf, (hs.writes _ (ht.blockOffset_mem hi)).toReads⟩ hno)⟩
  unfold wp at hspec
  split at hspec
  · rename_i a v₁ hrun
    obtain ⟨rfl, hsum⟩ := hspec
    rw [hrun, if_neg hsum]
  · rename_i e v₁ hrun
    obtain ⟨rfl, hbad⟩ := hspec
    rw [hrun, if_pos hbad]

/-- 項目の書き込みの後の表。 -/
theorem entryWrite_stored (ht : TableFits v.sb) (hf : v.dev.FaultFree) (hs : ServesTable v.dev.toHtlConfig v.sb)
    (hw : volumeWritable v.sb = .ok ()) (hi : idx.toNat < v.sb.totalEntries.toNat) (r : Entry) :
    ∃ s', entryWrite idx ⟨v, r⟩ = (.ok (), s') ∧
      StoredAt (fun j v => (entryRead j v).1) (fun j v => recordBytes v.dev.disk v.sb j) v.sb.totalEntries.toNat idx
        r.sealed v s'.vol ∧
      ∀ b ∉ v.sb.tableRegion, s'.vol.dev.disk b = v.dev.disk b := by
  have hin : ¬ v.sb.totalEntries ≤ idx := by
    rw [UInt32.not_le]
    exact UInt32.lt_iff_toNat_lt.mpr hi
  have hmem := ht.blockOffset_mem hi
  have hspec : wp (entryWrite idx)
      (fun _ s' => ∃ c, s'.vol = v.put (entryBlockOffset v.sb idx) ((v.dev.disk (entryBlockOffset v.sb idx)).patch
        ((entrySlotIndex idx).toNat * 256) (Entry.codec.enc r.sealed)) c) (fun _ _ => False) ⟨v, r⟩ := by
    unfold entryWrite
    simp only [wp_bind, wp_get, wp_failIf, wp_ofExcept, wp_onVol]
    refine ⟨fun h => absurd h hin, fun _ => ⟨fun _ _ => wp_readBlk (fun c _ => ?_)
      (fun _ hno => absurd ⟨hf, (hs.writes _ hmem).toReads⟩ hno), fun e he => by rw [hw] at he; cases he⟩⟩
    rw [wp_modifyEntry]
    exact wp_writeBlk (fun c' _ => ⟨c', rfl⟩) (fun _ _ _ hno => hno ⟨hf, hs.writes _ hmem⟩)
  obtain ⟨_, s', hrun, c, hvol⟩ := hspec.exists_ok
  have htable : ∀ j : UInt32, j.toNat < v.sb.totalEntries.toNat →
      entryAt s'.vol.dev.disk s'.vol.sb j = if j = idx then r.sealed else entryAt v.dev.disk v.sb j := by
    intro j hj
    rw [hvol]
    exact ht.entryAt_update hi hj r.sealed
  have hsb : s'.vol.sb = v.sb := by rw [hvol]; rfl
  have hconf : s'.vol.dev.toHtlConfig = v.dev.toHtlConfig := by rw [hvol]; rfl
  have ht' : TableFits s'.vol.sb := by rwa [hsb]
  have hf' : s'.vol.dev.FaultFree := by
    rw [hvol]
    exact hf
  have hs' : ServesTable s'.vol.dev.toHtlConfig s'.vol.sb := by rwa [hconf, hsb]
  refine ⟨s', hrun, ⟨?_, fun j hj hne => ?_, fun j hj hne => ?_⟩, fun b hb => ?_⟩
  · rw [entryRead_result ht' hf' hs' (by rw [hsb]; exact hi), htable idx hi, if_pos rfl, if_neg]
    rw [verify_sealed]
    exact fun h => absurd h.2 (by decide)
  · rw [entryRead_result ht' hf' hs' (by rw [hsb]; exact hj), entryRead_result ht hf hs hj, htable j hj, if_neg hne]
  · rw [← enc_entryAt, ← enc_entryAt, htable j hj, if_neg hne]
  · rw [hvol]
    refine Function.update_of_ne ?_ _ _
    rintro rfl
    exact hb hmem

end

end Usfs

/-- 二つの記録の表は、配列である。 -/
theorem record_tables_are_arrays :
    (∀ (v : Owfs.Vol) (n : UInt32) (r : Owfs.Inode), Owfs.Layout v.sb → v.dev.FaultFree →
      Owfs.Serves v.dev.toHtlConfig v.sb → Owfs.volumeWritable v.sb = .ok () → n.toNat < v.sb.totalInodes.toNat →
      ∃ s', Owfs.inodeWrite n ⟨v, r⟩ = (.ok (), s') ∧
        StoredAt (fun j v => (Owfs.inodeRead j v).1) (fun j v => Owfs.recordBytes v.dev.disk v.sb j)
          v.sb.totalInodes.toNat n { r with checksum := Owfs.inodeComputeChecksum r } v s'.vol ∧
        ∀ b ∉ v.sb.tableRegion, s'.vol.dev.disk b = v.dev.disk b) ∧
    ∀ (v : Usfs.Vol) (idx : UInt32) (r : Usfs.Entry), Usfs.TableFits v.sb → v.dev.FaultFree →
      Usfs.ServesTable v.dev.toHtlConfig v.sb → Usfs.volumeWritable v.sb = .ok () →
      idx.toNat < v.sb.totalEntries.toNat →
      ∃ s', Usfs.entryWrite idx ⟨v, r⟩ = (.ok (), s') ∧
        StoredAt (fun j v => (Usfs.entryRead j v).1) (fun j v => Usfs.recordBytes v.dev.disk v.sb j)
          v.sb.totalEntries.toNat idx { r with checksum := Usfs.entryComputeChecksum r } v s'.vol ∧
        ∀ b ∉ v.sb.tableRegion, s'.vol.dev.disk b = v.dev.disk b :=
  ⟨fun _ _ r hl hf hs hw hn => Owfs.inodeWrite_stored hl hf hs hw hn r,
    fun _ _ r ht hf hs hw hi => Usfs.entryWrite_stored ht hf hs hw hi r⟩

/-- 二ブロックのファイルの記録。 -/
def sampleInode : Owfs.Inode :=
  { Owfs.Inode.zero with
    inodeNumber := 7
    entryType := Owfs.entryFile
    permissions := 0o640
    sizeBytes := 5000
    blockCount := 2
    directBlocks := Owfs.Inode.zero.directBlocks.set 0 300
    ownerUid := 1000
    ownerGid := 100 }

/-- 二ブロックのファイルの項目。 -/
def sampleEntry : Usfs.Entry :=
  { Usfs.Entry.zero with
    entryIndex := 7
    entryType := Usfs.entryFile
    permissions := 0o640
    sizeBytes := 5000
    firstBlock := 20
    blockCount := 2
    ownerUid := 1000 }

theorem sample_records_stored :
    (∃ s', Owfs.inodeWrite 7 ⟨Owfs.formattedVolume, sampleInode⟩ = (.ok (), s') ∧
      StoredAt (fun j v => (Owfs.inodeRead j v).1) (fun j v => Owfs.recordBytes v.dev.disk v.sb j)
        Owfs.formattedVolume.sb.totalInodes.toNat 7
        { sampleInode with checksum := Owfs.inodeComputeChecksum sampleInode } Owfs.formattedVolume s'.vol ∧
      ∀ b ∉ Owfs.formattedVolume.sb.tableRegion, s'.vol.dev.disk b = Owfs.formattedVolume.dev.disk b) ∧
    ∃ d' v s', Usfs.formatVolume ⟨0, 0⟩ 64 none (Usfs.zeroDevice 0) = (.ok (), d') ∧ Usfs.Opened d' v ∧
      Usfs.entryWrite 7 ⟨v, sampleEntry⟩ = (.ok (), s') ∧
      StoredAt (fun j v => (Usfs.entryRead j v).1) (fun j v => Usfs.recordBytes v.dev.disk v.sb j)
        v.sb.totalEntries.toNat 7
        { sampleEntry with checksum := Usfs.entryComputeChecksum sampleEntry } v s'.vol ∧
      ∀ b ∉ v.sb.tableRegion, s'.vol.dev.disk b = v.dev.disk b := by
  constructor
  · have hfmt := Owfs.formatted_formattedVolume.1
    exact record_tables_are_arrays.1 Owfs.formattedVolume 7 sampleInode hfmt.sound.layout
      Owfs.faultFree_formattedVolume hfmt.serves (by decide +kernel) (by decide +kernel)
  · obtain ⟨d', v, hfmt, hopen⟩ := Usfs.exists_opened_zeroDevice ⟨0, 0⟩ (n := 0) (.inl rfl)
    obtain ⟨b, nonce, _, _, hfresh, _⟩ := Usfs.fresh_of_format (Usfs.reliable_zeroDevice 0) (by decide) hfmt hopen
    obtain ⟨_, _, _, _, _, _, hsb⟩ := hfresh.geometry
    have htotal : v.sb.totalEntries = 256 := by
      rw [hsb]
      rfl
    have hr := hfresh.ready
    obtain ⟨s', hrun⟩ := record_tables_are_arrays.2 v 7 sampleEntry hr.layout.tableFits hr.faultFree
      ⟨fun _ hb => hr.writes_table hb, hr.serves.wholeBlocks⟩ hfresh.writable (by rw [htotal]; decide)
    exact ⟨d', v, s', hfmt, hopen, hrun⟩

end OwStorage
