import OwStorage.Common.Lemmas.Paired
import OwStorage.Usfs.Lemmas.Directory

/-!
# 前の中身に依らない操作（USFS）

メモリ上のスーパーブロックが等しく、ディスクの中身だけが違う二つのボリュームで、フォーマットの中の操作を並べて動かす。
読むのは、自分で書いた項目の表とビットマップのブロックだけである。空きの探索は、0 で埋めたばかりのビットマップの先頭の一ブロック
だけを読んで終わるので、ビットマップがデータ領域を覆わない大きさでも、その先を読まない。
-/

namespace OwStorage.Usfs

open Lib Prog

/-- 中身だけが違う二つのボリューム。`A` のブロックは揃い、スーパーブロックは `P` を満たす。 -/
structure PairedVol (disk disk' : Disk) (A : Set UInt32) (P : Superblock → Prop) (v v' : Vol) : Prop where
  sb : v'.sb = v.sb
  keeps : P v.sb
  dev : Paired disk disk' A v.dev v'.dev

/-- 項目の表とビットマップのブロックは、どれも `A` に入る。データ領域は `start` から始まる。 -/
structure MetadataIn (A : Set UInt32) (start : UInt32) (sb : Superblock) : Prop where
  placed : Placed sb
  bitmap : blockRange sb.bitmapStartBlock.toNat sb.bitmapBlockCount.toNat ⊆ A
  table : sb.tableRegion ⊆ A
  nonempty : 0 < sb.bitmapBlockCount.toNat
  data : sb.dataRegionStart = start

section

variable {disk disk' : Disk} {A B : Set UInt32} {P Q : Superblock → Prop} {v v' : Vol} {b start : UInt32} {buf : Block}

theorem PairedVol.mono (h : PairedVol disk disk' A P v v') (hB : B ⊆ A) (hQ : ∀ sb, P sb → Q sb) :
    PairedVol disk disk' B Q v v' := ⟨h.sb, hQ _ h.keeps, h.dev.mono hB⟩

theorem PairedVol.any (h : PairedVol disk disk' A P v v') : PairedVol disk disk' ∅ (fun _ => True) v v' :=
  h.mono (Set.empty_subset A) fun _ _ => trivial

/-! ## 一つのブロック -/

theorem coupled_dev {α : Type} {R : α → α → Prop} {p : Prog HtlDevice HtlErr α} {mapErr : HtlErr → UsfsErr}
    (h : Coupled (Paired disk disk' A) (Paired disk disk' B) (Paired disk disk' A) R p p) :
    Coupled (PairedVol disk disk' A P) (PairedVol disk disk' B P) (PairedVol disk disk' A P) R
      (Prog.within Vol.devLens mapErr p) (Prog.within Vol.devLens mapErr p) :=
  h.within (fun _ _ hv => hv.dev) (fun _ _ _ _ hv hd => ⟨hv.sb, hv.keeps, hd⟩) fun _ _ _ _ hv hd =>
    ⟨hv.sb, hv.keeps, hd⟩

theorem paired_readBlk (hb : b ∈ A) : Twin (PairedVol disk disk' A P) Eq (readBlk b) (readBlk b) :=
  (coupled_dev (coupled_htlReadBlock hb)).twin

theorem coupled_writeBlk :
    Coupled (PairedVol disk disk' A P) (PairedVol disk disk' (insert b A) P) (PairedVol disk disk' A P) Eq
      (writeBlk b buf) (writeBlk b buf) := coupled_dev coupled_htlWriteBlock

theorem paired_writeBlk : Twin (PairedVol disk disk' A P) Eq (writeBlk b buf) (writeBlk b buf) :=
  (coupled_writeBlk.mono (fun _ _ h => h) (fun _ _ h => h.mono (Set.subset_insert _ _) fun _ hP => hP)
    (fun _ _ h => h) fun _ _ h => h).twin

theorem paired_flushBlk : Twin (PairedVol disk disk' A P) Eq flushBlk flushBlk :=
  (coupled_dev coupled_htlFlushCache).twin

theorem coupled_modifySb {f : Superblock → Superblock} {E : Vol → Vol → Prop} (hf : ∀ sb, P sb → Q (f sb)) :
    Coupled (PairedVol disk disk' A P) (PairedVol disk disk' A Q) E Eq (modifySb f) (modifySb f) :=
  fun _ _ h => .ok rfl ⟨congrArg f h.sb, hf _ h.keeps, h.dev⟩

theorem paired_modifySb {f : Superblock → Superblock} (hf : ∀ sb, P sb → P (f sb)) :
    Twin (PairedVol disk disk' A P) Eq (modifySb f) (modifySb f) := (coupled_modifySb hf).twin

theorem paired_get_bind {α : Type} {R : α → α → Prop} {f : Vol → UsfsM α}
    (hf : ∀ sb, P sb → ∀ dev dev', Twin (PairedVol disk disk' A P) R (f ⟨dev, sb⟩) (f ⟨dev', sb⟩)) :
    Twin (PairedVol disk disk' A P) R (Prog.get >>= f) (Prog.get >>= f) := by
  refine Twin.get.bind fun v v' hv => ?_
  obtain ⟨dev, sb⟩ := v
  obtain ⟨dev', sb'⟩ := v'
  obtain rfl : sb' = sb := hv.sb
  exact hf sb' hv.keeps dev dev'

theorem MetadataIn.bitmap_mem {sb : Superblock} (h : MetadataIn A start sb) {i : Nat}
    (hi : i < sb.bitmapBlockCount.toNat) : sb.bitmapStartBlock + UInt32.ofNat i ∈ A := by
  have hdata := h.placed.dataAfter
  have hlt := sb.dataRegionStart.toNat_lt
  refine h.bitmap ?_
  change _ ∧ _
  rw [toNat_add_lt (by rw [toNat_ofNat_lt (by omega)]; omega), toNat_ofNat_lt (by omega)]
  omega

theorem MetadataIn.bitmap_first {sb : Superblock} (h : MetadataIn A start sb) : sb.bitmapStartBlock ∈ A := by
  simpa using h.bitmap_mem h.nonempty

theorem MetadataIn.table_mem {sb : Superblock} (h : MetadataIn A start sb) {i : Nat}
    (hi : i < sb.entryTableBlocks.toNat) : sb.entryTableStart + UInt32.ofNat i ∈ A := by
  have hbitmap := h.placed.bitmapAfter
  have hlt := sb.bitmapStartBlock.toNat_lt
  refine h.table ?_
  change _ ∧ _
  rw [toNat_add_lt (by rw [toNat_ofNat_lt (by omega)]; omega), toNat_ofNat_lt (by omega)]
  omega

/-! ## 検査値と署名 -/

theorem paired_bitmapComputeFletcher64 :
    Twin (PairedVol disk disk' A (MetadataIn A start)) Eq bitmapComputeFletcher64 bitmapComputeFletcher64 := by
  unfold bitmapComputeFletcher64
  apply paired_get_bind
  intro sb hsb dev dev'
  refine (Twin.loop fun i _ hi => ?_).bind fun r r' hr => ?_
  · refine (paired_readBlk (hsb.bitmap_mem hi)).attempt.bind fun r r' hr => ?_
    cases hr with
    | ok hbuf =>
        subst hbuf
        exact Twin.pure rfl
    | error e => exact Twin.pure rfl
  · subst hr
    cases r with
    | inl s => exact Twin.pure rfl
    | inr _ => exact Twin.pure rfl

theorem paired_signatureCompute :
    Twin (PairedVol disk disk' A (MetadataIn A start)) Eq signatureCompute signatureCompute := by
  unfold signatureCompute
  apply paired_get_bind
  intro sb hsb dev dev'
  refine (Twin.loop fun i _ hi => ?_).bind fun r r' hr => ?_
  · refine (paired_readBlk (hsb.table_mem hi)).attempt.bind fun r r' hr => ?_
    cases hr with
    | ok hbuf =>
        subst hbuf
        exact Twin.pure rfl
    | error e => exact Twin.pure rfl
  · subst hr
    cases r with
    | inl s => exact Twin.pure rfl
    | inr _ => exact Twin.pure rfl

/-! ## 項目の表 -/

theorem paired_entryRead (idx : UInt32) :
    Twin (PairedVol disk disk' A (MetadataIn A start)) Eq (entryRead idx) (entryRead idx) := by
  unfold entryRead
  apply paired_get_bind
  intro sb hsb dev dev'
  refine Twin.failIf Iff.rfl fun hidx => ?_
  have hmem := hsb.table (hsb.placed.tableFits.blockOffset_mem (UInt32.lt_iff_toNat_lt.mp (UInt32.not_le.mp hidx)))
  refine (paired_readBlk hmem).bind fun blk blk' hblk => ?_
  subst hblk
  exact Twin.failIf Iff.rfl fun _ => Twin.pure rfl

theorem paired_findSlot : Twin (PairedVol disk disk' A (MetadataIn A start)) Eq findSlot findSlot := by
  unfold findSlot
  apply paired_get_bind
  intro sb hsb dev dev'
  refine (Twin.loop fun i _ _ => ?_).bind fun r r' hr => ?_
  · refine (paired_entryRead _).attempt.bind fun r r' hr => ?_
    cases hr with
    | ok htemp =>
        subst htemp
        exact Twin.ite (fun _ => Twin.pure rfl) fun _ => Twin.pure rfl
    | error e =>
        cases e with
        | checksumMismatch => exact Twin.pure rfl
        | _ => exact Twin.throw _
  · subst hr
    cases r with
    | inl _ => exact Twin.throw _
    | inr _ => exact Twin.pure rfl

/-- 中身だけが違うボリュームと、同じ項目。 -/
def PairedEntry (disk disk' : Disk) (A : Set UInt32) (P : Superblock → Prop) (s s' : EntryState) : Prop :=
  PairedVol disk disk' A P s.vol s'.vol ∧ s'.entry = s.entry

theorem paired_onVol {α : Type} {p : UsfsM α} (h : Twin (PairedVol disk disk' A P) Eq p p) :
    Twin (PairedEntry disk disk' A P) Eq (onVol p) (onVol p) :=
  h.within (fun _ _ hs => hs.1) fun _ _ _ _ hs hv => ⟨hv, hs.2⟩

theorem paired_modifyEntry {f : Entry → Entry} :
    Twin (PairedEntry disk disk' A P) Eq (modifyEntry f) (modifyEntry f) :=
  fun _ _ hs => ⟨.ok rfl, hs.1, congrArg f hs.2⟩

theorem paired_entryWrite (idx : UInt32) :
    Twin (PairedEntry disk disk' A (MetadataIn A start)) Eq (entryWrite idx) (entryWrite idx) := by
  unfold entryWrite
  refine Twin.get.bind fun s s' hs => ?_
  rw [hs.1.sb]
  refine Twin.failIf Iff.rfl fun hidx => (Twin.ofExcept _).bind fun _ _ _ => ?_
  have hmem := hs.1.keeps.table (hs.1.keeps.placed.tableFits.blockOffset_mem
    (UInt32.lt_iff_toNat_lt.mp (UInt32.not_le.mp hidx)))
  refine (paired_onVol (paired_readBlk hmem)).bind fun blk blk' hblk => ?_
  subst hblk
  refine paired_modifyEntry.bind fun _ _ _ => Twin.get.bind fun t t' ht => ?_
  rw [ht.2]
  exact paired_onVol paired_writeBlk

theorem paired_withEntry {α : Type} {p : EntryM α} (e : Entry) (h : Twin (PairedEntry disk disk' A P) Eq p p) :
    Twin (PairedVol disk disk' A P) Eq (withEntry e p) (withEntry e p) := by
  intro v v' hv
  obtain ⟨hr, hs⟩ := h ⟨v, e⟩ ⟨v', e⟩ ⟨hv, rfl⟩
  unfold withEntry
  rcases hp : p ⟨v, e⟩ with ⟨r, s⟩
  rcases hp' : p ⟨v', e⟩ with ⟨r', s'⟩
  rw [hp, hp'] at hr hs
  cases hr with
  | ok h => exact ⟨.ok (Prod.ext h hs.2.symm), hs.1⟩
  | error err => exact ⟨.error err, hs.1⟩

/-! ## 最初の割り当て -/

/-- ビットマップの先頭のブロックは、まだ 0 である。 -/
def Unclaimed (v : Vol) : Prop := v.dev.disk v.sb.bitmapStartBlock = Bytes.zero 4096

theorem bitIsSet_zero : bitIsSet (Bytes.zero 4096) 0 = false := by
  have hget : (Bytes.zero 4096)[0]? = some 0 := by
    unfold Bytes.zero
    simp
  unfold bitIsSet Bytes.testBit
  change bitSet ((Bytes.zero 4096)[0]?.getD 0) 0 = false
  rw [hget]
  decide

theorem fetchFor_first :
    fetchFor 0 none v = (readBlk v.sb.bitmapStartBlock >>= fun buf => pure (0, buf) : UsfsM _) v := by
  unfold fetchFor
  rw [run_bind (rfl : Prog.get v = (.ok v, v)) rfl]
  have hzero : (0 : UInt32) / bitsPerBlock = 0 := by decide
  simp only [hzero, UInt32.add_zero]

/-- 使われていないビットマップでは、探索は先頭の一ブロックを読んで、先頭のビットで終わる。 -/
theorem findRun_unclaimed (h : Unclaimed v) (hne : dataBlockCount v.sb ≠ 0) :
    findRun 1 v = (readBlk v.sb.bitmapStartBlock >>= fun _ => pure 0 : UsfsM UInt32) v := by
  obtain ⟨m, hm⟩ : ∃ m, (dataBlockCount v.sb).toNat = m + 1 := Nat.exists_eq_succ_of_ne_zero fun hz =>
    hne (UInt32.toNat_inj.mp hz)
  unfold findRun
  rw [run_bind (rfl : Prog.get v = (.ok v, v)) rfl, hm]
  unfold loop loopFrom
  have hread : wp (readBlk v.sb.bitmapStartBlock) (fun buf _ => buf = Bytes.zero 4096) (fun _ _ => True) v :=
    wp_readBlk (fun _ _ => h) fun _ _ => trivial
  have hfetch := fetchFor_first (v := v)
  rcases hrun : readBlk v.sb.bitmapStartBlock v with ⟨e | buf, v₁⟩
  · rw [run_bind_error hrun] at hfetch ⊢
    exact run_bind_error (run_bind_error (run_bind_error hfetch))
  · obtain rfl := hread.ok hrun
    rw [run_bind hrun rfl] at hfetch ⊢
    refine run_bind (a := Sum.inr 0) (run_bind (a := Sum.inr 0) (run_bind hfetch ?_) rfl) rfl
    have hclear : (! bitIsSet (Bytes.zero 4096) (UInt32.ofNat 0 % bitsPerBlock)) = true := by
      have hmod : UInt32.ofNat 0 % bitsPerBlock = 0 := by decide
      rw [hmod, bitIsSet_zero]
      rfl
    simp only [hclear]
    rfl

theorem paired_findRun (h : PairedVol disk disk' A (MetadataIn A start) v v') (hz : Unclaimed v)
    (hne : dataBlockCount v.sb ≠ 0) :
    Outcome (PairedVol disk disk' A (MetadataIn A start)) (PairedVol disk disk' A (MetadataIn A start))
      (fun r r' : UInt32 => r = r' ∧ r = 0) (findRun 1 v) (findRun 1 v') := by
  have hz' : Unclaimed v' := by
    unfold Unclaimed
    rw [h.sb, h.dev.agree _ h.keeps.bitmap_first]
    exact hz
  rw [findRun_unclaimed hz hne, findRun_unclaimed hz' (h.sb ▸ hne), h.sb]
  exact ((paired_readBlk h.keeps.bitmap_first).coupled.bind fun _ _ _ => Coupled.pure ⟨rfl, rfl⟩) v v' h

theorem MetadataIn.rebook {sb : Superblock} (h : MetadataIn A start sb) (free used flags sig : UInt32) (sum : UInt64) :
    MetadataIn A start { sb with
      freeBlocks := free, usedEntries := used, stateFlags := flags, signature := sig, fletcher64Bitmap := sum } :=
  ⟨⟨h.placed.tableAfter, h.placed.bitmapAfter, h.placed.dataAfter, h.placed.entriesFit⟩, h.bitmap, h.table, h.nonempty,
    h.data⟩

theorem paired_markRun (used : Bool) :
    Twin (PairedVol disk disk' A (MetadataIn A start)) Eq (markRun 0 1 used) (markRun 0 1 used) := by
  unfold markRun
  apply paired_get_bind
  intro sb hsb dev dev'
  have hfirst : (0 : UInt32) / bitsPerBlock = 0 := by decide
  have hlast : ((0 : UInt32) + 1 - 1) / bitsPerBlock = 0 := by decide
  simp only [hfirst, hlast]
  refine Coupled.twin (Coupled.forUpto fun i hi => Twin.coupled ?_)
  obtain rfl : i = 0 := by
    have hone : (0 : UInt32).toNat + 1 - (0 : UInt32).toNat = 1 := rfl
    omega
  have hmem : sb.bitmapStartBlock + (0 + UInt32.ofNat 0) ∈ A := by simpa using hsb.bitmap_first
  refine (paired_readBlk hmem).bind fun buf buf' hbuf => ?_
  subst hbuf
  exact paired_writeBlk

theorem paired_blockFree :
    Twin (PairedVol disk disk' A (MetadataIn A start)) Eq (blockFree start 1) (blockFree start 1) := by
  unfold blockFree
  apply paired_get_bind
  intro sb hsb dev dev'
  refine Twin.ite (fun _ => Twin.pure rfl) fun _ => Twin.failIf Iff.rfl fun _ => (Twin.ofExcept _).bind fun _ _ _ => ?_
  have hzero : start - sb.dataRegionStart = 0 := by
    rw [hsb.data]
    simp
  rw [hzero]
  exact (paired_markRun false).bind fun _ _ _ => paired_modifySb fun sb h => h.rebook _ _ _ _ _

theorem coupled_blockAlloc :
    Coupled (fun v v' => PairedVol disk disk' A (MetadataIn A start) v v' ∧ Unclaimed v)
      (PairedVol disk disk' A (MetadataIn A start)) (PairedVol disk disk' A (MetadataIn A start))
      (fun b b' => b = b' ∧ b = start) (blockAlloc 1) (blockAlloc 1) := by
  unfold blockAlloc
  refine Coupled.get_bind_at fun v v' hv => ?_
  obtain ⟨hv, hz⟩ := hv
  rw [hv.sb]
  have hback : ∀ s s' : Vol, s = v ∧ s' = v' → PairedVol disk disk' A (MetadataIn A start) s s' := by
    rintro _ _ ⟨rfl, rfl⟩
    exact hv
  refine Coupled.failIf Iff.rfl hback fun _ => Coupled.failIf Iff.rfl hback fun hfull => ?_
  refine ((Twin.ofExcept (volumeWritable v.sb)).coupled.mono (fun _ _ h => h) (fun _ _ h => h) hback
    fun _ _ h => h).bind fun _ _ _ => ?_
  have hne : dataBlockCount v.sb ≠ 0 := by
    intro hzero
    have hzero := congrArg UInt32.toNat hzero
    have hlt := UInt32.lt_iff_toNat_lt.mp (UInt32.not_le.mp hfull)
    unfold dataBlockCount at hzero
    rw [toNat_sub_le (Nat.le_of_lt hlt)] at hzero
    simp only [UInt32.reduceToNat] at hzero
    omega
  have hfind : Coupled (fun s s' => s = v ∧ s' = v') (PairedVol disk disk' A (MetadataIn A start))
      (PairedVol disk disk' A (MetadataIn A start)) (fun r r' : UInt32 => r = r' ∧ r = 0) (findRun 1) (findRun 1) := by
    rintro _ _ ⟨rfl, rfl⟩
    exact paired_findRun hv hz hne
  refine hfind.bind fun r r' hr => ?_
  obtain ⟨rfl, rfl⟩ := hr
  refine (paired_markRun true).coupled.bind fun _ _ _ =>
    (coupled_modifySb fun sb h => h.rebook _ _ _ _ _).bind fun _ _ _ => Coupled.pure ⟨rfl, ?_⟩
  rw [UInt32.add_zero]
  exact hv.keeps.data

theorem coupled_allocCatalogBlock :
    Coupled (fun v v' => PairedVol disk disk' A (MetadataIn A start) v v' ∧ Unclaimed v)
      (PairedVol disk disk' A (MetadataIn A start)) (PairedVol disk disk' A (MetadataIn A start))
      (fun b b' => b = b' ∧ b = start) allocCatalogBlock allocCatalogBlock := by
  unfold allocCatalogBlock
  refine coupled_blockAlloc.bind fun b b' hb => ?_
  obtain ⟨rfl, rfl⟩ := hb
  refine Coupled.attempt_bind paired_writeBlk.coupled (fun _ _ _ => Coupled.pure ⟨rfl, rfl⟩) fun e => ?_
  exact (paired_blockFree.attempt.bind fun _ _ _ => Twin.throw e).coupled

theorem paired_storeFresh (chosen : UInt32) (temp : Entry) :
    Twin (PairedVol disk disk' A (MetadataIn A start)) Eq
      (storeFresh chosen { temp with firstBlock := start, blockCount := 1 })
      (storeFresh chosen { temp with firstBlock := start, blockCount := 1 }) := by
  unfold storeFresh
  refine (paired_withEntry _ (paired_entryWrite chosen)).attempt.bind fun r r' hr => ?_
  cases hr with
  | ok _ => exact (paired_modifySb fun sb h => h.rebook _ _ _ _ _).bind fun _ _ _ => Twin.pure rfl
  | error e => exact Twin.ite (fun _ => paired_blockFree.attempt.bind fun _ _ _ => Twin.throw e) fun _ => Twin.throw e

theorem coupled_still {α : Type} {p : UsfsM α} (h : Twin (PairedVol disk disk' A (MetadataIn A start)) Eq p p)
    (hs : Preserves Still p) :
    Coupled (fun v v' => PairedVol disk disk' A (MetadataIn A start) v v' ∧ Unclaimed v)
      (fun v v' => PairedVol disk disk' A (MetadataIn A start) v v' ∧ Unclaimed v)
      (PairedVol disk disk' A (MetadataIn A start)) Eq p p := by
  refine h.coupled.and_left fun v hz => (hs v).mono ?_ (fun _ _ _ => trivial)
  rintro _ _ ⟨c, rfl⟩
  exact hz

theorem still_findSlot : Preserves Still findSlot := by
  unfold findSlot
  refine .bind .get fun v => .bind (.loop fun i _ => .bind (still_entryRead _).attempt fun r => ?_) fun r => ?_
  · cases r with
    | ok temp => exact .ite (.pure _) (.pure _)
    | error e => cases e <;> first | exact .pure _ | exact .throw _
  · cases r with
    | inl _ => exact .throw _
    | inr _ => exact .pure _

theorem coupled_entryAlloc (who : OwIdentity) (name : Option (List UInt8)) (nameLen : Nat) :
    Coupled (fun v v' => PairedVol disk disk' A (MetadataIn A start) v v' ∧ Unclaimed v)
      (PairedVol disk disk' A (MetadataIn A start)) (PairedVol disk disk' A (MetadataIn A start)) Eq
      (entryAlloc who entryCatalog name nameLen 0) (entryAlloc who entryCatalog name nameLen 0) := by
  unfold entryAlloc
  refine Coupled.failIf Iff.rfl (fun _ _ h => h.1) fun _ => Coupled.failIf Iff.rfl (fun _ _ h => h.1) fun _ =>
    Coupled.failIf Iff.rfl (fun _ _ h => h.1) fun _ => Coupled.failIf Iff.rfl (fun _ _ h => h.1) fun _ =>
    Coupled.get_bind fun v v' hv => ?_
  rw [hv.1.sb]
  refine Coupled.failIf Iff.rfl (fun _ _ h => h.1) fun _ => ?_
  refine (coupled_still (Twin.ofExcept _) (.ofExcept _)).bind fun _ _ _ => ?_
  refine (coupled_still (Twin.whenever fun _ => ?_) (.whenever ?_)).bind fun _ _ _ => ?_
  · refine (paired_entryRead 0).bind fun parent parent' hparent => ?_
    subst hparent
    exact Twin.failIf Iff.rfl fun _ => Twin.ofExcept _
  · exact .bind (still_entryRead 0) fun _ => .bind (.failIf _ _) fun _ => .ofExcept _
  refine (coupled_still (Twin.ofExcept _) (.ofExcept _)).bind fun mode mode' hmode => ?_
  subst hmode
  refine (coupled_still paired_findSlot still_findSlot).bind fun chosen chosen' hchosen => ?_
  subst hchosen
  rw [if_pos rfl]
  refine coupled_allocCatalogBlock.bind fun b b' hb => ?_
  obtain ⟨rfl, rfl⟩ := hb
  exact (paired_storeFresh chosen _).coupled

/-! ## スーパーブロックと同期 -/

theorem coupled_superblockWrite :
    Coupled (PairedVol disk disk' A (fun _ => True)) (PairedVol disk disk' (insert 0 A) (fun _ => True))
      (PairedVol disk disk' A (fun _ => True)) Eq superblockWrite superblockWrite := by
  unfold superblockWrite
  refine (coupled_modifySb (Q := fun _ => True) fun _ _ => trivial).bind fun _ _ _ => Coupled.get_bind fun v v' hv => ?_
  rw [hv.sb]
  exact coupled_writeBlk

theorem coupled_flushDirty :
    Coupled (PairedVol disk disk' A (MetadataIn A start)) (PairedVol disk disk' (insert 0 A) (fun _ => True))
      (PairedVol disk disk' ∅ (fun _ => True)) Eq flushDirty flushDirty := by
  have hany : ∀ {B Q} {v v' : Vol}, PairedVol disk disk' B Q v v' → PairedVol disk disk' ∅ (fun _ => True) v v' :=
    fun h => h.any
  unfold flushDirty
  refine (paired_bitmapComputeFletcher64.coupled.mono (fun _ _ h => h) (fun _ _ h => h) (fun _ _ h => hany h)
    fun _ _ h => h).bind fun sum sum' hsum => ?_
  subst hsum
  refine (coupled_modifySb (Q := fun _ => True) fun _ _ => trivial).bind fun _ _ _ =>
    (coupled_modifySb (Q := fun _ => True) fun _ _ => trivial).bind fun _ _ _ => ?_
  refine (coupled_superblockWrite.mono (fun _ _ h => h) (fun _ _ h => h) (fun _ _ h => hany h) fun _ _ h => h).bind
    fun _ _ _ => ?_
  exact paired_flushBlk.coupled.mono (fun _ _ h => h) (fun _ _ h => h) (fun _ _ h => hany h) fun _ _ h => h

/-! ## フォーマット -/

theorem coupled_fill {first : UInt32} {n : Nat} (hfit : first.toNat + n ≤ 2 ^ 32) {body : Nat → UsfsM Unit}
    (hbody : ∀ i, i < n → Coupled (PairedVol disk disk' (A ∪ blocksIn first.toNat (first.toNat + i)) P)
      (PairedVol disk disk' (insert (first + UInt32.ofNat i) (A ∪ blocksIn first.toNat (first.toNat + i))) P)
      (PairedVol disk disk' ∅ (fun _ => True)) Eq (body i) (body i)) :
    Coupled (PairedVol disk disk' A P) (PairedVol disk disk' (A ∪ blocksIn first.toNat (first.toNat + n)) P)
      (PairedVol disk disk' ∅ (fun _ => True)) Eq (Prog.forUpto n body) (Prog.forUpto n body) := by
  have hstep := @Coupled.forUpto _ _ _ _
    (fun i => PairedVol disk disk' (A ∪ blocksIn first.toNat (first.toNat + i)) P) n
    body body fun i hi => (hbody i hi).mono (fun _ _ h => h)
      (fun _ _ h => h.mono (union_blocksIn_succ_subset A (by omega)) fun _ hP => hP) (fun _ _ h => h) fun _ _ h => h
  refine hstep.mono (fun _ _ h => h.mono ?_ fun _ hP => hP) (fun _ _ h => h) (fun _ _ h => h) fun _ _ h => h
  rintro b (hb | ⟨hm, hn⟩)
  · exact hb
  · omega

/-- 通った初期化の後では、ビットマップの先頭のブロックは 0 である。 -/
theorem bitmapInit_unclaimed (v : Vol) : wp bitmapInit (fun _ v' => Unclaimed v') (fun _ _ => True) v := by
  unfold bitmapInit
  simp only [wp_bind, wp_get, wp_failIf]
  refine ⟨fun _ => trivial, fun hne => ?_⟩
  have hpos : 0 < v.sb.bitmapBlockCount.toNat := Nat.pos_of_ne_zero fun hz =>
    hne (.inr (UInt32.toNat_inj.mp hz))
  refine wp_forUpto (fun i v' => v'.sb = v.sb ∧ (0 < i → Unclaimed v')) ⟨rfl, fun hno => absurd hno (lt_irrefl 0)⟩ ?_
    fun v' h => h.2 hpos
  rintro i v₁ hi ⟨hsb, hz⟩
  rw [wp_bind, wp_failIf]
  refine ⟨fun _ => trivial, fun _ => wp_writeBlk (fun c _ => ⟨hsb, fun _ => ?_⟩) fun _ _ _ _ => trivial⟩
  change Function.update v₁.dev.disk _ _ v₁.sb.bitmapStartBlock = _
  by_cases hb : v₁.sb.bitmapStartBlock = v.sb.bitmapStartBlock + UInt32.ofNat i
  · rw [hb, Function.update_self]
  · rw [Function.update_of_ne hb]
    cases i with
    | zero => exact absurd (by simp [hsb]) hb
    | succ i => exact hz (Nat.succ_pos i)

theorem coupled_bitmapInit {sb : Superblock} (hp : Placed sb) :
    Coupled (PairedVol disk disk' A (fun now => now = sb))
      (fun v v' => PairedVol disk disk' (A ∪ blockRange sb.bitmapStartBlock.toNat sb.bitmapBlockCount.toNat)
        (fun now => now = sb) v v' ∧ Unclaimed v)
      (PairedVol disk disk' ∅ (fun _ => True)) Eq bitmapInit bitmapInit := by
  have hmain : Coupled (PairedVol disk disk' A (fun now => now = sb))
      (PairedVol disk disk' (A ∪ blockRange sb.bitmapStartBlock.toNat sb.bitmapBlockCount.toNat) (fun now => now = sb))
      (PairedVol disk disk' ∅ (fun _ => True)) Eq bitmapInit bitmapInit := by
    unfold bitmapInit
    refine Coupled.get_bind fun v v' hv => ?_
    rw [hv.sb, hv.keeps]
    refine Coupled.failIf Iff.rfl (fun _ _ h => h.any) fun _ => ?_
    refine coupled_fill (le_trans hp.dataAfter (Nat.le_of_lt sb.dataRegionStart.toNat_lt)) fun i _ => ?_
    exact Coupled.failIf Iff.rfl (fun _ _ h => h.any) fun _ =>
      coupled_writeBlk.mono (fun _ _ h => h) (fun _ _ h => h) (fun _ _ h => h.any) fun _ _ h => h
  exact (hmain.and_left fun v (_ : True) => bitmapInit_unclaimed v).mono (fun _ _ h => ⟨h, trivial⟩) (fun _ _ h => h)
    (fun _ _ h => h) fun _ _ h => h

theorem coupled_formatBody {sb : Superblock} (who : OwIdentity) (hp : Placed sb)
    (hpos : 0 < sb.bitmapBlockCount.toNat) :
    Coupled (PairedVol disk disk' ∅ (fun now => now = sb))
      (PairedVol disk disk' (insert 0 (sb.tableRegion ∪ blockRange sb.bitmapStartBlock.toNat sb.bitmapBlockCount.toNat))
        (fun _ => True))
      (PairedVol disk disk' ∅ (fun _ => True)) Eq (formatBody who) (formatBody who) := by
  unfold formatBody
  refine Coupled.get_bind fun v v' hv => ?_
  rw [hv.sb, hv.keeps]
  have hfit : sb.entryTableStart.toNat + sb.entryTableBlocks.toNat ≤ 2 ^ 32 :=
    le_trans hp.bitmapAfter (Nat.le_of_lt sb.bitmapStartBlock.toNat_lt)
  refine (coupled_fill hfit fun i _ => ?_).bind fun _ _ _ => (coupled_bitmapInit hp).bind fun _ _ _ => ?_
  · refine Coupled.attempt_bind coupled_writeBlk (fun _ _ _ => Coupled.pure rfl) fun _ => ?_
    exact fun v v' hv => .error UsfsErr.io (PairedVol.any hv)
  have hset : ∅ ∪ blocksIn sb.entryTableStart.toNat (sb.entryTableStart.toNat + sb.entryTableBlocks.toNat) =
      sb.tableRegion := Set.empty_union _
  rw [hset]
  have hmeta : ∀ now, now = sb → MetadataIn
      (sb.tableRegion ∪ blockRange sb.bitmapStartBlock.toNat sb.bitmapBlockCount.toNat) sb.dataRegionStart now := by
    rintro _ rfl
    exact ⟨hp, Set.subset_union_right, Set.subset_union_left, hpos, rfl⟩
  generalize sb.tableRegion ∪ blockRange sb.bitmapStartBlock.toNat sb.bitmapBlockCount.toNat = A at hmeta ⊢
  refine ((coupled_entryAlloc who _ _).mono (fun _ _ h => ⟨h.1.mono subset_rfl hmeta, h.2⟩)
    (fun _ _ h => h) (fun _ _ h => h.any) fun _ _ h => h).bind fun _ _ _ => ?_
  refine (coupled_modifySb fun sb h => h.rebook _ _ _ _ _).bind fun _ _ _ => ?_
  refine (paired_bitmapComputeFletcher64.coupled.mono (fun _ _ h => h) (fun _ _ h => h) (fun _ _ h => h.any)
    fun _ _ h => h).bind fun sum sum' hsum => ?_
  subst hsum
  refine (coupled_modifySb fun sb h => h.rebook _ _ _ _ _).bind fun _ _ _ => ?_
  refine (paired_signatureCompute.coupled.mono (fun _ _ h => h) (fun _ _ h => h) (fun _ _ h => h.any)
    fun _ _ h => h).bind fun sig sig' hsig => ?_
  subst hsig
  exact (coupled_modifySb fun sb h => h.rebook _ _ _ _ _).bind fun _ _ _ => coupled_flushDirty

theorem placed_freshSuperblock {totalBlocks b : UInt32} (label : Option (List UInt8)) (nonce : Bytes 12)
    (hroom : 17 + b.toNat < totalBlocks.toNat) : Placed (freshSuperblock totalBlocks b label nonce) := by
  have hlt := totalBlocks.toNat_lt
  refine ⟨?_, ?_, ?_, ?_⟩
  · change 0 < (1 : UInt32).toNat
    decide
  · change (1 : UInt32).toNat + (16 : UInt32).toNat ≤ (17 : UInt32).toNat
    decide
  · change (17 : UInt32).toNat + b.toNat ≤ (17 + b).toNat
    rw [toNat_add_lt (by simp only [UInt32.reduceToNat]; omega)]
  · change (256 : UInt32).toNat ≤ 16 * (16 : UInt32).toNat
    decide

/-- スーパーブロックからデータ領域の前までは、三つの領域で尽きる。 -/
theorem metadata_subset (totalBlocks b : UInt32) (label : Option (List UInt8)) (nonce : Bytes 12) :
    blocksIn 0 (17 + b.toNat) ⊆ insert 0 ((freshSuperblock totalBlocks b label nonce).tableRegion ∪
      blockRange (freshSuperblock totalBlocks b label nonce).bitmapStartBlock.toNat
        (freshSuperblock totalBlocks b label nonce).bitmapBlockCount.toNat) := by
  rintro c ⟨_, hn⟩
  by_cases hzero : c.toNat = 0
  · exact .inl (UInt32.toNat_inj.mp hzero)
  · by_cases htable : c.toNat < 17
    · exact .inr (.inl ⟨Nat.one_le_iff_ne_zero.mpr hzero, htable⟩)
    · exact .inr (.inr ⟨Nat.not_lt.mp htable, hn⟩)

/-- スーパーブロックからデータ領域の前までのブロック。配置できない大きさでは、一つもない。 -/
def metadataBlocks (totalBlocks : UInt32) : Set UInt32 :=
  { c | ∃ b, layoutBitmapBlocks totalBlocks = some b ∧ c.toNat < 17 + b.toNat }

theorem coupled_formatVolume (who : OwIdentity) (totalBlocks : UInt32) (label : Option (List UInt8)) :
    Coupled (Paired disk disk' ∅) (Paired disk disk' (metadataBlocks totalBlocks)) (Paired disk disk' ∅) Eq
      (formatVolume who totalBlocks label) (formatVolume who totalBlocks label) := by
  unfold formatVolume
  refine Coupled.failIf Iff.rfl (fun _ _ h => h) fun hlarge => ?_
  cases hlayout : layoutBitmapBlocks totalBlocks with
  | none => exact Coupled.throw _
  | some bitmapBlocks =>
      obtain ⟨hpos, hroom⟩ := layoutBitmapBlocks_room (UInt32.le_iff_toNat_le.mp (UInt32.not_lt.mp hlarge)) hlayout
      have hsubset : metadataBlocks totalBlocks ⊆ blocksIn 0 (17 + bitmapBlocks.toNat) := by
        rintro c ⟨b, hb, hc⟩
        obtain rfl := Option.some.inj (hlayout.symm.trans hb)
        exact ⟨Nat.zero_le _, hc⟩
      have hbody : ∀ nonce, Coupled (Paired disk disk' ∅) (Paired disk disk' (metadataBlocks totalBlocks))
          (Paired disk disk' ∅) Eq
          (fun d => Prod.map id Vol.dev (formatBody who ⟨d, freshSuperblock totalBlocks bitmapBlocks label nonce⟩))
          (fun d => Prod.map id Vol.dev
            (formatBody who ⟨d, freshSuperblock totalBlocks bitmapBlocks label nonce⟩)) := by
        intro nonce d d' hd
        have hout := coupled_formatBody who (placed_freshSuperblock label nonce hroom) hpos
          ⟨d, freshSuperblock totalBlocks bitmapBlocks label nonce⟩
          ⟨d', freshSuperblock totalBlocks bitmapBlocks label nonce⟩ ⟨rfl, rfl, hd⟩
        change Outcome _ _ _ (Prod.map id Vol.dev (formatBody who _)) (Prod.map id Vol.dev (formatBody who _))
        generalize formatBody who ⟨d, freshSuperblock totalBlocks bitmapBlocks label nonce⟩ = r at hout ⊢
        generalize formatBody who ⟨d', freshSuperblock totalBlocks bitmapBlocks label nonce⟩ = r' at hout ⊢
        cases hout with
        | ok h hv => exact .ok h (hv.dev.mono (hsubset.trans (metadata_subset totalBlocks bitmapBlocks label nonce)))
        | error e hv => exact .error e hv.dev
      refine Coupled.attempt_bind (coupled_htlGetEntropy 12) (fun nonce nonce' h => ?_) fun _ => hbody _
      subst h
      exact hbody _

theorem coupled_fullScrub (who : OwIdentity) (totalBlocks : UInt32) (label : Option (List UInt8)) :
    Coupled (Paired disk disk' ∅) (Paired disk disk' (blocksIn 0 totalBlocks.toNat)) (Paired disk disk' ∅) Eq
      (fullScrub who totalBlocks label) (fullScrub who totalBlocks label) := by
  unfold fullScrub
  refine Coupled.failIf Iff.rfl (fun _ _ h => h) fun _ => ?_
  have hstart : blocksIn 0 0 ⊆ ∅ := fun b hb => absurd hb.2 (Nat.not_lt_zero _)
  refine ((coupled_wipe (Nat.le_of_lt totalBlocks.toNat_lt)).mono (fun _ _ h => h.mono hstart) (fun _ _ h => h)
    (fun _ _ h => h) fun _ _ h => h).bind fun _ _ _ => ?_
  exact (coupled_frame fun disk disk' => coupled_formatVolume who totalBlocks label).mono (fun _ _ h => h)
    (fun _ _ h => h.mono Set.subset_union_left) (fun _ _ h => h.mono (Set.empty_subset _)) fun _ _ h => h

end

end OwStorage.Usfs
