import OwStorage.Common.Lemmas.Paired
import OwStorage.Owfs.Lemmas.Format

/-!
# 前の中身に依らない操作（OWFS）

メモリ上のスーパーブロックが等しく、ディスクの中身だけが違う二つのボリュームで、フォーマットの中の操作を並べて動かす。
読むのは、自分で書いたビットマップと表のブロックだけである。
-/

namespace OwStorage.Owfs

open Lib Prog

/-- 中身だけが違う二つのボリューム。`A` のブロックは揃い、スーパーブロックは `P` を満たす。 -/
structure PairedVol (disk disk' : Disk) (A : Set UInt32) (P : Superblock → Prop) (v v' : Vol) : Prop where
  sb : v'.sb = v.sb
  keeps : P v.sb
  dev : Paired disk disk' A v.dev v'.dev

/-- ビットマップと表のブロックは、どれも `A` に入る。 -/
structure MetadataIn (A : Set UInt32) (sb : Superblock) : Prop where
  layout : Layout sb
  bitmap : sb.bitmapRegion ⊆ A
  table : sb.tableRegion ⊆ A

section

variable {disk disk' : Disk} {A B : Set UInt32} {P Q : Superblock → Prop} {v v' : Vol} {b : UInt32} {buf : Block}

theorem PairedVol.mono (h : PairedVol disk disk' A P v v') (hB : B ⊆ A) (hQ : ∀ sb, P sb → Q sb) :
    PairedVol disk disk' B Q v v' :=
  ⟨h.sb, hQ _ h.keeps, h.dev.mono hB⟩

theorem PairedVol.any (h : PairedVol disk disk' A P v v') : PairedVol disk disk' ∅ (fun _ => True) v v' :=
  h.mono (Set.empty_subset A) fun _ _ => trivial

/-! ## 一つのブロック -/

theorem coupled_dev {α : Type} {R : α → α → Prop} {p : Prog HtlDevice HtlErr α} {mapErr : HtlErr → OwfsErr}
    (h : Coupled (Paired disk disk' A) (Paired disk disk' B) (Paired disk disk' A) R p p) :
    Coupled (PairedVol disk disk' A P) (PairedVol disk disk' B P) (PairedVol disk disk' A P) R
      (Prog.within Vol.devLens mapErr p) (Prog.within Vol.devLens mapErr p) :=
  h.within (fun _ _ hv => hv.dev) (fun _ _ _ _ hv hd => ⟨hv.sb, hv.keeps, hd⟩) fun _ _ _ _ hv hd =>
    ⟨hv.sb, hv.keeps, hd⟩

theorem paired_readBlk (hb : b ∈ A) : Twin (PairedVol disk disk' A P) Eq (readBlk b) (readBlk b) :=
  (coupled_dev (coupled_htlReadBlock hb)).twin

theorem coupled_writeBlk :
    Coupled (PairedVol disk disk' A P) (PairedVol disk disk' (insert b A) P) (PairedVol disk disk' A P) Eq
      (writeBlk b buf) (writeBlk b buf) := coupled_dev coupled_htlWriteBlock

theorem paired_writeBlk : Twin (PairedVol disk disk' A P) Eq (writeBlk b buf) (writeBlk b buf) :=
  (coupled_writeBlk.mono (fun _ _ h => h) (fun _ _ h => h.mono (Set.subset_insert _ _) fun _ hP => hP)
    (fun _ _ h => h) fun _ _ h => h).twin

theorem paired_zeroBlk : Twin (PairedVol disk disk' A P) Eq (zeroBlk b) (zeroBlk b) :=
  ((coupled_dev coupled_htlZeroBlock).mono (fun _ _ h => h) (fun _ _ h => h.mono (Set.subset_insert _ _) fun _ hP => hP)
    (fun _ _ h => h) fun _ _ h => h).twin

theorem paired_flushBlk : Twin (PairedVol disk disk' A P) Eq flushBlk flushBlk :=
  (coupled_dev coupled_htlFlushCache).twin

theorem coupled_modifySb {f : Superblock → Superblock} {E : Vol → Vol → Prop} (hf : ∀ sb, P sb → Q (f sb)) :
    Coupled (PairedVol disk disk' A P) (PairedVol disk disk' A Q) E Eq (modifySb f) (modifySb f) :=
  fun _ _ h => .ok rfl ⟨congrArg f h.sb, hf _ h.keeps, h.dev⟩

theorem paired_modifySb {f : Superblock → Superblock} (hf : ∀ sb, P sb → P (f sb)) :
    Twin (PairedVol disk disk' A P) Eq (modifySb f) (modifySb f) := (coupled_modifySb hf).twin

theorem paired_get_bind {α : Type} {R : α → α → Prop} {f : Vol → OwfsM α}
    (hf : ∀ sb, P sb → ∀ dev dev', Twin (PairedVol disk disk' A P) R (f ⟨dev, sb⟩) (f ⟨dev', sb⟩)) :
    Twin (PairedVol disk disk' A P) R (Prog.get >>= f) (Prog.get >>= f) := by
  refine Twin.get.bind fun v v' hv => ?_
  obtain ⟨dev, sb⟩ := v
  obtain ⟨dev', sb'⟩ := v'
  obtain rfl : sb' = sb := hv.sb
  exact hf sb' hv.keeps dev dev'

/-! ## ビットマップ -/

theorem MetadataIn.sameShape {sb sb' : Superblock} (h : MetadataIn A sb) (hs : SameShape sb sb') :
    MetadataIn A sb' := by
  refine ⟨hs.layout h.layout, ?_, ?_⟩
  · obtain ⟨_, _, rfl⟩ := hs
    exact h.bitmap
  · rw [hs.tableRegion]
    exact h.table

theorem MetadataIn.bitmap_mem {sb : Superblock} (h : MetadataIn A sb) {i : Nat} (hi : i < sb.bitmapBlockCount.toNat) :
    sb.bitmapStartBlock + UInt32.ofNat i ∈ A := by
  have hat := h.bitmap (bitmapBlockOf_mem h.layout (r := i * 32768) (by omega))
  unfold Superblock.bitmapBlockOf at hat
  rwa [Nat.mul_div_cancel i (by decide)] at hat

theorem paired_takeBit (sb : Superblock) (b : Nat) (buf : Block) (byteIdx bit : Nat) :
    Twin (PairedVol disk disk' A (MetadataIn A)) Eq (takeBit sb b buf byteIdx bit) (takeBit sb b buf byteIdx bit) := by
  unfold takeBit
  refine Twin.failIf Iff.rfl fun _ => paired_writeBlk.bind fun _ _ _ => ?_
  exact (paired_modifySb fun sb h => h.sameShape ⟨_, _, rfl⟩).bind fun _ _ _ => Twin.pure rfl

theorem paired_bitmapAlloc : Twin (PairedVol disk disk' A (MetadataIn A)) Eq bitmapAlloc bitmapAlloc := by
  unfold bitmapAlloc
  apply paired_get_bind
  intro sb hsb dev dev'
  refine Twin.failIf Iff.rfl fun _ => (Twin.loop fun i _ hi => ?_).bind fun r r' hr => ?_
  · refine (paired_readBlk (hsb.bitmap_mem hi)).bind fun buf buf' hbuf => ?_
    subst hbuf
    cases findClear buf with
    | none => exact Twin.pure rfl
    | some at_ =>
        refine (paired_takeBit sb i buf at_.1 at_.2).bind fun b b' hb => ?_
        subst hb
        exact Twin.pure rfl
  · subst hr
    cases r with
    | inl _ => exact Twin.throw _
    | inr b => exact Twin.pure rfl

theorem paired_bitmapFree (b : UInt32) :
    Twin (PairedVol disk disk' A (MetadataIn A)) Eq (bitmapFree b) (bitmapFree b) := by
  unfold bitmapFree
  apply paired_get_bind
  intro sb hsb dev dev'
  refine Twin.failIf Iff.rfl fun hin => Twin.failIf Iff.rfl fun _ => ?_
  have hdata : sb.IsData b := by
    rw [not_or, UInt32.not_lt, ge_iff_le, UInt32.not_le, UInt32.le_iff_toNat_le, UInt32.lt_iff_toNat_lt] at hin
    exact hin
  have hmem := hsb.bitmap (bitmapBlockOf_mem hsb.layout (lt_of_lt_of_le hdata.relOf_lt hsb.layout.bitmapCovers))
  have hblock : sb.bitmapStartBlock + ((b - sb.dataRegionStart) >>> 3 >>> 12) = sb.bitmapBlockOf (sb.relOf b) :=
    bitmapBlock_eq (v := ⟨dev, sb⟩) hdata
  rw [← hblock] at hmem
  refine (paired_readBlk hmem).bind fun buf buf' hbuf => ?_
  subst hbuf
  exact Twin.whenever fun _ => paired_writeBlk.bind fun _ _ _ => paired_modifySb fun sb h => h.sameShape ⟨_, _, rfl⟩

theorem paired_bitmapComputeFletcher64 :
    Twin (PairedVol disk disk' A (MetadataIn A)) Eq bitmapComputeFletcher64 bitmapComputeFletcher64 := by
  unfold bitmapComputeFletcher64
  apply paired_get_bind
  intro sb hsb dev dev'
  refine (Twin.loop fun i _ hi => ?_).bind fun r r' hr => ?_
  · refine (paired_readBlk (hsb.bitmap_mem hi)).attempt.bind fun r r' hr => ?_
    cases hr with
    | ok hbuf =>
        subst hbuf
        exact Twin.pure rfl
    | error e => exact Twin.pure rfl
  · subst hr
    cases r with
    | inl s => exact Twin.pure rfl
    | inr _ => exact Twin.pure rfl

/-! ## 表とスーパーブロック -/

/-- 中身だけが違うボリュームと、同じ inode。 -/
def PairedFile (disk disk' : Disk) (A : Set UInt32) (P : Superblock → Prop) (s s' : FileState) : Prop :=
  PairedVol disk disk' A P s.vol s'.vol ∧ s'.inode = s.inode

theorem paired_onVol {α : Type} {p : OwfsM α} (h : Twin (PairedVol disk disk' A P) Eq p p) :
    Twin (PairedFile disk disk' A P) Eq (onVol p) (onVol p) :=
  h.within (fun _ _ hs => hs.1) fun _ _ _ _ hs hv => ⟨hv, hs.2⟩

theorem paired_modifyInode {f : Inode → Inode} :
    Twin (PairedFile disk disk' A P) Eq (modifyInode f) (modifyInode f) :=
  fun _ _ hs => ⟨.ok rfl, hs.1, congrArg f hs.2⟩

theorem paired_inodeWrite (n : UInt32) :
    Twin (PairedFile disk disk' A (MetadataIn A)) Eq (inodeWrite n) (inodeWrite n) := by
  unfold inodeWrite
  refine Twin.get.bind fun s s' hs => ?_
  rw [hs.1.sb]
  refine Twin.failIf Iff.rfl fun hn => (Twin.ofExcept _).bind fun _ _ _ => ?_
  have hmem := hs.1.keeps.table (inodeBlockOffset_mem hs.1.keeps.layout
    (UInt32.lt_iff_toNat_lt.mp (UInt32.not_le.mp hn)))
  refine (paired_onVol (paired_readBlk hmem)).bind fun blk blk' hblk => ?_
  subst hblk
  refine paired_modifyInode.bind fun _ _ _ => Twin.get.bind fun t t' ht => ?_
  rw [ht.2]
  exact paired_onVol paired_writeBlk

theorem paired_withInode {α : Type} {p : FileM α} (ino : Inode) (h : Twin (PairedFile disk disk' A P) Eq p p) :
    Twin (PairedVol disk disk' A P) Eq (withInode ino p) (withInode ino p) := by
  intro v v' hv
  obtain ⟨hr, hs⟩ := h ⟨v, ino⟩ ⟨v', ino⟩ ⟨hv, rfl⟩
  unfold withInode
  rcases hp : p ⟨v, ino⟩ with ⟨r, s⟩
  rcases hp' : p ⟨v', ino⟩ with ⟨r', s'⟩
  rw [hp, hp'] at hr hs
  cases hr with
  | ok h => exact ⟨.ok (Prod.ext h hs.2.symm), hs.1⟩
  | error e => exact ⟨.error e, hs.1⟩

theorem coupled_superblockWrite :
    Coupled (PairedVol disk disk' A (fun _ => True)) (PairedVol disk disk' (insert superblockBlock A) (fun _ => True))
      (PairedVol disk disk' A (fun _ => True)) Eq superblockWrite superblockWrite := by
  unfold superblockWrite
  refine (coupled_modifySb (Q := fun _ => True) fun _ _ => trivial).bind fun _ _ _ => Coupled.get_bind fun v v' hv => ?_
  rw [hv.sb]
  exact coupled_writeBlk

theorem coupled_syncChanges :
    Coupled (PairedVol disk disk' A (MetadataIn A)) (PairedVol disk disk' (insert superblockBlock A) (fun _ => True))
      (PairedVol disk disk' ∅ (fun _ => True)) Eq syncChanges syncChanges := by
  have hany : ∀ {B Q} {v v' : Vol}, PairedVol disk disk' B Q v v' → PairedVol disk disk' ∅ (fun _ => True) v v' :=
    fun h => h.any
  unfold syncChanges
  refine (paired_bitmapComputeFletcher64.coupled.mono (fun _ _ h => h) (fun _ _ h => h) (fun _ _ h => hany h)
    fun _ _ h => h).bind fun sum sum' hsum => ?_
  subst hsum
  refine (coupled_modifySb (Q := fun _ => True) fun _ _ => trivial).bind fun _ _ _ =>
    (coupled_modifySb (Q := fun _ => True) fun _ _ => trivial).bind fun _ _ _ => ?_
  refine (coupled_superblockWrite.mono (fun _ _ h => h) (fun _ _ h => h) (fun _ _ h => hany h) fun _ _ h => h).bind
    fun _ _ _ => ?_
  exact paired_flushBlk.coupled.mono (fun _ _ h => h) (fun _ _ h => h) (fun _ _ h => hany h) fun _ _ h => h

/-! ## フォーマット -/

theorem coupled_fill {start : UInt32} {n : Nat} (hfit : start.toNat + n ≤ 2 ^ 32) {body : Nat → OwfsM Unit}
    (hbody : ∀ i, i < n → Coupled (PairedVol disk disk' (A ∪ blocksIn start.toNat (start.toNat + i)) P)
      (PairedVol disk disk' (insert (start + UInt32.ofNat i) (A ∪ blocksIn start.toNat (start.toNat + i))) P)
      (PairedVol disk disk' ∅ (fun _ => True)) Eq (body i) (body i)) :
    Coupled (PairedVol disk disk' A P) (PairedVol disk disk' (A ∪ blocksIn start.toNat (start.toNat + n)) P)
      (PairedVol disk disk' ∅ (fun _ => True)) Eq (Prog.forUpto n body) (Prog.forUpto n body) := by
  have hstep := @Coupled.forUpto _ _ _ _
    (fun i => PairedVol disk disk' (A ∪ blocksIn start.toNat (start.toNat + i)) P) n
    body body fun i hi => (hbody i hi).mono (fun _ _ h => h)
      (fun _ _ h => h.mono (union_blocksIn_succ_subset A (by omega)) fun _ hP => hP) (fun _ _ h => h) fun _ _ h => h
  refine hstep.mono (fun _ _ h => h.mono ?_ fun _ hP => hP) (fun _ _ h => h) (fun _ _ h => h) fun _ _ h => h
  rintro b (hb | ⟨hm, hn⟩)
  · exact hb
  · omega

theorem coupled_bitmapInit {sb : Superblock} (hl : sb.bitmapBlockCount ≠ 0 → Layout sb) :
    Coupled (PairedVol disk disk' A (fun now => now = sb))
      (PairedVol disk disk' (A ∪ sb.bitmapRegion) (fun now => now = sb ∧ Layout now))
      (PairedVol disk disk' ∅ (fun _ => True)) Eq
      bitmapInit bitmapInit := by
  unfold bitmapInit
  refine Coupled.get_bind fun v v' hv => ?_
  rw [hv.sb, hv.keeps]
  refine Coupled.failIf Iff.rfl (fun _ _ h => h.any) fun hzero => ?_
  have hlayout := hl fun h => hzero (.inr h)
  have hfit : sb.bitmapStartBlock.toNat + sb.bitmapBlockCount.toNat ≤ 2 ^ 32 :=
    le_trans hlayout.tableAfter (Nat.le_of_lt sb.inodeTableStart.toNat_lt)
  refine (coupled_fill hfit fun i _ => ?_).mono (fun _ _ h => h)
    (fun _ _ h => h.mono subset_rfl fun now hnow => ⟨hnow, hnow ▸ hlayout⟩) (fun _ _ h => h) fun _ _ h => h
  exact Coupled.failIf Iff.rfl (fun _ _ h => h.any) fun _ =>
    coupled_writeBlk.mono (fun _ _ h => h) (fun _ _ h => h) (fun _ _ h => h.any) fun _ _ h => h

theorem paired_formatRoot : Twin (PairedVol disk disk' A (MetadataIn A)) Eq formatRoot formatRoot := by
  unfold formatRoot
  refine paired_bitmapAlloc.bind fun b b' hb => ?_
  subst hb
  refine paired_zeroBlk.attempt.bind fun r r' hr => ?_
  have hroot : ∀ root : Inode, Twin (PairedVol disk disk' A (MetadataIn A)) Eq
      (withInode root (inodeWrite 0) >>= fun _ => pure ()) (withInode root (inodeWrite 0) >>= fun _ => pure ()) :=
    fun root => (paired_withInode root (paired_inodeWrite 0)).bind fun _ _ _ => Twin.pure rfl
  cases hr with
  | ok _ => exact (Twin.pure rfl).bind fun _ _ _ => hroot _
  | error e => exact ((paired_bitmapFree b).attempt.bind fun _ _ _ => Twin.throw (R := Eq) e).bind fun _ _ _ => hroot _

theorem coupled_formatBody {sb : Superblock} (hl : sb.bitmapBlockCount ≠ 0 → Layout sb) :
    Coupled (PairedVol disk disk' ∅ (fun now => now = sb))
      (PairedVol disk disk' (insert superblockBlock (sb.bitmapRegion ∪ sb.tableRegion)) (fun _ => True))
      (PairedVol disk disk' ∅ (fun _ => True)) Eq formatBody formatBody := by
  unfold formatBody
  refine (coupled_bitmapInit hl).bind fun _ _ _ => Coupled.get_bind fun v v' hv => ?_
  have hlayout : Layout sb := hv.keeps.1 ▸ hv.keeps.2
  rw [hv.sb, hv.keeps.1]
  have hfit : sb.inodeTableStart.toNat + sb.inodeTableBlocks.toNat ≤ 2 ^ 32 :=
    le_trans hlayout.dataAfter (Nat.le_of_lt sb.dataRegionStart.toNat_lt)
  refine (coupled_fill hfit fun i _ => coupled_writeBlk.mono (fun _ _ h => h) (fun _ _ h => h) (fun _ _ h => h.any)
    fun _ _ h => h).bind fun _ _ _ => ?_
  have hset : ∅ ∪ sb.bitmapRegion ∪ blocksIn sb.inodeTableStart.toNat
      (sb.inodeTableStart.toNat + sb.inodeTableBlocks.toNat) = sb.bitmapRegion ∪ sb.tableRegion := by
    rw [Set.empty_union]
    rfl
  rw [hset]
  have hcovered : MetadataIn (sb.bitmapRegion ∪ sb.tableRegion) sb :=
    ⟨hlayout, Set.subset_union_left, Set.subset_union_right⟩
  refine (paired_formatRoot.coupled.mono (fun _ _ h => h.mono subset_rfl fun now hnow => hnow.1 ▸ hcovered)
    (fun _ _ h => h) (fun _ _ h => h.any) fun _ _ h => h).bind fun _ _ _ => coupled_syncChanges

/-- スーパーブロックからデータ領域の前までのブロック。 -/
def metadataBlocks (totalBlocks : UInt32) : Set UInt32 := blocksIn 16 (17 + layoutBitmapBlocks totalBlocks + 256).toNat

theorem metadata_subset (totalBlocks : UInt32) (label : Option (List UInt8)) (nonce : Bytes 12) :
    metadataBlocks totalBlocks ⊆
      insert superblockBlock ((freshSuperblock totalBlocks label nonce).bitmapRegion ∪
        (freshSuperblock totalBlocks label nonce).tableRegion) := by
  have hsmall : (layoutBitmapBlocks totalBlocks).toNat ≤ 131072 := by
    have hlt := (totalBlocks - fixedOverhead + 32768).toNat_lt
    unfold layoutBitmapBlocks
    rw [UInt32.toNat_div]
    simp only [UInt32.reduceToNat]
    omega
  have hstart : (17 + layoutBitmapBlocks totalBlocks).toNat = 17 + (layoutBitmapBlocks totalBlocks).toNat :=
    toNat_add_lt (by simp; omega)
  have hdata : (17 + layoutBitmapBlocks totalBlocks + 256).toNat =
    17 + (layoutBitmapBlocks totalBlocks).toNat + 256 := by
    rw [toNat_add_lt (by rw [hstart]; simp; omega), hstart]
    rfl
  rintro b ⟨hm, hn⟩
  rw [hdata] at hn
  by_cases hb : b.toNat = 16
  · exact .inl (UInt32.toNat_inj.mp hb)
  · by_cases hbit : b.toNat < 17 + (layoutBitmapBlocks totalBlocks).toNat
    · exact .inr (.inl ⟨by change 17 ≤ _; omega, hbit⟩)
    · refine .inr (.inr ⟨?_, ?_⟩)
      · change (17 + layoutBitmapBlocks totalBlocks).toNat ≤ _
        omega
      · change _ < (17 + layoutBitmapBlocks totalBlocks).toNat + 256
        omega

theorem coupled_formatVolume (totalBlocks : UInt32) (label : Option (List UInt8)) :
    Coupled (Paired disk disk' ∅) (Paired disk disk' (metadataBlocks totalBlocks)) (Paired disk disk' ∅) Eq
      (formatVolume totalBlocks label) (formatVolume totalBlocks label) := by
  unfold formatVolume
  refine Coupled.get_bind fun d d' hd => ?_
  rw [hd.config]
  refine Coupled.failIf Iff.rfl (fun _ _ h => h) fun _ => Coupled.failIf Iff.rfl (fun _ _ h => h) fun _ =>
    Coupled.failIf Iff.rfl (fun _ _ h => h) fun hmin => Coupled.failIf Iff.rfl (fun _ _ h => h) fun hfit => ?_
  have hbody : ∀ nonce, Coupled (Paired disk disk' ∅) (Paired disk disk' (metadataBlocks totalBlocks))
      (Paired disk disk' ∅) Eq
      (withSuperblock (freshSuperblock totalBlocks label nonce) formatBody)
      (withSuperblock (freshSuperblock totalBlocks label nonce) formatBody) := by
    intro nonce d d' hd
    have hout := coupled_formatBody (layout_freshSuperblock label nonce hmin hfit)
      ⟨d, freshSuperblock totalBlocks label nonce⟩ ⟨d', freshSuperblock totalBlocks label nonce⟩ ⟨rfl, rfl, hd⟩
    unfold withSuperblock
    generalize formatBody ⟨d, freshSuperblock totalBlocks label nonce⟩ = r at hout ⊢
    generalize formatBody ⟨d', freshSuperblock totalBlocks label nonce⟩ = r' at hout ⊢
    cases hout with
    | ok h hv => exact .ok h (hv.dev.mono (metadata_subset totalBlocks label nonce))
    | error e hv => exact .error e hv.dev
  refine Coupled.attempt_bind (coupled_htlGetEntropy 12) (fun nonce nonce' h => ?_) fun _ => hbody _
  subst h
  exact hbody _

theorem coupled_fullScrub (totalBlocks : UInt32) (label : Option (List UInt8)) :
    Coupled (Paired disk disk' ∅) (Paired disk disk' (blocksIn 0 totalBlocks.toNat)) (Paired disk disk' ∅) Eq
      (fullScrub totalBlocks label) (fullScrub totalBlocks label) := by
  unfold fullScrub
  refine Coupled.get_bind fun d d' hd => ?_
  rw [hd.config]
  refine Coupled.failIf Iff.rfl (fun _ _ h => h) fun _ => ?_
  have hstart : blocksIn 0 0 ⊆ ∅ := fun b hb => absurd hb.2 (Nat.not_lt_zero _)
  refine ((coupled_wipe (Nat.le_of_lt totalBlocks.toNat_lt)).mono (fun _ _ h => h.mono hstart) (fun _ _ h => h)
    (fun _ _ h => h) fun _ _ h => h).bind fun _ _ _ => ?_
  exact (coupled_frame fun disk disk' => coupled_formatVolume totalBlocks label).mono (fun _ _ h => h)
    (fun _ _ h => h.mono Set.subset_union_left) (fun _ _ h => h.mono (Set.empty_subset _)) fun _ _ h => h

end

end OwStorage.Owfs
