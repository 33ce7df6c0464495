import OwStorage.Owfs.Superblock
import OwStorage.Common.Lemmas.Htl
import OwStorage.Lib.Words

/-!
# ブロックの読み書きと、スーパーブロックの往復
-/

namespace OwStorage.Owfs

open Lib Prog

/-! ## ブロックの読み書き -/

def Vol.atClock (v : Vol) (c : Nat) : Vol := { v with dev := v.dev.atClock c }

/-- ブロック `b` に `blk` を書いた後。 -/
def Vol.put (v : Vol) (b : UInt32) (blk : Block) (c : Nat) : Vol :=
  { v with dev := (v.dev.store b blk).atClock c }

/-- 失敗のない装置に替えたボリューム。 -/
def Vol.faultless (v : Vol) : Vol := { v with dev := { v.dev with fault := fun _ => none } }

section

variable {v : Vol} {b : UInt32} {blk : Block} {c : Nat}

@[simp] theorem sb_atClock : (v.atClock c).sb = v.sb := rfl
@[simp] theorem dev_atClock : (v.atClock c).dev = v.dev.atClock c := rfl
@[simp] theorem sb_put : (v.put b blk c).sb = v.sb := rfl
@[simp] theorem dev_put : (v.put b blk c).dev = (v.dev.store b blk).atClock c := rfl
@[simp] theorem sb_faultless : v.faultless.sb = v.sb := rfl
@[simp] theorem disk_faultless : v.faultless.dev.disk = v.dev.disk := rfl

theorem faultFree_faultless : v.faultless.dev.FaultFree := fun _ => rfl

theorem writes_faultless (h : v.dev.Writes b) : v.faultless.dev.Writes b := ⟨⟨h.valid, h.inRange⟩, h.unprotected⟩

variable {E : OwfsErr → Vol → Prop}

theorem wp_readBlk {Q : Block → Vol → Prop}
    (hok : ∀ c, v.dev.Reads b → Q (v.dev.disk b) (v.atClock c))
    (herr : ∀ c, ¬ (v.dev.FaultFree ∧ v.dev.Reads b) → E .io (v.atClock c)) : wp (readBlk b) Q E v := by
  unfold readBlk
  rw [wp_within]
  exact wp_htlReadBlock hok fun _ c h => herr c h

/-- 届くブロックの読み取りは、呼び出しの番号だけで成否が決まる。 -/
theorem wp_readBlk_clock {Q : Block → Vol → Prop} (hr : v.dev.Reads b)
    (hok : v.dev.fault v.dev.clock = none → Q (v.dev.disk b) (v.atClock (v.dev.clock + 1)))
    (herr : v.dev.fault v.dev.clock ≠ none → E .io (v.atClock (v.dev.clock + 1))) : wp (readBlk b) Q E v := by
  unfold readBlk
  rw [wp_within]
  exact wp_htlReadBlock_clock hr hok fun e he => herr fun hno => Option.some_ne_none e (he.symm.trans hno)

/-- 装置の書き込みが返す誤り。 -/
def DeviceErr (e : OwfsErr) : Prop := e = .io ∨ e = .writeProtected

theorem deviceErr_mapHtl (e : HtlErr) : DeviceErr (mapHtl e) := by
  cases e <;> first | exact .inl rfl | exact .inr rfl

theorem wp_writeBlk {Q : Unit → Vol → Prop}
    (hok : ∀ c, v.dev.Writes b → Q () (v.put b blk c))
    (herr : ∀ e c, DeviceErr e → ¬ (v.dev.FaultFree ∧ v.dev.Writes b) → E e (v.atClock c)) :
    wp (writeBlk b blk) Q E v := by
  unfold writeBlk
  rw [wp_within]
  exact wp_htlWriteBlock hok fun e c h => herr _ c (deviceErr_mapHtl e) h

theorem wp_zeroBlk {Q : Unit → Vol → Prop}
    (hok : ∀ c, v.dev.Writes b → Q () (v.put b (Bytes.zero 4096) c))
    (herr : ∀ e c, DeviceErr e → ¬ (v.dev.FaultFree ∧ v.dev.Writes b ∧ v.dev.blockSize ≤ 4096) →
      E e (v.atClock c)) :
    wp (zeroBlk b) Q E v := by
  unfold zeroBlk
  rw [wp_within]
  exact wp_htlZeroBlock hok fun e c h => herr _ c (deviceErr_mapHtl e) h

theorem wp_flushBlk {Q : Unit → Vol → Prop} (hok : ∀ c, Q () (v.atClock c))
    (herr : ∀ c, ¬ (v.dev.FaultFree ∧ ¬ v.dev.blockSize < 0x200) → E .io (v.atClock c)) :
    wp flushBlk Q E v := by
  unfold flushBlk
  rw [wp_within]
  exact wp_htlFlushCache hok fun _ c h => herr c h

@[simp] theorem wp_modifySb {f : Superblock → Superblock} {Q : Unit → Vol → Prop} :
    wp (modifySb f) Q E v ↔ Q () { v with sb := f v.sb } := Iff.rfl

end

/-! ## スーパーブロックの往復 -/

theorem size_codec : Superblock.codec.size = 4096 := rfl

theorem ofBlock_toBlock (sb : Superblock) : Superblock.ofBlock sb.toBlock = sb := by
  unfold Superblock.ofBlock Superblock.toBlock
  rw [Bytes.toList_ofList (by rw [Superblock.codec.length_enc, size_codec]), Superblock.codec.dec_enc]

/-- 検査値を付け直したスーパーブロック。 -/
def Superblock.sealed (sb : Superblock) : Superblock :=
  { sb with checksum := superblockComputeChecksum sb }

theorem superblockComputeChecksum_checksum (sb : Superblock) (x : UInt32) :
    superblockComputeChecksum { sb with checksum := x } = superblockComputeChecksum sb := by
  have hfront : (Superblock.front.enc (Superblock.fields sb).1).length = 0x84 :=
    Superblock.front.length_enc _
  have h := owCrc32cStruct_field (Superblock.front.enc (Superblock.fields sb).1)
    (Superblock.back.enc (Superblock.fields sb).2.2) (Codec.u32.enc x)
    (Codec.u32.enc sb.checksum) (Codec.u32.length_enc _) (Codec.u32.length_enc _)
  rw [hfront] at h
  exact h

/-- 形式の印とブロックの大きさが正しい。 -/
def Superblock.Branded (sb : Superblock) : Prop := sb.magic = owfsMagic ∧ sb.blockSize = 0x1000

theorem branded_of_validate {sb : Superblock} (h : superblockValidate sb = true) : sb.Branded := by
  simp only [superblockValidate, Bool.and_eq_true, beq_iff_eq] at h
  exact h.1

theorem validate_sealed {sb : Superblock} (h : sb.Branded) : superblockValidate sb.sealed = true := by
  simp only [superblockValidate, Bool.and_eq_true, beq_iff_eq]
  exact ⟨h, (superblockComputeChecksum_checksum sb _).symm⟩

/-- ディスク上のスーパーブロック。 -/
def diskSb (v : Vol) : Superblock := Superblock.ofBlock (v.dev.disk superblockBlock)

/-- メモリ上のスーパーブロックをディスクに書いた後。 -/
def Vol.saved (v : Vol) (c : Nat) : Vol :=
  Vol.put { v with sb := v.sb.sealed } superblockBlock v.sb.sealed.toBlock c

section

variable {v : Vol} {c : Nat} {E : OwfsErr → Vol → Prop} {Q : Unit → Vol → Prop}

@[simp] theorem sb_saved : (v.saved c).sb = v.sb.sealed := rfl

@[simp] theorem diskSb_saved : diskSb (v.saved c) = v.sb.sealed := by
  unfold diskSb Vol.saved
  simp [ofBlock_toBlock]

@[simp] theorem config_saved : (v.saved c).dev.toHtlConfig = v.dev.toHtlConfig := rfl

@[simp] theorem diskSb_atClock : diskSb (v.atClock c) = diskSb v := rfl

theorem wp_superblockWrite (hok : ∀ c, v.dev.Writes superblockBlock → Q () (v.saved c))
    (herr : ∀ e c, DeviceErr e → ¬ (v.dev.FaultFree ∧ v.dev.Writes superblockBlock) →
      E e (Vol.atClock { v with sb := v.sb.sealed } c)) : wp superblockWrite Q E v := by
  unfold superblockWrite
  simp only [wp_bind, wp_modifySb, wp_get]
  exact wp_writeBlk hok herr

theorem wp_superblockRead
    (hok : ∀ c, v.dev.Reads superblockBlock → superblockValidate (diskSb v) = true →
      Q () (Vol.atClock { v with sb := diskSb v } c))
    (hbad : ∀ c, superblockValidate (diskSb v) = false →
      E .corruptSuperblock (Vol.atClock { v with sb := diskSb v } c))
    (herr : ∀ c, ¬ (v.dev.FaultFree ∧ v.dev.Reads superblockBlock) → E .io (v.atClock c)) :
    wp superblockRead Q E v := by
  unfold superblockRead
  rw [wp_bind]
  refine wp_readBlk (fun c hr => ?_) herr
  simp only [wp_bind, wp_modifySb, wp_get, wp_failIf, Bool.not_eq_true']
  refine ⟨fun h => hbad c h, fun h => hok c hr ?_⟩
  exact (Bool.not_eq_false _).mp h

theorem superblockWrite_faultFree (hff : v.dev.FaultFree) (hw : v.dev.Writes superblockBlock) :
    superblockWrite v = (.ok (), v.saved (v.dev.clock + 1)) :=
  run_within (l := Vol.devLens) (h := mapHtl) (t := { v with sb := v.sb.sealed })
    (htlWriteBlock_faultFree hff hw)

theorem superblockRead_faultFree (hff : v.dev.FaultFree) (hr : v.dev.Reads superblockBlock)
    (hvalid : superblockValidate (diskSb v) = true) :
    superblockRead v = (.ok (), Vol.atClock { v with sb := diskSb v } (v.dev.clock + 1)) := by
  have hread : readBlk superblockBlock v = (.ok (v.dev.disk superblockBlock), v.atClock (v.dev.clock + 1)) :=
    run_within (l := Vol.devLens) (htlReadBlock_faultFree hff hr)
  have hno : ¬ (! superblockValidate (diskSb v)) = true := by rw [hvalid]; exact Bool.false_ne_true
  unfold superblockRead
  exact run_bind hread (run_bind rfl (run_bind rfl (run_failIf hno)))

end

end OwStorage.Owfs
