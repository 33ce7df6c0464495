import OwStorage.Owfs.Lemmas.Catalog
import OwStorage.Owfs.Theorems.LayoutRange
import OwStorage.Usfs.Lemmas.Extent

/-!
# 断られた完全消去

完全消去は、全ブロックを 0 で埋めてからフォーマットを呼ぶ。フォーマットの引数の検査は、その後になる。OWFS の検査の一部は、
消す前の検査に含まれていない。
-/

namespace OwStorage

open Lib Prog

/-! ## 全ブロックを 0 で埋める -/

/-- 前から `n` ブロックを順に 0 で埋める呼び出しが、どれも成功する装置。 -/
def Wipes (d : HtlDevice) (n : Nat) : Prop :=
  ∀ b < n, d.Writes (UInt32.ofNat b) ∧ d.blockSize ≤ 4096 ∧ d.fault (d.clock + b) = none

/-- 前から `n` ブロックを 0 で埋めたディスク。 -/
def wipedDisk (disk : Disk) (n : Nat) : Disk := fun b => if b.toNat < n then Bytes.zero 4096 else disk b

theorem wipedDisk_eq_iff {disk : Disk} {n : Nat} :
    wipedDisk disk n = disk ↔ ∀ b : UInt32, b.toNat < n → disk b = Bytes.zero 4096 := by
  constructor
  · intro h b hb
    rw [← h]
    exact if_pos hb
  · intro h
    funext b
    by_cases hb : b.toNat < n
    · exact (if_pos hb).trans (h b hb).symm
    · exact if_neg hb

section

variable {ε : Type} {d d' : HtlDevice} {n : Nat} {mapErr : HtlErr → ε}

theorem wp_htlZeroBlock_once {b : UInt32} : wp (htlZeroBlock b)
    (fun _ d' => (d.Writes b ∧ d.blockSize ≤ 4096 ∧ d.fault d.clock = none) ∧
      d' = (d.store b (Bytes.zero 4096)).atClock (d.clock + 1))
    (fun _ _ => ¬ (d.Writes b ∧ d.blockSize ≤ 4096 ∧ d.fault d.clock = none)) d := by
  unfold htlZeroBlock
  simp only [wp_bind, wp_get, wp_failIf, wp_ite, htlDeviceValid_eq_false]
  refine ⟨fun hv h => h.1.valid hv, fun _ => ⟨fun hsize => ?_, fun hsize h => hsize h.2.1⟩⟩
  by_cases hr : d.Reads b
  · refine wp_htlWriteBlock_clock hr (fun hp h => hp h.1.unprotected) (fun hp hok => ⟨⟨⟨hr, hp⟩, hsize, hok⟩, rfl⟩)
      fun _ e he h => ?_
    rw [h.2.2] at he
    cases he
  · exact wp_htlWriteBlock (fun _ hw => absurd hw.toReads hr) fun _ _ _ h => hr h.1.toReads

/-- 0 で埋める繰り返し。 -/
theorem wipe_spec (hn : n < 2 ^ 32) : wp (forUpto n fun b => do
      match ← Prog.attempt (htlZeroBlock (UInt32.ofNat b)) with
      | .ok _ => pure ()
      | .error e => Prog.throw (mapErr e))
    (fun _ d' => Wipes d n ∧ d'.toHtlConfig = d.toHtlConfig ∧ d'.disk = wipedDisk d.disk n)
    (fun e _ => ¬ Wipes d n ∧ ∃ e', e = mapErr e') d := by
  refine wp_forUpto (fun k d' => Wipes d k ∧ d'.toHtlConfig = d.toHtlConfig ∧ d'.clock = d.clock + k ∧
    d'.disk = wipedDisk d.disk k) ?_ ?_ (fun _ h => ⟨h.1, h.2.1, h.2.2.2⟩)
  · refine ⟨fun b hb => absurd hb (Nat.not_lt_zero b), rfl, rfl, ?_⟩
    funext b
    exact (if_neg (Nat.not_lt_zero _)).symm
  · rintro k d₁ hk ⟨hw, hconf, hclock, hdisk⟩
    have hat : (UInt32.ofNat k).toNat = k := toNat_ofNat_lt (by omega)
    have hsame : (d₁.Writes (UInt32.ofNat k) ∧ d₁.blockSize ≤ 4096 ∧ d₁.fault d₁.clock = none) ↔
        (d.Writes (UInt32.ofNat k) ∧ d.blockSize ≤ 4096 ∧ d.fault (d.clock + k) = none) := by
      rw [hconf, hclock]
    rw [wp_bind, wp_attempt]
    refine wp_htlZeroBlock_once.mono ?_ ?_
    · rintro _ _ ⟨hok, rfl⟩
      refine ⟨fun b hb => ?_, hconf, ?_, ?_⟩
      · rcases Nat.lt_succ_iff_lt_or_eq.mp hb with hlt | rfl
        · exact hw b hlt
        · exact hsame.mp hok
      · change d₁.clock + 1 = _
        omega
      · funext x
        change Function.update d₁.disk (UInt32.ofNat k) (Bytes.zero 4096) x = wipedDisk d.disk (k + 1) x
        rw [hdisk]
        unfold wipedDisk
        by_cases hx : x = UInt32.ofNat k
        · rw [hx, Function.update_self, if_pos (by omega)]
        · have hne : x.toNat ≠ k := fun he => hx (UInt32.toNat_inj.mp (he.trans hat.symm))
          rw [Function.update_of_ne hx]
          by_cases hlt : x.toNat < k
          · rw [if_pos hlt, if_pos (by omega)]
          · rw [if_neg hlt, if_neg (by omega)]
    · rintro e _ hno
      exact ⟨fun hall => hno (hsame.mpr (hall k hk)), e, rfl⟩

end

/-! ## OWFS のフォーマットの検査 -/

namespace Owfs

section

variable {totalBlocks : UInt32} {label : Option (List UInt8)} {d d' : HtlDevice}

/-- 検査を通らない大きさは、装置に触れずに断られる。 -/
theorem formatVolume_refuses (hsize : d.blockSize = 0x1000)
    (hno : ¬ (d.totalBlocks > 0 ∧ totalBlocks > d.totalBlocks) → ¬ totalBlocks < 275 →
      layoutBitmapBlocks totalBlocks = 0) :
    wp (formatVolume totalBlocks label) (fun _ _ => False) (fun e d' => e = .invalidParam ∧ d' = d) d := by
  unfold formatVolume
  simp only [wp_bind, wp_get, wp_failIf, wp_attempt, wp_withSuperblock]
  refine ⟨fun h => absurd hsize h, fun _ =>
    ⟨fun _ => ⟨trivial, trivial⟩, fun hcap => ⟨fun _ => ⟨trivial, trivial⟩, fun hmin =>
    ⟨fun _ => ⟨trivial, trivial⟩, fun _ => ?_⟩⟩⟩⟩
  have hbody : ∀ nonce, wp formatBody (fun _ _ => False) (fun e v => e = .invalidParam ∧ v.dev = d)
      ⟨d, freshSuperblock totalBlocks label nonce⟩ := by
    intro nonce
    unfold formatBody
    rw [wp_bind]
    unfold bitmapInit
    simp only [wp_bind, wp_get, wp_failIf]
    exact ⟨fun _ => ⟨trivial, trivial⟩, fun h => absurd (Or.inr (hno hcap hmin)) h⟩
  exact wp_htlGetEntropy (fun nonce => hbody nonce) (fun _ => hbody _)

theorem never_inodeWrite (n : UInt32) : Never .invalidParam (inodeWrite n) := by
  unfold inodeWrite
  refine .bind .get fun s => .bind (.failIf (by decide)) fun _ =>
    .bind (never_volumeWritable foreign_invalidParam _) fun _ => ?_
  refine .bind (never_onVol (never_readBlk foreign_invalidParam _)) fun _ => .bind (.modify _) fun _ =>
    .bind .get fun _ => ?_
  exact never_onVol (never_writeBlk foreign_invalidParam _ _)

theorem never_formatRoot : Never .invalidParam formatRoot := by
  unfold formatRoot
  refine .bind (never_bitmapAlloc foreign_invalidParam) fun b => ?_
  refine .attempt_bind (never_zeroBlk foreign_invalidParam b) (fun _ => .bind (.pure _) fun _ => ?_) fun e he => ?_
  · refine .bind (fun v => ?_) fun _ => .pure _
    rw [wp_withInode]
    exact never_inodeWrite 0 _
  · exact .bind (.bind (.attempt _) fun _ => .throw he) fun _ => .bind (fun v => by
      rw [wp_withInode]
      exact never_inodeWrite 0 _) fun _ => .pure _

theorem never_syncChanges : Never .invalidParam syncChanges := by
  have hsum : Never .invalidParam bitmapComputeFletcher64 := by
    unfold bitmapComputeFletcher64
    refine .bind .get fun v => .bind (.loop fun b s => .bind (.attempt _) fun r => ?_) fun r => ?_
    · cases r <;> exact .pure _
    · cases r <;> exact .pure _
  unfold syncChanges
  refine .bind hsum fun _ => .bind (.modify _) fun _ => .bind (.modify _) fun _ => .bind ?_ fun _ => ?_
  · exact fun v => wp_superblockWrite (fun _ _ => trivial) fun _ _ he _ => he.ne_of_foreign foreign_invalidParam
  · exact fun v => wp_flushBlk (fun _ => trivial) fun _ _ => foreign_invalidParam.1

/-- 領域の重ならない配置では、ビットマップの初期化は引数を断らない。 -/
theorem bitmapInit_accepts {v : Vol} (hl : Layout v.sb) (hz : v.sb.bitmapBlockCount ≠ 0) :
    wp bitmapInit (fun _ _ => True) (fun e _ => e ≠ .invalidParam) v := by
  unfold bitmapInit
  simp only [wp_bind, wp_get, wp_failIf]
  have hafter := hl.bitmapAfter
  have := hl.tableAfter
  have := hl.dataAfter
  have := hl.dataNonempty
  have := v.sb.totalBlocks.toNat_lt
  refine ⟨fun h => ?_, fun _ => wp_forUpto (fun _ _ => True) trivial (fun i v₁ hi _ => ?_) fun _ _ => trivial⟩
  · rcases h with h | h
    · rw [h] at hafter
      exact absurd hafter (by decide)
    · exact absurd h hz
  · simp only [wp_bind, wp_failIf]
    refine ⟨fun hge => ?_, fun _ => never_writeBlk foreign_invalidParam _ _ v₁⟩
    have hi : i < v.sb.bitmapBlockCount.toNat := hi
    rw [ge_iff_le, UInt32.le_iff_toNat_le, toNat_add_lt (by rw [toNat_ofNat_lt (by omega)]; omega),
      toNat_ofNat_lt (by omega)] at hge
    omega

/-- 受け入れられる大きさの、書き込める装置では、フォーマットは引数を断らない。 -/
theorem formatVolume_accepts (h : Formattable totalBlocks d) :
    wp (formatVolume totalBlocks label) (fun _ _ => True) (fun e _ => e ≠ .invalidParam) d := by
  unfold formatVolume
  simp only [wp_bind, wp_get, wp_failIf, wp_attempt, wp_withSuperblock]
  refine ⟨fun hsize => absurd h.blockSize hsize, fun _ => ⟨fun hcap => absurd hcap h.capacity, fun _ =>
    ⟨fun hmin => absurd hmin h.large, fun _ => ⟨fun hroom => absurd hroom h.room, fun _ => ?_⟩⟩⟩⟩
  have hbody : ∀ nonce, wp formatBody (fun _ _ => True) (fun e _ => e ≠ .invalidParam)
      ⟨d, freshSuperblock totalBlocks label nonce⟩ := by
    intro nonce
    unfold formatBody
    rw [wp_bind]
    refine (bitmapInit_accepts (layout_freshSuperblock label nonce h.large h.room h.bitmap) h.bitmap).mono ?_
      fun _ _ he => he
    intro _ v _
    refine Never.bind .get (fun v => .bind (.forUpto fun i => never_writeBlk foreign_invalidParam _ _) fun _ => ?_) v
    exact .bind never_formatRoot fun _ => never_syncChanges
  exact wp_htlGetEntropy (fun nonce => hbody nonce) (fun _ => hbody _)

/-- フォーマットの受け入れる大きさ。 -/
def Suits (totalBlocks : UInt32) : Prop := 275 ≤ totalBlocks.toNat ∧ totalBlocks.toNat < 2 ^ 32 - 32495

theorem not_lt_minimum (h : Suits totalBlocks) : ¬ totalBlocks < 275 := by
  rw [UInt32.not_lt, UInt32.le_iff_toNat_le]
  exact h.1

theorem layoutBitmapBlocks_eq_zero_iff (hmin : ¬ totalBlocks < 275) :
    layoutBitmapBlocks totalBlocks = 0 ↔ ¬ Suits totalBlocks := by
  have hlow : (275 : UInt32).toNat ≤ totalBlocks.toNat := UInt32.le_iff_toNat_le.mp (UInt32.not_lt.mp hmin)
  rw [show (275 : UInt32).toNat = 275 from rfl] at hlow
  constructor
  · -- 上限より小さければ、切り上げの商は 1 以上である。
    rintro hz ⟨_, hlt⟩
    have hsub : (totalBlocks - fixedOverhead).toNat = totalBlocks.toNat - 273 :=
      toNat_sub_le (show (273 : UInt32).toNat ≤ _ by simp; omega)
    have hadd : (totalBlocks - fixedOverhead + 32768).toNat = totalBlocks.toNat - 273 + 32768 := by
      rw [toNat_add_lt (by rw [hsub]; simp; omega), hsub]
      rfl
    have hdiv : (layoutBitmapBlocks totalBlocks).toNat = (totalBlocks.toNat - 273 + 32768) / 32769 := by
      unfold layoutBitmapBlocks
      rw [UInt32.toNat_div, hadd]
      rfl
    rw [hz, UInt32.toNat_zero] at hdiv
    omega
  · intro hno
    by_contra hz
    have hover := (toNat_layoutBitmapBlocks hmin hz).2
    exact hno ⟨hlow, by omega⟩

theorem formattable_of_suits (h : Suits totalBlocks) (hsize : d.blockSize = 0x1000)
    (hw : ∀ b < totalBlocks.toNat, d.Writes (UInt32.ofNat b)) : Formattable totalBlocks d := by
  have hmin := not_lt_minimum h
  have hz : layoutBitmapBlocks totalBlocks ≠ 0 := fun hz => (layoutBitmapBlocks_eq_zero_iff hmin).mp hz h
  obtain ⟨hlow, hhigh⟩ := h
  have hlast := hw (totalBlocks.toNat - 1) (by omega)
  refine ⟨hsize, fun hcap => hlast.inRange ⟨hcap.1, ?_⟩, hmin, ?_, hz, hlast.unprotected⟩
  · have := UInt32.lt_iff_toNat_lt.mp hcap.2
    rw [ge_iff_le, UInt32.le_iff_toNat_le, toNat_ofNat_lt (by omega)]
    omega
  · obtain ⟨hbm, _⟩ := toNat_layoutBitmapBlocks hmin hz
    have hstart : (17 + layoutBitmapBlocks totalBlocks).toNat = 17 + (layoutBitmapBlocks totalBlocks).toNat :=
      toNat_add_lt (by simp; omega)
    rw [UInt32.not_le, UInt32.lt_iff_toNat_lt, toNat_add_lt (by rw [hstart]; simp; omega), hstart]
    change 17 + _ + 256 < _
    omega

/-- 完全消去が引数を断るのは、触れる前の検査か、全て消した後のフォーマットの検査に限る。 -/
theorem fullScrub_rejection (totalBlocks : UInt32) (label : Option (List UInt8)) (d : HtlDevice) :
    wp (fullScrub totalBlocks label) (fun _ _ => d.blockSize = 0x1000 → Wipes d totalBlocks.toNat → Suits totalBlocks)
      (fun e d' => (e = .invalidParam → d.blockSize = 0x1000 → Wipes d totalBlocks.toNat ∧ ¬ Suits totalBlocks ∧
          d'.disk = wipedDisk d.disk totalBlocks.toNat) ∧
        (e = .invalidParam → d.blockSize ≠ 0x1000 → d'.disk = d.disk) ∧
        (d.blockSize = 0x1000 → Wipes d totalBlocks.toNat → ¬ Suits totalBlocks →
          e = .invalidParam ∧ d'.disk = wipedDisk d.disk totalBlocks.toNat)) d := by
  unfold fullScrub
  rw [wp_bind, wp_get, wp_bind, wp_failIf]
  refine ⟨fun hsize => ⟨fun _ h => absurd h hsize, fun _ _ => rfl, fun h => absurd h hsize⟩, fun hsize => ?_⟩
  have hsize := not_not.mp hsize
  rw [wp_bind]
  refine (wipe_spec totalBlocks.toNat_lt).mono ?_ ?_
  · rintro _ d₁ ⟨hw, hconf, hdisk⟩
    have hsize₁ : d₁.blockSize = 0x1000 := by
      rw [hconf]
      exact hsize
    have hw₁ : ∀ b < totalBlocks.toNat, d₁.Writes (UInt32.ofNat b) := by
      intro b hb
      rw [hconf]
      exact (hw b hb).1
    by_cases hs : Suits totalBlocks
    · refine (formatVolume_accepts (formattable_of_suits hs hsize₁ hw₁)).mono (fun _ _ _ _ _ => hs) ?_
      exact fun e _ he => ⟨fun h => absurd h he, fun h => absurd h he, fun _ _ hno => absurd hs hno⟩
    · refine (formatVolume_refuses hsize₁ fun _ hmin => (layoutBitmapBlocks_eq_zero_iff hmin).mpr hs).mono
        (fun _ _ h => h.elim) ?_
      rintro e _ ⟨he, rfl⟩
      exact ⟨fun _ _ => ⟨hw, hs, hdisk⟩, fun _ hne => absurd hsize hne, fun _ _ _ => ⟨he, hdisk⟩⟩
  · rintro e d₁ ⟨hno, e', rfl⟩
    have hne : mapHtl e' ≠ .invalidParam := (deviceErr_mapHtl e').ne_of_foreign foreign_invalidParam
    exact ⟨fun h => absurd h hne, fun h => absurd h hne, fun _ hw => absurd hw hno⟩

/-- 完全消去が断られてもブロックが変わらないのは、断られる大きさで消えるブロックが初めから 0 のときである。 -/
theorem scrub_keeps_iff (totalBlocks : UInt32) (label : Option (List UInt8)) (d : HtlDevice) :
    (∀ d', fullScrub totalBlocks label d = (.error .invalidParam, d') → d'.disk = d.disk) ↔
      (d.blockSize = 0x1000 → Wipes d totalBlocks.toNat → ¬ Suits totalBlocks →
        ∀ b : UInt32, b.toNat < totalBlocks.toNat → d.disk b = Bytes.zero 4096) := by
  have hspec := fullScrub_rejection totalBlocks label d
  constructor
  · intro hkeep hsize hw hno
    obtain ⟨e, d', hrun, h⟩ := hspec.exists_error_of fun _ _ hok => hno (hok hsize hw)
    obtain ⟨rfl, hdisk⟩ := h.2.2 hsize hw hno
    exact wipedDisk_eq_iff.mp (hdisk.symm.trans (hkeep d' hrun))
  · intro hzero d' hrun
    have h := hspec.error hrun
    by_cases hsize : d.blockSize = 0x1000
    · obtain ⟨hw, hno, hdisk⟩ := h.1 rfl hsize
      exact hdisk.trans (wipedDisk_eq_iff.mpr (hzero hsize hw hno))
    · exact h.2.1 rfl hsize

end

end Owfs

/-! ## USFS のフォーマットの検査 -/

namespace Usfs

theorem DeviceErr.ne_invalidParam {e : UsfsErr} (h : DeviceErr e) : e ≠ .invalidParam := by
  rcases h with rfl | rfl <;> decide

theorem never_onVol {α : Type} {p : UsfsM α} {bad : UsfsErr} (h : Never bad p) : Never bad (onVol p) := by
  intro s
  rw [wp_onVol]
  exact h s.vol

theorem never_readBlk (b : UInt32) : Never .invalidParam (readBlk b) := fun _ =>
  wp_readBlk (fun _ _ => trivial) (fun _ _ => by decide)

theorem never_writeBlk (b : UInt32) (blk : Block) : Never .invalidParam (writeBlk b blk) := fun _ =>
  wp_writeBlk (fun _ _ => trivial) (fun _ _ he _ => he.ne_invalidParam)

theorem never_volumeWritable {σ : Type} (sb : Superblock) :
    Never .invalidParam (Prog.ofExcept (volumeWritable sb) : Prog σ UsfsErr Unit) := by
  intro v
  rw [wp_ofExcept]
  refine ⟨fun _ _ => trivial, fun e he => ?_⟩
  unfold volumeWritable at he
  split_ifs at he <;> cases he <;> decide

theorem never_fetchFor (rel : UInt32) (cached : Cached) : Never .invalidParam (fetchFor rel cached) := by
  unfold fetchFor
  refine .bind .get fun v => ?_
  split
  · exact .ite (.pure _) (.bind (never_readBlk _) fun _ => .pure _)
  · exact .bind (never_readBlk _) fun _ => .pure _

theorem never_findRun (count : UInt32) : Never .invalidParam (findRun count) := by
  unfold findRun
  refine .bind .get fun v => .bind (.loop fun i acc => .bind (never_fetchFor _ _) fun r => ?_) fun r => ?_
  · exact .ite (.ite (.pure _) (.pure _)) (.pure _)
  · cases r with
    | inl _ => exact .throw (by decide)
    | inr _ => exact .pure _

theorem never_markRun (relStart count : UInt32) (used : Bool) : Never .invalidParam (markRun relStart count used) := by
  unfold markRun
  exact .bind .get fun v => .forUpto fun i => .bind (never_readBlk _) fun _ => never_writeBlk _ _

theorem never_blockAlloc (count : UInt32) : Never .invalidParam (blockAlloc count) := by
  unfold blockAlloc
  refine .bind .get fun v => .bind (.failIf (by decide)) fun _ => .bind (.failIf (by decide)) fun _ => ?_
  refine .bind (never_volumeWritable _) fun _ => .bind (never_findRun count) fun _ => ?_
  exact .bind (never_markRun _ _ _) fun _ => .bind (.modify _) fun _ => .pure _

theorem never_entryRead (idx : UInt32) : Never .invalidParam (entryRead idx) := by
  unfold entryRead
  refine .bind .get fun v => .bind (.failIf (by decide)) fun _ => .bind (never_readBlk _) fun _ => ?_
  exact .bind (.failIf (by decide)) fun _ => .pure _

theorem never_entryWrite (idx : UInt32) (e : Entry) : Never .invalidParam (withEntry e (entryWrite idx)) := by
  have h : Never .invalidParam (entryWrite idx) := by
    unfold entryWrite
    refine .bind .get fun s => .bind (.failIf (by decide)) fun _ => .bind (never_volumeWritable _) fun _ => ?_
    refine .bind (never_onVol (never_readBlk _)) fun _ => .bind (.modify _) fun _ => .bind .get fun _ => ?_
    exact never_onVol (never_writeBlk _ _)
  intro v
  rw [wp_withEntry]
  exact h _

theorem never_findSlot : Never .invalidParam findSlot := by
  unfold findSlot
  refine .bind .get fun v =>
    .bind (.loop fun i _ => .attempt_bind (never_entryRead _) (fun e => ?_) fun e he => ?_) fun r => ?_
  · exact .ite (.pure _) (.pure _)
  · cases e <;> first | exact .pure _ | exact .throw he
  · cases r with
    | inl _ => exact .throw (by decide)
    | inr _ => exact .pure _

theorem never_allocCatalogBlock : Never .invalidParam allocCatalogBlock := by
  unfold allocCatalogBlock
  refine .bind (never_blockAlloc 1) fun first => .attempt_bind (never_writeBlk _ _) (fun _ => .pure _) fun e he => ?_
  exact .bind (.attempt _) fun _ => .throw he

theorem never_storeFresh (chosen : UInt32) (temp : Entry) : Never .invalidParam (storeFresh chosen temp) := by
  unfold storeFresh
  refine .attempt_bind (never_entryWrite chosen temp) (fun _ => .bind (.modify _) fun _ => .pure _) fun e he => ?_
  exact .ite (.bind (.attempt _) fun _ => .throw he) (.throw he)

theorem never_entryCheckAccess (who : OwIdentity) (e : Entry) (want : UInt8) :
    Never .invalidParam (Prog.ofExcept (entryCheckAccess who e want) : UsfsM Unit) := by
  intro v
  rw [wp_ofExcept]
  refine ⟨fun _ _ => trivial, fun err he => ?_⟩
  unfold entryCheckAccess at he
  split_ifs at he <;> cases he <;> decide

theorem never_bitmapComputeFletcher64 : Never .invalidParam bitmapComputeFletcher64 := by
  unfold bitmapComputeFletcher64
  refine .bind .get fun v => .bind (.loop fun b s => .bind (.attempt _) fun r => ?_) fun r => ?_
  · cases r <;> exact .pure _
  · cases r <;> exact .pure _

theorem never_signatureCompute : Never .invalidParam signatureCompute := by
  unfold signatureCompute
  refine .bind .get fun v => .bind (.loop fun i crc => .bind (.attempt _) fun r => ?_) fun r => ?_
  · cases r <;> exact .pure _
  · cases r <;> exact .pure _

theorem never_flushDirty : Never .invalidParam flushDirty := by
  unfold flushDirty
  refine .bind never_bitmapComputeFletcher64 fun _ => .bind (.modify _) fun _ => .bind (.modify _) fun _ =>
    .bind ?_ fun _ => ?_
  · exact fun v => wp_superblockWrite (fun _ _ => trivial) fun _ _ he _ => he.ne_invalidParam
  · exact fun v => wp_flushBlk (fun _ => trivial) fun _ _ => by decide

/-- 根の項目を作る呼び出しは、引数を断らない。 -/
theorem never_rootAlloc (who : OwIdentity) : Never .invalidParam (entryAlloc who entryCatalog (some [0x2F]) 1 0) := by
  have hname : owSutf8Validate (nameBytes (some [0x2F]) 1) = true := by decide
  unfold entryAlloc
  rw [hname]
  refine .bind (fun _ => ?_) fun _ => .bind (fun _ => ?_) fun _ => .bind (.failIf (by decide)) fun _ =>
    .bind (fun _ => ?_) fun _ => .bind .get fun v => .bind (.failIf (by decide)) fun _ => ?_
  · rw [wp_failIf]
    exact ⟨fun h => absurd h (by decide), fun _ => trivial⟩
  · rw [wp_failIf]
    exact ⟨fun h => absurd rfl h.2, fun _ => trivial⟩
  · rw [wp_failIf]
    exact ⟨fun h => absurd h (by decide), fun _ => trivial⟩
  refine .bind (never_volumeWritable _) fun _ => .bind ?_ fun _ => .bind (fun _ => ?_) fun mode => ?_
  · refine .ite (.bind (never_entryRead _) fun _ => .bind (.failIf (by decide)) fun _ => ?_) (.pure _)
    exact never_entryCheckAccess _ _ _
  · rw [wp_ofExcept]
    refine ⟨fun _ _ => trivial, fun e he => ?_⟩
    cases he
  · refine .bind never_findSlot fun chosen => .ite (.bind never_allocCatalogBlock fun first => ?_) ?_
    · exact never_storeFresh _ _
    · exact never_storeFresh _ _

theorem exists_layoutBitmapBlocks {totalBlocks : UInt32} (hlow : ¬ totalBlocks < 19) :
    ∃ b, layoutBitmapBlocks totalBlocks = some b ∧ 1 ≤ b.toNat ∧ 17 + b.toNat < totalBlocks.toNat := by
  have hlow : 19 ≤ totalBlocks.toNat := UInt32.le_iff_toNat_le.mp (UInt32.not_lt.mp hlow)
  by_cases hfit : totalBlocks.toNat < 2 ^ 32 - 32749
  · obtain ⟨b, hb, hpos, hroom, _⟩ := layoutBitmapBlocks_of_fit hlow hfit
    exact ⟨b, hb, hpos, hroom⟩
  · refine ⟨1, layoutBitmapBlocks_of_overflow (Nat.not_lt.mp hfit), by decide, ?_⟩
    change 17 + 1 < _
    omega

section

variable {who : OwIdentity} {totalBlocks b : UInt32} {label : Option (List UInt8)} {d : HtlDevice}

theorem bitmapInit_accepts {v : Vol} (hpos : 1 ≤ v.sb.bitmapBlockCount.toNat) (hstart : v.sb.bitmapStartBlock ≠ 0)
    (hend : v.sb.bitmapStartBlock.toNat + v.sb.bitmapBlockCount.toNat ≤ v.sb.dataRegionStart.toNat) :
    wp bitmapInit (fun _ _ => True) (fun e _ => e ≠ .invalidParam) v := by
  unfold bitmapInit
  simp only [wp_bind, wp_get, wp_failIf]
  have := v.sb.dataRegionStart.toNat_lt
  refine ⟨fun h => ?_, fun _ => wp_forUpto (fun _ _ => True) trivial (fun i v₁ hi _ => ?_) fun _ _ => trivial⟩
  · rcases h with h | h
    · exact absurd h hstart
    · rw [h] at hpos
      exact absurd hpos (by decide)
  · simp only [wp_bind, wp_failIf]
    refine ⟨fun hge => ?_, fun _ => never_writeBlk _ _ v₁⟩
    rw [ge_iff_le, UInt32.le_iff_toNat_le, toNat_add_lt (by rw [toNat_ofNat_lt (by omega)]; omega),
      toNat_ofNat_lt (by omega)] at hge
    omega

/-- 大きさの検査を通ったフォーマットは、もう引数を断らない。 -/
theorem formatVolume_accepts (hlow : ¬ totalBlocks < 19) :
    wp (formatVolume who totalBlocks label) (fun _ _ => True) (fun e _ => e ≠ .invalidParam) d := by
  obtain ⟨b, hb, hpos, hroom⟩ := exists_layoutBitmapBlocks hlow
  have hbody : ∀ nonce, wp (fun d => ((formatBody who ⟨d, freshSuperblock totalBlocks b label nonce⟩).1,
      (formatBody who ⟨d, freshSuperblock totalBlocks b label nonce⟩).2.dev))
      (fun _ _ => True) (fun e _ => e ≠ .invalidParam) d := by
    intro nonce
    rw [wp_atDevice]
    unfold formatBody
    rw [wp_bind, wp_get, wp_bind]
    -- 表を 0 で埋める間、配置は変わらない。
    refine wp_forUpto (fun _ v => v.sb = freshSuperblock totalBlocks b label nonce) rfl
      (fun i v _ hv => ?_) fun v hv => ?_
    · rw [wp_bind, wp_attempt]
      exact wp_writeBlk (fun _ _ => hv) fun _ _ _ _ => (by decide : UsfsErr.io ≠ .invalidParam)
    · rw [wp_bind]
      have hdata : v.sb.dataRegionStart.toNat = 17 + b.toNat := by
        rw [hv]
        exact (toNat_add_lt (by change 17 + _ < _; have := totalBlocks.toNat_lt; omega))
      refine (bitmapInit_accepts (by rw [hv]; exact hpos) (by rw [hv]; exact (by decide : (17 : UInt32) ≠ 0)) ?_).mono
        ?_ fun _ _ he => he
      · rw [hdata, hv]
        exact le_refl _
      · intro _ v _
        refine Never.bind (never_rootAlloc who) (fun _ => .bind (.modify _) fun _ => .bind ?_ fun sum =>
          .bind (.modify _)
          fun _ => .bind ?_ fun sig => .bind (.modify _) fun _ => ?_) v
        · exact never_bitmapComputeFletcher64
        · exact never_signatureCompute
        · exact never_flushDirty
  unfold formatVolume
  simp only [wp_bind, wp_failIf, hb]
  refine ⟨fun hsmall => absurd hsmall hlow, fun _ => wp_bind.mpr (wp_attempt.mpr ?_)⟩
  exact wp_htlGetEntropy (fun nonce => hbody nonce) (fun _ => hbody _)

/-- USFS の完全消去が引数を断るのは、消す前の検査だけである。 -/
theorem fullScrub_rejection : wp (fullScrub who totalBlocks label) (fun _ _ => True)
    (fun e d' => e = .invalidParam → d'.disk = d.disk) d := by
  unfold fullScrub
  rw [wp_bind, wp_failIf]
  refine ⟨fun _ _ => rfl, fun hlow => ?_⟩
  rw [wp_bind]
  refine (wipe_spec totalBlocks.toNat_lt).mono (fun _ d₁ _ => ?_) ?_
  · exact (formatVolume_accepts hlow).mono (fun _ _ h => h) fun _ _ he h => absurd h he
  · rintro e _ ⟨_, e', rfl⟩ h
    exact absurd h (deviceErr_mapHtl e').ne_invalidParam

end

end Usfs

/-! ## 断られた完全消去 -/

/-- `invalidParam` で断られた完全消去は、どのブロックも変えない。 -/
def RejectionKeeps (who : OwIdentity) (totalBlocks : UInt32) (label : Option (List UInt8)) (d : HtlDevice) : Prop :=
  (∀ d', Owfs.fullScrub totalBlocks label d = (.error .invalidParam, d') → d'.disk = d.disk) ∧
    ∀ d', Usfs.fullScrub who totalBlocks label d = (.error .invalidParam, d') → d'.disk = d.disk

/-- 断られた完全消去が何も消さないのは、消した後にしか断られない OWFS の大きさで、消えるブロックが初めから 0 のときである。 -/
theorem rejected_scrub_keeps_iff (who : OwIdentity) (totalBlocks : UInt32) (label : Option (List UInt8))
    (d : HtlDevice) :
    RejectionKeeps who totalBlocks label d ↔
      (d.blockSize = 0x1000 → Wipes d totalBlocks.toNat → ¬ Owfs.Suits totalBlocks →
        ∀ b : UInt32, b.toNat < totalBlocks.toNat → d.disk b = Bytes.zero 4096) :=
  ⟨fun h => (Owfs.scrub_keeps_iff totalBlocks label d).mp h.1, fun h =>
    ⟨(Owfs.scrub_keeps_iff totalBlocks label d).mpr h, fun _ hrun => Usfs.fullScrub_rejection.error hrun rfl⟩⟩

/-- 先頭のブロックに、0 でないバイトのある装置。 -/
def markedDevice : HtlDevice := (Usfs.zeroDevice 20).store 0 (Vector.replicate 4096 1)

theorem wipes_markedDevice : Wipes markedDevice 1 := by
  intro b hb
  have hb : b = 0 := by omega
  rw [hb]
  refine ⟨Usfs.writes_zeroDevice (.inr ?_), (by decide : (4096 : UInt32) ≤ 4096), rfl⟩
  decide

/-- 一ブロックだけの完全消去は、そのブロックを消してから断られる。 -/
theorem refused_scrub_erases : ∃ d', Owfs.fullScrub 1 none markedDevice = (.error .invalidParam, d') ∧
    d'.disk 0 = Bytes.zero 4096 ∧ markedDevice.disk 0 ≠ Bytes.zero 4096 := by
  have hno : ¬ Owfs.Suits 1 := fun h => absurd h.1 (by decide)
  obtain ⟨e, d', hrun, h⟩ := (Owfs.fullScrub_rejection 1 none markedDevice).exists_error_of
    fun _ _ hok => hno (hok rfl wipes_markedDevice)
  obtain ⟨rfl, hdisk⟩ := h.2.2 rfl wipes_markedDevice hno
  refine ⟨d', hrun, ?_, fun hmark => ?_⟩
  · rw [hdisk]
    rfl
  · have hbyte : (markedDevice.disk 0)[0] = (Bytes.zero 4096)[0] := by rw [hmark]
    change (Vector.replicate 4096 (1 : UInt8))[0] = (Vector.replicate 4096 (0 : UInt8))[0] at hbyte
    rw [Vector.getElem_replicate, Vector.getElem_replicate] at hbyte
    cases hbyte

end OwStorage
