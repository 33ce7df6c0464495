import OwStorage.Owfs.Lemmas.Reach
import OwStorage.Common.Lemmas.Fletcher

/-!
# ビットマップの破損の検出

同期したボリュームのビットマップの語を一つ変えると、検査は Fletcher-64 の違いか空きの数の違いで気付く。ただし検査値が
たまたま 0 のときは、書いていないものとみなされて比べられず、立つビットの数を変えない破損が見逃される。
-/

namespace OwStorage.Owfs

open Lib Prog

/-- ビットマップの第 `q` ブロックの第 `j` 語を `w` に変えたディスク。 -/
def tamperedDisk (disk : Disk) (sb : Superblock) (q j : Nat) (w : UInt32) : Disk :=
  Function.update disk (sb.bitmapStartBlock + UInt32.ofNat q)
    (ptrStore (disk (sb.bitmapStartBlock + UInt32.ofNat q)) j w)

/-- そのディスクに替えたボリューム。メモリの上のスーパーブロックはそのままである。 -/
def tampered (v : Vol) (q j : Nat) (w : UInt32) : Vol :=
  { v with dev := { v.dev with disk := tamperedDisk v.dev.disk v.sb q j w } }

/-- データブロックを表すビットが、少なくとも一つ変わる。 -/
def AltersData (v : Vol) (q j : Nat) (w : UInt32) : Prop :=
  ∃ r < v.sb.dataCount, bitOf (tamperedDisk v.dev.disk v.sb q j w) v.sb r ≠ bitOf v.dev.disk v.sb r

/-- 検査が破損に気付き、誤りの印を残した。 -/
def Detected (v : Vol) (count : UInt32) : Prop :=
  ∃ s, consistencyCheck ⟨v, count⟩ = (.error .checksumMismatch, s) ∧
    s.vol.sb.stateFlags &&& stateError ≠ 0 ∧ (diskSb s.vol).stateFlags &&& stateError ≠ 0

section

variable {blk : Block} {disk : Disk} {sb : Superblock} {v : Vol} {j q r : Nat} {w : UInt32}

/-! ## 語とビット -/

/-- 第 `r` ビットのあるバイトは、第 `r / 32` 語の四つのうちの一つである。 -/
theorem byte_of_word {b : UInt8} (hword : ∀ k < 4, blk[r / 32 * 4 + k]?.getD 0 = b) : blk[r / 8]?.getD 0 = b := by
  have h := hword (r / 8 % 4) (Nat.mod_lt _ (by decide))
  rwa [show r / 32 * 4 + r / 8 % 4 = r / 8 by omega] at h

/-- 語の値は、四つのバイトの値を決める。 -/
theorem leWord_inj {a₀ a₁ a₂ a₃ b₀ b₁ b₂ b₃ : UInt8} (h : leWord a₀ a₁ a₂ a₃ = leWord b₀ b₁ b₂ b₃) :
    a₀ = b₀ ∧ a₁ = b₁ ∧ a₂ = b₂ ∧ a₃ = b₃ := by
  have hsum := congrArg UInt32.toNat h
  rw [toNat_leWord, toNat_leWord] at hsum
  have := a₀.toNat_lt
  have := a₁.toNat_lt
  have := a₂.toNat_lt
  have := b₀.toNat_lt
  have := b₁.toNat_lt
  have := b₂.toNat_lt
  have h₀ : a₀.toNat = b₀.toNat := by omega
  have h₁ : a₁.toNat = b₁.toNat := by omega
  have h₂ : a₂.toNat = b₂.toNat := by omega
  have h₃ : a₃.toNat = b₃.toNat := by omega
  exact ⟨UInt8.toNat_inj.mp h₀, UInt8.toNat_inj.mp h₁, UInt8.toNat_inj.mp h₂, UInt8.toNat_inj.mp h₃⟩

theorem bytes_of_ptrLoad (b : UInt8) (h : ptrLoad blk j = leWord b b b b) : ∀ k < 4, blk[j * 4 + k]?.getD 0 = b := by
  obtain ⟨h₀, h₁, h₂, h₃⟩ := leWord_inj h
  intro k hk
  rcases (show k = 0 ∨ k = 1 ∨ k = 2 ∨ k = 3 by omega) with rfl | rfl | rfl | rfl
  · exact h₀
  · exact h₁
  · exact h₂
  · exact h₃

theorem bitAt_of_word_zero (h : ptrLoad blk (r / 32) = 0) : blk.bitAt r = false := by
  have hbytes := bytes_of_ptrLoad 0 (h.trans (show (0 : UInt32) = leWord 0 0 0 0 by decide))
  unfold Bytes.bitAt Bytes.testBit
  rw [byte_of_word hbytes]
  exact bitSet_zero _

/-- ほかの語のビットは変わらない。 -/
theorem bitAt_ptrStore_other (h : r / 32 ≠ j) : (ptrStore blk j w).bitAt r = blk.bitAt r := by
  have hbyte : (ptrStore blk j w)[r / 8]?.getD 0 = blk[r / 8]?.getD 0 := by
    unfold ptrStore
    by_cases hin : r / 8 < 4096
    · rw [Vector.getElem?_eq_getElem hin, Vector.getElem?_eq_getElem hin]
      rcases Nat.lt_or_gt_of_ne h with hlt | hgt
      · rw [Bytes.getElem_patch_of_lt hin (by omega)]
      · rw [Bytes.getElem_patch_of_ge hin (by simp; omega)]
    · rw [Vector.getElem?_eq_none (by omega), Vector.getElem?_eq_none (by omega)]
  unfold Bytes.bitAt Bytes.testBit
  rw [hbyte]

/-! ## 検査値の下の和 -/

/-- 第 `i` ブロックの語の和。 -/
def wordSum (disk : Disk) (sb : Superblock) (i : Nat) : Nat :=
  ∑ j ∈ Finset.range 1024, (ptrLoad (disk (sb.bitmapStartBlock + UInt32.ofNat i)) j).toNat

theorem bitmapSums_succ (disk : Disk) (sb : Superblock) (n : Nat) :
    bitmapSums disk sb (n + 1) = (List.range 1024).foldl (fun s j => fletcherStep s
      (ptrLoad (disk (sb.bitmapStartBlock + UInt32.ofNat n)) j)) (bitmapSums disk sb n) := by
  have hwords := fletcherWords_eq 1024 (disk (sb.bitmapStartBlock + UInt32.ofNat n)).toList
    (bitmapSums disk sb n) (by simp)
  unfold bitmapSums at hwords ⊢
  rw [List.range_succ, List.foldl_append, List.foldl_cons, List.foldl_nil, hwords]
  simp only [Vector.getElem?_toList]
  rfl

theorem toNat_bitmapSums (disk : Disk) (sb : Superblock) (n : Nat) :
    (bitmapSums disk sb n).1.toNat = (∑ i ∈ Finset.range n, wordSum disk sb i) % fletcherModulus := by
  induction n with
  | zero => rfl
  | succ n ih =>
      have hlt : (bitmapSums disk sb n).1.toNat < fletcherModulus := by
        rw [ih]
        exact Nat.mod_lt _ (by decide)
      rw [bitmapSums_succ, toNat_foldl_fletcherStep _ _ hlt, ih, Finset.sum_range_succ (wordSum disk sb),
        Nat.mod_add_mod]
      rfl

theorem bitmapSums_lt (disk : Disk) (sb : Superblock) (n : Nat) : (bitmapSums disk sb n).1.toNat < fletcherModulus := by
  rw [toNat_bitmapSums]
  exact Nat.mod_lt _ (by decide)

/-! ## 一つの語の変化 -/

theorem toNat_bitmapStart_add (hl : Layout sb) (hq : q < sb.bitmapBlockCount.toNat) :
    (sb.bitmapStartBlock + UInt32.ofNat q).toNat = sb.bitmapStartBlock.toNat + q := by
  have := hl.tableAfter
  have := sb.inodeTableStart.toNat_lt
  rw [toNat_add_lt (by rw [toNat_ofNat_lt (by omega)]; omega), toNat_ofNat_lt (by omega)]

theorem tamperedDisk_other (hl : Layout sb) {i : Nat} (hq : q < sb.bitmapBlockCount.toNat)
    (hi : i < sb.bitmapBlockCount.toNat) (hne : i ≠ q) :
    tamperedDisk disk sb q j w (sb.bitmapStartBlock + UInt32.ofNat i) =
      disk (sb.bitmapStartBlock + UInt32.ofNat i) := by
  unfold tamperedDisk
  rw [Function.update_of_ne]
  intro he
  have he := congrArg UInt32.toNat he
  rw [toNat_bitmapStart_add hl hi, toNat_bitmapStart_add hl hq] at he
  omega

/-- 変える前と後の和は、その語の分だけ違う。 -/
theorem sum_tampered (disk : Disk) (w : UInt32) (hl : Layout sb) (hq : q < sb.bitmapBlockCount.toNat) (hj : j < 1024) :
    ∑ i ∈ Finset.range sb.bitmapBlockCount.toNat, wordSum (tamperedDisk disk sb q j w) sb i +
        (ptrLoad (disk (sb.bitmapStartBlock + UInt32.ofNat q)) j).toNat =
      ∑ i ∈ Finset.range sb.bitmapBlockCount.toNat, wordSum disk sb i + w.toNat := by
  have hblocks := sum_range_replace (f := wordSum disk sb) (g := wordSum (tamperedDisk disk sb q j w) sb) hq
    fun i hi hne => by
      unfold wordSum
      rw [tamperedDisk_other hl hq hi hne]
  have hself : tamperedDisk disk sb q j w (sb.bitmapStartBlock + UInt32.ofNat q) =
      ptrStore (disk (sb.bitmapStartBlock + UInt32.ofNat q)) j w := Function.update_self ..
  have hwords := sum_range_replace (n := 1024) (q := j)
    (f := fun k => (ptrLoad (disk (sb.bitmapStartBlock + UInt32.ofNat q)) k).toNat)
    (g := fun k => (ptrLoad (ptrStore (disk (sb.bitmapStartBlock + UInt32.ofNat q)) j w) k).toNat) hj
    fun k _ hne => by rw [ptrLoad_ptrStore_other _ hne]
  rw [ptrLoad_ptrStore_same _ hj] at hwords
  have hafter : wordSum (tamperedDisk disk sb q j w) sb q =
      ∑ k ∈ Finset.range 1024, (ptrLoad (ptrStore (disk (sb.bitmapStartBlock + UInt32.ofNat q)) j w) k).toNat := by
    unfold wordSum
    rw [hself]
  have hbefore : wordSum disk sb q =
      ∑ k ∈ Finset.range 1024, (ptrLoad (disk (sb.bitmapStartBlock + UInt32.ofNat q)) k).toNat := rfl
  omega

/-- 検査値が変わらなければ、語は 0 と 0xFFFFFFFF を入れ替えたものである。 -/
theorem swapped_of_fletcher_eq (hl : Layout sb) (hq : q < sb.bitmapBlockCount.toNat) (hj : j < 1024)
    (hne : ptrLoad (disk (sb.bitmapStartBlock + UInt32.ofNat q)) j ≠ w)
    (h : bitmapFletcher (tamperedDisk disk sb q j w) sb = bitmapFletcher disk sb) :
    (ptrLoad (disk (sb.bitmapStartBlock + UInt32.ofNat q)) j = 0 ∧ w = 0xFFFFFFFF) ∨
      (ptrLoad (disk (sb.bitmapStartBlock + UInt32.ofNat q)) j = 0xFFFFFFFF ∧ w = 0) := by
  have hlow := congrArg UInt64.toNat (fletcherResult_inj (bitmapSums_lt _ _ _) (bitmapSums_lt _ _ _) h)
  rw [toNat_bitmapSums, toNat_bitmapSums] at hlow
  have hsum := sum_tampered disk w hl hq hj
  apply word_congr hne
  have hmod : ∑ i ∈ Finset.range sb.bitmapBlockCount.toNat, wordSum disk sb i + w.toNat ≡
      ∑ i ∈ Finset.range sb.bitmapBlockCount.toNat, wordSum disk sb i +
        (ptrLoad (disk (sb.bitmapStartBlock + UInt32.ofNat q)) j).toNat [MOD fletcherModulus] := by
    rw [← hsum]
    exact Nat.ModEq.add_right _ hlow
  exact (Nat.ModEq.add_left_cancel' _ hmod).symm

/-- 同じ値を書いた語のビットは変わらない。 -/
theorem bitAt_ptrStore_self (hj : r / 32 = j) (hr : r < 32768) (h : ptrLoad blk j = w) :
    (ptrStore blk j w).bitAt r = blk.bitAt r := by
  obtain ⟨h₀, h₁, h₂, h₃⟩ := leWord_inj ((ptrLoad_ptrStore_same blk (e := j) (by omega) w).trans h.symm)
  have hbyte : (ptrStore blk j w)[r / 8]?.getD 0 = blk[r / 8]?.getD 0 := by
    rcases (show r / 8 = j * 4 ∨ r / 8 = j * 4 + 1 ∨ r / 8 = j * 4 + 2 ∨
      r / 8 = j * 4 + 3 by omega) with he | he | he | he
    · rwa [he]
    · rwa [he]
    · rwa [he]
    · rwa [he]
  unfold Bytes.bitAt Bytes.testBit
  rw [hbyte]

/-- 変えた語の外のビットは変わらない。 -/
theorem bitOf_tampered_other (hl : Layout sb) (hq : q < sb.bitmapBlockCount.toNat) (hr : r < sb.dataCount)
    (hne : ¬ (r / 32768 = q ∧ r % 32768 / 32 = j)) : bitOf (tamperedDisk disk sb q j w) sb r = bitOf disk sb r := by
  have hcov := hl.bitmapCovers
  have hin : r / 32768 < sb.bitmapBlockCount.toNat := Nat.div_lt_of_lt_mul (by unfold Superblock.dataCount at hr; omega)
  unfold bitOf Superblock.bitmapBlockOf
  by_cases he : r / 32768 = q
  · rw [he]
    unfold tamperedDisk
    rw [Function.update_self, bitAt_ptrStore_other fun hk => hne ⟨he, hk⟩]
  · rw [tamperedDisk_other hl hq hin he]

theorem bitOf_tampered_self (hr : r / 32768 = q) :
    bitOf (tamperedDisk disk sb q j w) sb r =
      (ptrStore (disk (sb.bitmapStartBlock + UInt32.ofNat q)) j w).bitAt (r % 32768) := by
  unfold bitOf Superblock.bitmapBlockOf tamperedDisk
  rw [hr, Function.update_self]

theorem bitOf_self (hr : r / 32768 = q) :
    bitOf disk sb r = (disk (sb.bitmapStartBlock + UInt32.ofNat q)).bitAt (r % 32768) := by
  unfold bitOf Superblock.bitmapBlockOf
  rw [hr]

/-- データブロックのビットを変える語は、元の語と違う。 -/
theorem AltersData.word_ne (h : AltersData v q j w) (hl : Layout v.sb) (hq : q < v.sb.bitmapBlockCount.toNat) :
    ptrLoad (v.dev.disk (v.sb.bitmapStartBlock + UInt32.ofNat q)) j ≠ w := by
  intro he
  obtain ⟨r, hr, hne⟩ := h
  apply hne
  by_cases hin : r / 32768 = q ∧ r % 32768 / 32 = j
  · rw [bitOf_tampered_self hin.1, bitOf_self hin.1]
    exact bitAt_ptrStore_self hin.2 (Nat.mod_lt _ (by decide)) he
  · exact bitOf_tampered_other hl hq hr hin

/-- 語のビットを全て立てるか全て下ろす変化では、空きの数も変わる。 -/
theorem AltersData.freeCount_ne (h : AltersData v q j w) (hl : Layout v.sb) (hq : q < v.sb.bitmapBlockCount.toNat)
    (hj : j < 1024)
    (hswap : (ptrLoad (v.dev.disk (v.sb.bitmapStartBlock + UInt32.ofNat q)) j = 0 ∧ w = 0xFFFFFFFF) ∨
      (ptrLoad (v.dev.disk (v.sb.bitmapStartBlock + UInt32.ofNat q)) j = 0xFFFFFFFF ∧ w = 0)) :
    freeCount (tamperedDisk v.dev.disk v.sb q j w) v.sb ≠ freeCount v.dev.disk v.sb := by
  obtain ⟨r₀, hr₀, hne⟩ := h
  have hload := ptrLoad_ptrStore_same (v.dev.disk (v.sb.bitmapStartBlock + UInt32.ofNat q)) hj w
  rcases hswap with ⟨hold, _⟩ | ⟨_, hnew⟩
  · refine (count_false_lt (fun r hr hclear => ?_) hr₀ hne).ne
    by_cases hin : r / 32768 = q ∧ r % 32768 / 32 = j
    · rw [bitOf_self hin.1]
      exact bitAt_of_word_zero (by rw [hin.2]; exact hold)
    · rwa [bitOf_tampered_other hl hq hr hin] at hclear
  · refine (count_false_lt (fun r hr hclear => ?_) hr₀ hne.symm).ne'
    by_cases hin : r / 32768 = q ∧ r % 32768 / 32 = j
    · rw [bitOf_tampered_self hin.1]
      exact bitAt_of_word_zero (by rw [hin.2, hload]; exact hnew)
    · rwa [bitOf_tampered_other hl hq hr hin]

/-! ## 検査の結果 -/

/-- 同期した直後のボリューム。 -/
structure Synced (v : Vol) : Prop extends Intact v where
  sum : v.sb.fletcher64Bitmap = bitmapFletcher v.dev.disk v.sb
  valid : superblockValidate v.sb = true

/-- 同期は、スーパーブロックだけを書き直す。 -/
theorem syncChanges_resave {v' : Vol} (h : Online v) (hsync : syncChanges v = (.ok (), v')) :
    SameLedger v.sb v'.sb ∧ v.dev.Evolves {superblockBlock} v'.dev ∧
      v'.sb.fletcher64Bitmap = bitmapFletcher v.dev.disk v.sb ∧ (v.sb.Branded → superblockValidate v'.sb = true) := by
  obtain ⟨sum, c, c', rfl, hsum⟩ := (syncChanges_spec h.layout).ok hsync
  refine ⟨trans_of SameLedger (.synced v.sb sum) (.sealed _), ?_, hsum ⟨h.faultFree, h.serves⟩, fun hb => ?_⟩
  · exact (evolves_saved (v := { v with sb := syncedSb v.sb sum })).trans .atClock
  · exact validate_sealed ((SameLedger.synced v.sb sum).branded hb)

/-- 失敗のない装置の上の同期は、必ず通る。 -/
theorem syncChanges_runs (h : Online v) : ∃ v', syncChanges v = (.ok (), v') := by
  obtain ⟨_, v', hrun, _⟩ := ((syncChanges_spec h.layout).mono (fun _ _ hs => hs)
    (fun _ _ hno => hno ⟨h.faultFree, h.serves⟩)).exists_ok
  exact ⟨v', hrun⟩

theorem Intact.synced {v' : Vol} (h : Intact v) (hsync : syncChanges v = (.ok (), v')) : Synced v' := by
  obtain ⟨hledger, hdev, hsum, hvalid⟩ := syncChanges_resave h.toReady.online hsync
  refine ⟨h.resave hledger hdev, ?_, hvalid h.branded⟩
  rw [resave_fletcher h.sound.layout hledger hdev, hsum]

theorem freeCount_lt (disk : Disk) (sb : Superblock) : freeCount disk sb < 2 ^ 32 := by
  have hle := Nat.count_le (p := fun r => bitOf disk sb r = false) (n := sb.dataCount)
  have hlt := sb.totalBlocks.toNat_lt
  unfold Superblock.dataCount at hle
  unfold freeCount
  unfold Superblock.dataCount
  omega

/-- 語を変えても、inode の表は読める。 -/
theorem count_tampered (hl : Layout v.sb) (hs : Summed v) (hq : q < v.sb.bitmapBlockCount.toNat) :
    Nat.count (Corrupt (tampered v q j w).dev.disk v.sb) v.sb.totalInodes.toNat = 0 := by
  refine count_eq_zero_iff.mpr fun n hn hbad => ?_
  have hlt := v.sb.totalInodes.toNat_lt
  have hn' : (UInt32.ofNat n).toNat < v.sb.totalInodes.toNat := by rwa [toNat_ofNat_lt (by omega)]
  have htable : ∀ b ∈ v.sb.tableRegion, (tampered v q j w).dev.disk b = v.dev.disk b := by
    intro b hb
    refine Function.update_of_ne ?_ _ _
    rintro rfl
    have hge := hb.1
    have hafter := hl.tableAfter
    rw [toNat_bitmapStart_add hl hq] at hge
    omega
  unfold Corrupt at hbad
  rw [inodeAt_congr hl htable hn'] at hbad
  rw [hs (UInt32.ofNat n) hn' hbad.1] at hbad
  exact absurd hbad.2 (by decide)

/-- 検査が見つけるのは、検査値の違いと空きの数の違いである。 -/
theorem findings_tampered (hl : Layout v.sb) (hs : Summed v) (hq : q < v.sb.bitmapBlockCount.toNat) :
    findings (tampered v q j w) = 0 ↔ SumAgrees (tampered v q j w) ∧
      UInt32.ofNat (freeCount (tamperedDisk v.dev.disk v.sb q j w) v.sb) = v.sb.freeBlocks := by
  unfold findings
  change UInt32.ofNat (Nat.count (Corrupt (tampered v q j w).dev.disk v.sb) v.sb.totalInodes.toNat) + _ +
    (if UInt32.ofNat (freeCount (tamperedDisk v.dev.disk v.sb q j w) v.sb) = v.sb.freeBlocks then 0 else 1) = 0 ↔ _
  rw [count_tampered hl hs hq]
  by_cases hsum : SumAgrees (tampered v q j w)
  · rw [if_pos hsum]
    by_cases hcount : UInt32.ofNat (freeCount (tamperedDisk v.dev.disk v.sb q j w) v.sb) = v.sb.freeBlocks
    · rw [if_pos hcount]
      exact ⟨fun _ => ⟨hsum, hcount⟩, fun _ => rfl⟩
    · rw [if_neg hcount]
      exact ⟨fun hz => absurd hz (by decide), fun hz => absurd hz.2 hcount⟩
  · rw [if_neg hsum]
    refine ⟨fun hz => ?_, fun hz => absurd hz.1 hsum⟩
    split at hz <;> exact absurd hz (by decide)

/-- 検査は、誤りを見つけたときに限り、検査値の誤りを返して誤りの印を残す。 -/
theorem detected_iff (h : Online v) (hvalid : superblockValidate v.sb = true) (count : UInt32) :
    Detected (tampered v q j w) count ↔ findings (tampered v q j w) ≠ 0 := by
  have honline : Online (tampered v q j w) := ⟨h.layout, h.faultFree, h.serves⟩
  have hspec := consistencyCheck_spec (s := ⟨tampered v q j w, count⟩) honline hvalid
  constructor
  · rintro ⟨s, hrun, _⟩
    unfold wp at hspec
    rw [hrun] at hspec
    exact hspec.2.1
  · intro hbad
    obtain ⟨e, s, hrun, rfl, _, _, hmem, hdisk⟩ :=
      (hspec.mono (fun _ _ hs => hbad hs.1) (fun _ _ hs => hs)).exists_error
    exact ⟨s, hrun, hmem, hdisk⟩

/-- 同期したボリュームでは、検査値が 0 でないか、空きの数が変わる破損に限って見つかる。 -/
theorem Synced.detected_iff_sum (h : Synced v) (hq : q < v.sb.bitmapBlockCount.toNat) (hj : j < 1024)
    (halter : AltersData v q j w) (count : UInt32) :
    Detected (tampered v q j w) count ↔ v.sb.fletcher64Bitmap ≠ 0 ∨
      freeCount (tamperedDisk v.dev.disk v.sb q j w) v.sb ≠ freeCount v.dev.disk v.sb := by
  have hl := h.sound.layout
  have hfree : UInt32.ofNat (freeCount (tamperedDisk v.dev.disk v.sb q j w) v.sb) = v.sb.freeBlocks ↔
      freeCount (tamperedDisk v.dev.disk v.sb q j w) v.sb = freeCount v.dev.disk v.sb := by
    rw [← UInt32.toNat_inj, toNat_ofNat_lt (freeCount_lt _ _), h.exact]
  rw [detected_iff h.toReady.online h.valid, Ne, findings_tampered hl h.sums hq, hfree]
  constructor
  · intro hno
    by_contra hor
    rw [not_or, not_not, not_not] at hor
    exact hno ⟨.inl hor.1, hor.2⟩
  · rintro (hsum | hcount) ⟨hagree, hsame⟩
    · have hsum' : v.sb.fletcher64Bitmap = bitmapFletcher (tamperedDisk v.dev.disk v.sb q j w) v.sb :=
        hagree.resolve_left hsum
      rw [h.sum] at hsum'
      exact halter.freeCount_ne hl hq hj (swapped_of_fletcher_eq hl hq hj (halter.word_ne hl hq) hsum'.symm) hsame
    · exact hcount hsame

/-- 失敗のない実行を同期で終えた後の、語一つの破損は、検査値が 0 でないか、空きの数が変わるときに限って見つかる。 -/
theorem bitmap_corruption_detected_iff {d₀ d : HtlDevice} {totalBlocks : UInt32} {label : Option (List UInt8)}
    {v₀ : Vol} {ops : List ApiOp} (hff : d₀.FaultFree) (hformat : formatVolume totalBlocks label d₀ = (.ok (), d))
    (hopen : Opened d v₀) (hflushed : ∀ e ∈ trace ApiOp.run ops v₀, Flushed e)
    (hsync : syncChanges (final ApiOp.run ops v₀) = (.ok (), v)) (hq : q < v.sb.bitmapBlockCount.toNat) (hj : j < 1024)
    (halter : AltersData v q j w) (count : UInt32) :
    Detected (tampered v q j w) count ↔ v.sb.fletcher64Bitmap ≠ 0 ∨
      freeCount (tamperedDisk v.dev.disk v.sb q j w) v.sb ≠ freeCount v.dev.disk v.sb :=
  (((intact_of_opened hff hformat hopen).final hflushed).synced hsync).detected_iff_sum hq hj halter count

end

/-! ## 小さな装置の例 -/

section

variable {v v' : Vol} {q j : Nat} {w : UInt32}

theorem SameLedger.bitmapBlockCount {sb sb' : Superblock} (h : SameLedger sb sb') :
    sb'.bitmapBlockCount = sb.bitmapBlockCount := by
  obtain ⟨_, _, _, _, rfl⟩ := h
  rfl

/-- スーパーブロックだけを書き直しても、語を変えたビットマップは同じである。 -/
theorem tamperedDisk_resave (hl : Layout v.sb) (hsb : SameLedger v.sb v'.sb)
    (hd : v.dev.Evolves {superblockBlock} v'.dev)
    (hq : q < v.sb.bitmapBlockCount.toNat) {b : UInt32} (hb : b ∈ v.sb.bitmapRegion) :
    tamperedDisk v'.dev.disk v'.sb q j w b = tamperedDisk v.dev.disk v.sb q j w b := by
  have hstart : v'.sb.bitmapStartBlock = v.sb.bitmapStartBlock := by
    obtain ⟨_, _, _, _, he⟩ := hsb
    rw [he]
  have hsame : ∀ b ∈ v.sb.bitmapRegion, v'.dev.disk b = v.dev.disk b :=
    fun b hb => hd.disk b (hl.bitmap_ne_superblock hb)
  unfold tamperedDisk
  rw [hstart, hsame _ (bitmapStart_add_mem hl hq)]
  by_cases he : b = v.sb.bitmapStartBlock + UInt32.ofNat q
  · rw [he, Function.update_self, Function.update_self]
  · rw [Function.update_of_ne he, Function.update_of_ne he, hsame b hb]

theorem freeCount_tampered_resave (hl : Layout v.sb) (hsb : SameLedger v.sb v'.sb)
    (hd : v.dev.Evolves {superblockBlock} v'.dev) (hq : q < v.sb.bitmapBlockCount.toNat) :
    freeCount (tamperedDisk v'.dev.disk v'.sb q j w) v'.sb = freeCount (tamperedDisk v.dev.disk v.sb q j w) v.sb := by
  rw [hsb.freeCount]
  exact freeCount_congr hl fun b hb => tamperedDisk_resave hl hsb hd hq hb

theorem AltersData.resave (h : AltersData v q j w) (hl : Layout v.sb) (hsb : SameLedger v.sb v'.sb)
    (hd : v.dev.Evolves {superblockBlock} v'.dev) (hq : q < v.sb.bitmapBlockCount.toNat) : AltersData v' q j w := by
  obtain ⟨r, hr, hne⟩ := h
  have hbit : ∀ disk : Disk, bitOf disk v'.sb r = bitOf disk v.sb r := by
    intro disk
    obtain ⟨_, _, _, _, he⟩ := hsb
    rw [he]
    rfl
  have hcount : v'.sb.dataCount = v.sb.dataCount := by
    obtain ⟨_, _, _, _, he⟩ := hsb
    rw [he]
    rfl
  refine ⟨r, by rwa [hcount], ?_⟩
  rw [hbit, hbit, bitOf_congr hl (fun b hb => tamperedDisk_resave hl hsb hd hq hb) hr,
    bitOf_congr hl (fun b hb => hd.disk b (hl.bitmap_ne_superblock hb)) hr]
  exact hne

/-- マウントは、読み直したスーパーブロックの旗と回数だけを書き直す。 -/
theorem mount_resave {u : Vol} (h : mount v = (.ok (), v')) (hu : { v with sb := diskSb v } = u) :
    SameLedger u.sb v'.sb ∧ u.dev.Evolves {superblockBlock} v'.dev := by
  subst hu
  obtain ⟨_, _, _, c, rfl⟩ := mount_ok_spec.ok h
  exact ⟨trans_of SameLedger (.mounted _) (.sealed _), evolves_saved (v := { v with sb := mountedSb (diskSb v) })⟩

/-- 検査値が 0 で、語を変えた後の空きの数が欄に合うなら、破損は見逃される。 -/
theorem hidden_after_sync (count : UInt32) (h : Online v) (hs : Summed v) (hb : v.sb.Branded)
    (hq : q < v.sb.bitmapBlockCount.toNat) (hzero : bitmapFletcher v.dev.disk v.sb = 0)
    (hfree : UInt32.ofNat (freeCount (tamperedDisk v.dev.disk v.sb q j w) v.sb) = v.sb.freeBlocks)
    (halter : AltersData v q j w) (hsb : SameLedger v.sb v'.sb) (hd : v.dev.Evolves {superblockBlock} v'.dev) :
    ∃ u, syncChanges v' = (.ok (), u) ∧ q < u.sb.bitmapBlockCount.toNat ∧ AltersData u q j w ∧
      ¬ Detected (tampered u q j w) count := by
  have hl := h.layout
  have h' := h.resave hsb hd
  obtain ⟨u, hrun⟩ := syncChanges_runs h'
  obtain ⟨hsb', hd', hsum, hvalid⟩ := syncChanges_resave h' hrun
  have hledger := trans_of SameLedger hsb hsb'
  have hdev := hd.trans hd'
  have hqu : q < u.sb.bitmapBlockCount.toNat := by rwa [hledger.bitmapBlockCount]
  refine ⟨u, hrun, hqu, halter.resave hl hledger hdev hq, fun hdet => ?_⟩
  refine (detected_iff (h.resave hledger hdev) (hvalid (hsb.branded hb)) count).mp hdet
    ((findings_tampered (hledger.layout hl) (hs.resave hl hledger hdev) hqu).mpr ⟨.inl ?_, ?_⟩)
  · change u.sb.fletcher64Bitmap = 0
    rw [hsum, resave_fletcher hl hsb hd, hzero]
  · rw [freeCount_tampered_resave hl hledger hdev hq, hledger.freeBlocks, hfree]

end

/-- フォーマットした直後に、スーパーブロックを読んで開いたボリューム。 -/
def openedVolume : Vol := formattedVolume.atClock (formattedVolume.dev.clock + 1)

theorem opened_openedVolume : Opened formattedVolume.dev openedVolume := by
  have hfmt := formatted_formattedVolume.1
  have hsb : diskSb ⟨formattedVolume.dev, Superblock.zero⟩ = formattedVolume.sb := hfmt.disk
  have hready : Ready formattedVolume := hfmt.ready faultFree_formattedVolume
  have hread : superblockRead ⟨formattedVolume.dev, Superblock.zero⟩ = (.ok (), openedVolume) := by
    rw [superblockRead_faultFree (v := ⟨formattedVolume.dev, Superblock.zero⟩) faultFree_formattedVolume
      hready.writes_superblock.toReads (by rw [hsb]; exact hfmt.valid), hsb]
    rfl
  exact .read hread

theorem intact_openedVolume : Intact openedVolume :=
  intact_of_opened faultFree_blankDevice format_blankDevice opened_openedVolume

theorem altersData_openedVolume : AltersData openedVolume 0 0 3 := ⟨1, by decide +kernel, by decide +kernel⟩

/-- 空きブロックに印を付ける破損は見つかる。 -/
theorem corruption_detected_on_openedVolume :
    ∃ v, syncChanges openedVolume = (.ok (), v) ∧ AltersData v 0 0 3 ∧ Detected (tampered v 0 0 3) 0 := by
  have hl := intact_openedVolume.sound.layout
  have hq : 0 < openedVolume.sb.bitmapBlockCount.toNat := by decide +kernel
  obtain ⟨v, hrun⟩ := syncChanges_runs intact_openedVolume.toReady.online
  obtain ⟨hledger, hdev, _⟩ := syncChanges_resave intact_openedVolume.toReady.online hrun
  have hq' : 0 < v.sb.bitmapBlockCount.toNat := by rwa [hledger.bitmapBlockCount]
  have halter := altersData_openedVolume.resave hl hledger hdev hq
  refine ⟨v, hrun, halter, ?_⟩
  have hrun' : syncChanges (final ApiOp.run [] openedVolume) = (.ok (), v) := hrun
  refine (bitmap_corruption_detected_iff faultFree_blankDevice format_blankDevice opened_openedVolume
    (fun _ he => absurd he List.not_mem_nil) hrun' hq' (by decide) halter 0).mpr (.inr ?_)
  have hcount : freeCount (tamperedDisk openedVolume.dev.disk openedVolume.sb 0 0 3) openedVolume.sb ≠
      freeCount openedVolume.dev.disk openedVolume.sb := by decide +kernel
  rw [freeCount_tampered_resave hl hledger hdev hq, hledger.freeCount,
    freeCount_congr hl fun b hb => hdev.disk b (hl.bitmap_ne_superblock hb)]
  exact hcount

/-! ## 見逃される破損 -/

/-- 根のカタログを解放した後のボリューム。ビットマップには印が一つもない。 -/
@[irreducible] def rootless : Vol :=
  (freeRecord ⟨0, 0⟩ 0 (inodeAt openedVolume.dev.disk openedVolume.sb 0) (inodeLoad 0 openedVolume).2).2

theorem inodeFree_openedVolume : (inodeFree ⟨0, 0⟩ 0 openedVolume).2 = rootless := by
  rw [inodeFree_eq intact_openedVolume.toReady intact_openedVolume.sums (by decide +kernel) (by decide +kernel)]
  unfold rootless
  rfl

/-- 解放の前に書かれたスーパーブロックを読み直したボリューム。空きの数は、解放の前のものに戻る。 -/
def staleVolume : Vol := { rootless with sb := formattedVolume.sb }

theorem sound_rootless : Intact rootless ∧ Carry openedVolume rootless := by
  obtain ⟨_, hc, _⟩ := intact_openedVolume.toReady.after (upholds_inodeFree ⟨0, 0⟩ 0)
  have hstep := intact_openedVolume.step (.data (.inodeFree ⟨0, 0⟩ 0)) (fun he => by cases he)
  rw [inodeFree_openedVolume] at hc
  have hstep : Intact (inodeFree ⟨0, 0⟩ 0 openedVolume).2 := hstep
  rw [inodeFree_openedVolume] at hstep
  exact ⟨hstep, hc⟩

theorem online_staleVolume : Online staleVolume ∧ Summed staleVolume ∧ staleVolume.sb.Branded := by
  obtain ⟨h, hc⟩ := sound_rootless
  have hfmt := formatted_formattedVolume.1
  have hshape : SameShape formattedVolume.sb rootless.sb := hc.shape
  refine ⟨⟨hfmt.sound.layout, h.faultFree, ?_⟩, fun n hn ht => ?_, branded_of_validate hfmt.valid⟩
  · have hconf : rootless.dev.toHtlConfig = formattedVolume.dev.toHtlConfig := hc.dev.config
    change Serves rootless.dev.toHtlConfig formattedVolume.sb
    rw [hconf]
    exact hfmt.serves
  · have hsum := h.sums n (by rw [hshape.totalInodes]; exact hn)
    rw [hshape.inodeAt] at hsum
    exact hsum ht

/-- マウントは、古いスーパーブロックを読み直して通る。 -/
theorem mount_rootless : ∃ v, mount rootless = (.ok (), v) ∧ { rootless with sb := diskSb rootless } = staleVolume := by
  have hfmt := formatted_formattedVolume.1
  obtain ⟨h, hc⟩ := sound_rootless
  have hsb : diskSb rootless = formattedVolume.sb := by
    have hdisk : diskSb openedVolume = formattedVolume.sb := hfmt.disk
    rw [← hdisk]
    exact congrArg Superblock.ofBlock (hc.dev.disk superblockBlock fun hno => hno rfl)
  refine ⟨_, mount_of_clean (v := rootless) h.faultFree h.toReady.writes_superblock (by rw [hsb]; exact hfmt.valid)
    (by rw [hsb, hfmt.flags]; decide) (by rw [hsb, hfmt.flags]; decide), ?_⟩
  rw [hsb]
  rfl

theorem fletcher_staleVolume : bitmapFletcher staleVolume.dev.disk staleVolume.sb = 0 := by decide +kernel

theorem freeCount_staleVolume :
    UInt32.ofNat (freeCount (tamperedDisk staleVolume.dev.disk staleVolume.sb 0 0 1) staleVolume.sb) =
      staleVolume.sb.freeBlocks := by decide +kernel

theorem altersData_staleVolume : AltersData staleVolume 0 0 1 := ⟨0, by decide +kernel, by decide +kernel⟩

theorem bitmapBlocks_staleVolume : 0 < staleVolume.sb.bitmapBlockCount.toNat := by decide +kernel

/-- 根のカタログを解放してから、マウントする。 -/
def freeThenMount : List ApiOp := [.data (.inodeFree ⟨0, 0⟩ 0), .life .mount]

theorem final_freeThenMount {v v₁ v₂ : Vol} (hfree : (inodeFree ⟨0, 0⟩ 0 v).2 = v₁) (hmount : mount v₁ = (.ok (), v₂)) :
    final ApiOp.run freeThenMount v = v₂ := by
  change (mount (inodeFree ⟨0, 0⟩ 0 v).2).2 = _
  rw [hfree, hmount]

/-- 印のないビットマップの検査値は 0 で、書いていないものとみなされる。空きの数が古ければ、印を一つ付けた破損が見逃される。 -/
theorem zero_sum_hides_corruption :
    ¬ ∀ (d₀ d : HtlDevice) (totalBlocks : UInt32) (label : Option (List UInt8)) (v₀ v : Vol)
      (ops : List ApiOp) (q j : Nat)
      (w count : UInt32), d₀.FaultFree → formatVolume totalBlocks label d₀ = (.ok (), d) → Opened d v₀ →
      syncChanges (final ApiOp.run ops v₀) = (.ok (), v) → q < v.sb.bitmapBlockCount.toNat → j < 1024 →
      AltersData v q j w → Detected (tampered v q j w) count := by
  intro hclaim
  obtain ⟨v₂, hmount, hstale⟩ := mount_rootless
  obtain ⟨honline, hsums, hbrand⟩ := online_staleVolume
  obtain ⟨hsb, hd⟩ := mount_resave hmount hstale
  obtain ⟨v, hrun, hq, halter, hhidden⟩ := hidden_after_sync 0 honline hsums hbrand bitmapBlocks_staleVolume
    fletcher_staleVolume freeCount_staleVolume altersData_staleVolume hsb hd
  rw [← final_freeThenMount inodeFree_openedVolume hmount] at hrun
  exact hhidden (hclaim _ _ _ _ _ _ _ 0 0 1 0 faultFree_blankDevice format_blankDevice opened_openedVolume hrun hq
    (by decide) halter)

end OwStorage.Owfs
