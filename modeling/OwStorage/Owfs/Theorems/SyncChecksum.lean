import OwStorage.Common.Lemmas.Fletcher
import OwStorage.Owfs.Theorems.BitmapCheck

/-!
# 同期の書く検査値

同期はビットマップの検査値を計算して、スーパーブロックに書く。途中の読み取りが失敗すると、計算は 0 を返し、
同期はその 0 を書いて成功する。
-/

namespace OwStorage.Owfs

open Lib Prog

/-- ビットマップの全ブロックをつないだ列。 -/
def bitmapBytes (disk : Disk) (sb : Superblock) : List UInt8 :=
  (List.range sb.bitmapBlockCount.toNat).flatMap fun q => (disk (sb.bitmapStartBlock + UInt32.ofNat q)).toList

/-- 計算の第 `q` ブロックの読み取りが成功する。 -/
def BitmapLoads (v : Vol) (q : Nat) : Prop :=
  v.dev.Reads (v.sb.bitmapStartBlock + UInt32.ofNat q) ∧ v.dev.fault (v.dev.clock + q) = none

theorem bitmapFletcher_eq (disk : Disk) (sb : Superblock) :
    bitmapFletcher disk sb = owFletcher64 (bitmapBytes disk sb) := by
  unfold owFletcher64 bitmapBytes
  rw [fletcherWords_flatMap fun q => disk (sb.bitmapStartBlock + UInt32.ofNat q)]
  rfl

section

variable {v v' : Vol}

/-- 全ブロックが読めれば検査値を、そうでなければ 0 を報告する。 -/
def Reported (v : Vol) (sum : UInt64) : Prop :=
  (∀ q < v.sb.bitmapBlockCount.toNat, BitmapLoads v q) ∧ sum = bitmapFletcher v.dev.disk v.sb ∨
    (∃ q < v.sb.bitmapBlockCount.toNat, ¬ BitmapLoads v q) ∧ sum = 0

theorem bitmapComputeFletcher64_reports (v : Vol) :
    wp bitmapComputeFletcher64 (fun sum v' => Still v v' ∧ Reported v sum) (fun _ _ => False) v := by
  unfold bitmapComputeFletcher64
  rw [wp_bind, wp_get, wp_bind]
  -- 読み取りは一ブロックに一回なので、`q` 回目の番号は `v.dev.clock + q` である。
  refine wp_loop (fun q s v' => s = bitmapSums v.dev.disk v.sb q ∧ v' = v.atClock (v.dev.clock + q) ∧
    ∀ p < q, BitmapLoads v p) ⟨rfl, rfl, fun _ h => absurd h (Nat.not_lt_zero _)⟩ ?_ ?_
  · rintro q s _ hq ⟨rfl, rfl, hloads⟩
    have hexit : ¬ BitmapLoads v q → ∀ c, Still v (v.atClock c) ∧ Reported v 0 :=
      fun hno c => ⟨⟨c, rfl⟩, .inr ⟨⟨q, hq, hno⟩, rfl⟩⟩
    rw [wp_bind, wp_attempt]
    by_cases hr : v.dev.Reads (v.sb.bitmapStartBlock + UInt32.ofNat q)
    · refine wp_readBlk_clock hr (fun hok => ⟨?_, rfl, fun p hp => ?_⟩) (fun herr => hexit (fun h => herr h.2) _)
      · unfold bitmapSums
        rw [List.range_succ, List.foldl_append]
        rfl
      · rcases Nat.lt_succ_iff_lt_or_eq.mp hp with hlt | rfl
        · exact hloads p hlt
        · exact ⟨hr, hok⟩
    · exact wp_readBlk (fun _ hr' => absurd hr' hr) (fun c _ => hexit (fun h => hr h.1) c)
  · rintro s _ ⟨rfl, rfl, hloads⟩
    exact ⟨⟨_, rfl⟩, .inl ⟨hloads, rfl⟩⟩

/-- 同期が成功すれば、報告された値がディスクのスーパーブロックに入る。 -/
theorem syncChanges_stores (hl : Layout v.sb) (h : syncChanges v = (.ok (), v')) :
    Reported v (diskSb v').fletcher64Bitmap ∧ bitmapFletcher v'.dev.disk v'.sb = bitmapFletcher v.dev.disk v.sb := by
  have hspec : wp syncChanges (fun _ v' => Reported v (diskSb v').fletcher64Bitmap ∧
      bitmapFletcher v'.dev.disk v'.sb = bitmapFletcher v.dev.disk v.sb) (fun _ _ => True) v := by
    unfold syncChanges
    rw [wp_bind]
    refine (bitmapComputeFletcher64_reports v).mono ?_ (fun _ _ _ => trivial)
    rintro sum _ ⟨⟨c₀, rfl⟩, hsum⟩
    simp only [wp_bind, wp_modifySb]
    refine wp_superblockWrite (fun c _ => ?_) (fun _ _ _ _ => trivial)
    refine wp_flushBlk (fun c' => ⟨?_, ?_⟩) (fun _ _ => trivial)
    · rw [diskSb_atClock, diskSb_saved]
      exact hsum
    · have hledger : SameLedger v.sb (syncedSb v.sb sum).sealed :=
        trans_of SameLedger (.synced v.sb sum) (.sealed _)
      have hdev := evolves_saved (v := { v.atClock c₀ with sb := syncedSb v.sb sum }) (c := c)
      exact resave_fletcher hl hledger (.trans .atClock (hdev.trans .atClock))
  exact hspec.ok h

/-- 成功した同期の残す検査値は、計算の読み取りがどれも成功したか、正しい検査値が 0 のとき、そしてそのときに限り正しい。 -/
theorem sync_stores_checksum_iff (hl : Layout v.sb) (h : syncChanges v = (.ok (), v')) :
    (diskSb v').fletcher64Bitmap = owFletcher64 (bitmapBytes v'.dev.disk v'.sb) ↔
      (∀ q < v.sb.bitmapBlockCount.toNat, BitmapLoads v q) ∨ owFletcher64 (bitmapBytes v.dev.disk v.sb) = 0 := by
  rw [← bitmapFletcher_eq, ← bitmapFletcher_eq]
  obtain ⟨hstored, hkept⟩ := syncChanges_stores hl h
  rw [hkept]
  rcases hstored with ⟨hall, hsum⟩ | ⟨⟨q, hq, hno⟩, hsum⟩
  · exact ⟨fun _ => .inl hall, fun _ => hsum⟩
  · rw [hsum]
    constructor
    · intro hzero
      exact .inr hzero.symm
    · intro hcond
      rcases hcond with hall | hzero
      · exact absurd (hall q hq) hno
      · exact hzero.symm

end

/-! ## ビットマップの最初のブロックが読めない例 -/

/-- 次の一回の呼び出しだけが失敗する、フォーマットした直後のボリューム。 -/
def jammedVolume : Vol :=
  { formattedVolume with
    dev := { formattedVolume.dev with fault := fun k => if k = formattedVolume.dev.clock then some .io else none } }

theorem bitmapFletcher_formattedVolume : bitmapFletcher formattedVolume.dev.disk formattedVolume.sb ≠ 0 := by
  decide +kernel

/-- 読み取りの失敗した計算の 0 が、検査値として残る。 -/
theorem sync_stores_wrong_checksum :
    ¬ ∀ v v' : Vol, Layout v.sb → diskSb v = v.sb → superblockValidate v.sb = true → syncChanges v = (.ok (), v') →
      (diskSb v').fletcher64Bitmap = owFletcher64 (bitmapBytes v'.dev.disk v'.sb) := by
  intro hclaim
  have hfmt := formatted_formattedVolume.1
  have hl : Layout jammedVolume.sb := hfmt.sound.layout
  have hok : (syncChanges jammedVolume).1 = .ok () := by decide +kernel
  have hrun := run_eq hok
  obtain ⟨hstored, hkept⟩ := syncChanges_stores hl hrun
  have htrue := hclaim jammedVolume _ hl hfmt.disk hfmt.valid hrun
  rw [← bitmapFletcher_eq, hkept] at htrue
  rcases hstored with ⟨hall, _⟩ | ⟨_, hzero⟩
  · have hload := (hall 0 (by decide +kernel)).2
    have hfault : jammedVolume.dev.fault (jammedVolume.dev.clock + 0) = some .io := if_pos rfl
    rw [hfault] at hload
    cases hload
  · exact bitmapFletcher_formattedVolume (htrue.symm.trans hzero)

theorem sync_stores_checksum_on_formattedVolume :
    ∃ v', syncChanges formattedVolume = (.ok (), v') ∧
      (diskSb v').fletcher64Bitmap = owFletcher64 (bitmapBytes v'.dev.disk v'.sb) := by
  have hready := formatted_formattedVolume.1.ready faultFree_formattedVolume
  have hl := hready.sound.layout
  obtain ⟨v', hrun⟩ := syncChanges_runs hready.online
  refine ⟨v', hrun, (sync_stores_checksum_iff hl hrun).mpr (.inl fun q hq => ⟨?_, faultFree_formattedVolume _⟩)⟩
  exact (hready.serves.bitmap hl (bitmapStart_add_mem hl hq)).toReads

end OwStorage.Owfs
