import OwStorage.Usfs.Format
import OwStorage.Usfs.Lemmas.Bitmap

/-!
# 配置の計算

ビットマップの大きさを決める繰り返しは、切り上げの加算が 32 ビットに収まるかぎり、データ領域の全体を覆う最小の不動点で
終わる。収まらないときは、一ブロックのまま終わる。
-/

namespace OwStorage.Usfs

open Lib

section

variable {total b : UInt32}

theorem toNat_bitmapBlocksNeeded (hb : 17 + b.toNat ≤ total.toNat)
    (hfit : total.toNat - 17 - b.toNat + 32767 < 2 ^ 32) :
    (bitmapBlocksNeeded total b).toNat = (total.toNat - 17 - b.toNat + 32767) / 32768 := by
  have h17 : (17 : UInt32).toNat = 17 := rfl
  have h1 : (1 : UInt32).toNat = 1 := rfl
  have hbits : (32768 : UInt32).toNat = 32768 := rfl
  have hsub : (total - 17).toNat = total.toNat - 17 := toNat_sub_le (by omega)
  have hdata : (total - 17 - b).toNat = total.toNat - 17 - b.toNat := by
    rw [toNat_sub_le (by omega), hsub]
  have hadd : (total - 17 - b + 32768 - 1).toNat = total.toNat - 17 - b.toNat + 32767 := by
    by_cases hwrap : total.toNat - 17 - b.toNat + 32768 < 2 ^ 32
    · have hsum : (total - 17 - b + 32768).toNat = total.toNat - 17 - b.toNat + 32768 := by
        rw [toNat_add_lt (by omega), hdata, hbits]
      rw [toNat_sub_le (by omega), hsum]
      rfl
    · -- 足すと 0 に戻り、引くと最大の値になる。
      rw [UInt32.toNat_sub, UInt32.toNat_add, hdata, hbits, h1]
      omega
  unfold bitmapBlocksNeeded
  rw [UInt32.toNat_div, hadd, hbits]

/-- 切り上げの加算が溢れると、要るブロックの数は 0 と計算される。 -/
theorem bitmapBlocksNeeded_of_overflow (hb : 17 + b.toNat ≤ total.toNat)
    (hover : 2 ^ 32 ≤ total.toNat - 17 - b.toNat + 32767) : bitmapBlocksNeeded total b = 0 := by
  have htot := total.toNat_lt
  have h17 : (17 : UInt32).toNat = 17 := rfl
  have h1 : (1 : UInt32).toNat = 1 := rfl
  have hbits : (32768 : UInt32).toNat = 32768 := rfl
  have hsub : (total - 17).toNat = total.toNat - 17 := toNat_sub_le (by omega)
  have hdata : (total - 17 - b).toNat = total.toNat - 17 - b.toNat := by
    rw [toNat_sub_le (by omega), hsub]
  apply UInt32.toNat_inj.mp
  unfold bitmapBlocksNeeded
  rw [UInt32.toNat_div, UInt32.toNat_sub, UInt32.toNat_add, hdata, hbits, h1]
  change _ = 0
  omega

theorem toNat_seventeen_add (h : b.toNat < 2 ^ 31) : (17 + b).toNat = 17 + b.toNat := by
  have h17 : (17 : UInt32).toNat = 17 := rfl
  rw [toNat_add_lt (by omega), h17]

/-- 溢れのない大きさでは、繰り返しは切り上げた数か 1 で終わる。 -/
theorem layoutBitmapBlocks_of_fit (hlow : 19 ≤ total.toNat) (hfit : total.toNat < 2 ^ 32 - 32749) :
    ∃ b, layoutBitmapBlocks total = some b ∧ 1 ≤ b.toNat ∧ 17 + b.toNat < total.toNat ∧
      total.toNat - 17 - b.toNat ≤ b.toNat * 32768 := by
  have h1 : (1 : UInt32).toNat = 1 := rfl
  have hone : (bitmapBlocksNeeded total 1).toNat = (total.toNat - 17 - (1 : UInt32).toNat + 32767) / 32768 :=
    toNat_bitmapBlocksNeeded (by omega) (by omega)
  have hplace : ¬ total ≤ 17 + 1 := by
    rw [UInt32.le_iff_toNat_le, toNat_seventeen_add (by decide)]
    omega
  unfold layoutBitmapBlocks
  rw [layoutFrom, if_neg hplace]
  by_cases hmore : 1 < bitmapBlocksNeeded total 1
  · -- 二回目の `b` では、残りのデータが減るので、要る数はもう増えない。
    rw [if_pos hmore]
    have hmore := UInt32.lt_iff_toNat_lt.mp hmore
    generalize hn : bitmapBlocksNeeded total 1 = n at hone hmore
    have hplace : ¬ total ≤ 17 + n := by
      rw [UInt32.le_iff_toNat_le, toNat_seventeen_add (by omega)]
      omega
    have htwo : (bitmapBlocksNeeded total n).toNat = (total.toNat - 17 - n.toNat + 32767) / 32768 :=
      toNat_bitmapBlocksNeeded (by omega) (by omega)
    have hstop : ¬ n < bitmapBlocksNeeded total n := by
      rw [UInt32.lt_iff_toNat_lt]
      omega
    rw [layoutFrom, if_neg hplace, if_neg hstop]
    exact ⟨n, rfl, by omega, by omega, by omega⟩
  · rw [if_neg hmore]
    have hmore := UInt32.le_iff_toNat_le.mp (UInt32.not_lt.mp hmore)
    exact ⟨1, rfl, by omega, by omega, by omega⟩

theorem layoutBitmapBlocks_of_overflow (hover : 2 ^ 32 - 32749 ≤ total.toNat) : layoutBitmapBlocks total = some 1 := by
  have h1 : (1 : UInt32).toNat = 1 := rfl
  have hplace : ¬ total ≤ 17 + 1 := by
    rw [UInt32.le_iff_toNat_le, toNat_seventeen_add (by decide)]
    omega
  have hzero : bitmapBlocksNeeded total 1 = 0 := bitmapBlocksNeeded_of_overflow (by omega) (by omega)
  unfold layoutBitmapBlocks
  rw [layoutFrom, if_neg hplace, hzero, if_neg (by decide)]

end

end OwStorage.Usfs
