import OwStorage.Usfs.Lemmas.Layout

/-!
# 配置がデータ領域を覆う大きさ
-/

namespace OwStorage.Usfs

open Lib

/-- `b` ブロックのビットマップを持つ配置は、空でないデータ領域の全体を覆い、割り当てと解放の使うビットマップのブロックは
どれもデータ領域の手前にある。 -/
structure CoversData (total b : UInt32) : Prop where
  pos : 1 ≤ b.toNat
  dataStart : ∀ label nonce, (freshSuperblock total b label nonce).dataRegionStart.toNat = 17 + b.toNat
  nonempty : 17 + b.toNat < total.toNat
  enough : total.toNat - 17 - b.toNat ≤ b.toNat * 32768
  addressed : ∀ label nonce (rel : UInt32),
    rel < dataBlockCount (freshSuperblock total b label nonce) →
    17 ≤ ((freshSuperblock total b label nonce).bitmapStartBlock + rel / bitsPerBlock).toNat ∧
      ((freshSuperblock total b label nonce).bitmapStartBlock + rel / bitsPerBlock).toNat < 17 + b.toNat

section

variable {total b : UInt32}

theorem CoversData.mk' (hpos : 1 ≤ b.toNat) (hne : 17 + b.toNat < total.toNat)
    (henough : total.toNat - 17 - b.toNat ≤ b.toNat * 32768) : CoversData total b := by
  have htot := total.toNat_lt
  have h17 : (17 : UInt32).toNat = 17 := rfl
  have hbits : bitsPerBlock.toNat = 32768 := rfl
  have hstart : (17 + b).toNat = 17 + b.toNat := by
    rw [toNat_add_lt (by omega), h17]
  refine ⟨hpos, fun _ _ => hstart, hne, henough, fun label nonce rel hrel => ?_⟩
  have hrel : rel.toNat < total.toNat - (17 + b.toNat) := by
    have hlt := UInt32.lt_iff_toNat_lt.mp hrel
    change rel.toNat < (total - (17 + b)).toNat at hlt
    rwa [toNat_sub_le (by omega), hstart] at hlt
  have hq : (rel / bitsPerBlock).toNat < b.toNat := by
    rw [UInt32.toNat_div, hbits]
    exact Nat.div_lt_of_lt_mul (by omega)
  change 17 ≤ (17 + rel / bitsPerBlock).toNat ∧ (17 + rel / bitsPerBlock).toNat < 17 + b.toNat
  rw [toNat_add_lt (by omega), h17]
  omega

/-- 計算された配置が全体を覆うなら、切り上げの加算は溢れていない。 -/
theorem CoversData.fit (h : CoversData total b) (hb : layoutBitmapBlocks total = some b) :
    total.toNat < 2 ^ 32 - 32749 := by
  by_contra hover
  rw [layoutBitmapBlocks_of_overflow (by omega), Option.some.injEq] at hb
  have henough := h.enough
  rw [← hb] at henough
  change total.toNat - 17 - 1 ≤ 1 * 32768 at henough
  omega

end

/-- 配置の計算が終わって全体を覆うのは、切り上げの加算が溢れない大きさのとき、かつそのときに限る。 -/
theorem layout_covers_iff {total : UInt32} (h : 19 ≤ total) :
    (∃ b, layoutBitmapBlocks total = some b ∧ CoversData total b) ↔ total.toNat < 2 ^ 32 - 32749 := by
  have hlow : 19 ≤ total.toNat := UInt32.le_iff_toNat_le.mp h
  constructor
  · rintro ⟨b, hb, hcovers⟩
    exact hcovers.fit hb
  · intro hfit
    obtain ⟨b, hb, hpos, hne, henough⟩ := layoutBitmapBlocks_of_fit hlow hfit
    exact ⟨b, hb, .mk' hpos hne henough⟩

theorem layout_covers_small : 19 ≤ (280 : UInt32) ∧ ∃ b, layoutBitmapBlocks 280 = some b ∧ CoversData 280 b :=
  ⟨by decide, (layout_covers_iff (by decide)).mpr (by decide)⟩

/-- 最大の大きさでは、ビットマップは一ブロックで終わり、データ領域を覆わない。 -/
theorem layout_of_max_too_small :
    ¬ ∀ total : UInt32, 19 ≤ total → ∃ b, layoutBitmapBlocks total = some b ∧ CoversData total b := by
  intro hall
  obtain ⟨b, hb, hcovers⟩ := hall 0xFFFFFFFF (by decide)
  rw [layoutBitmapBlocks_of_overflow (by decide), Option.some.injEq] at hb
  have henough := hcovers.enough
  rw [← hb] at henough
  exact absurd henough (by decide)

end OwStorage.Usfs
