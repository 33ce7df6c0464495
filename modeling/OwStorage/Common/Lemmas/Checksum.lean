import OwStorage.Common.Checksum
import OwStorage.Lib.Crc

/-!
# 記録の検査値が見つける違い

検査値の欄を除いた記録の、続いた 4 バイトまでの違いは、必ず検査値を変える。
-/

namespace OwStorage

open Lib

/-- 検査値の欄を 0 とみなした並び。`k` は先頭のバイトの位置である。 -/
def maskField (off : Nat) (l : List UInt8) (k : Nat) : List UInt8 :=
  (l.zipIdx k).map fun p => if off ≤ p.2 ∧ p.2 < off + 4 then 0 else p.1

theorem maskField_append (off : Nat) (l l' : List UInt8) (k : Nat) :
    maskField off (l ++ l') k = maskField off l k ++ maskField off l' (k + l.length) := by
  unfold maskField
  rw [List.zipIdx_append, List.map_append, Nat.add_comm]

theorem maskField_of_le (off : Nat) (l : List UInt8) : ∀ k, k + l.length ≤ off → maskField off l k = l := by
  induction l with
  | nil => intro k _; rfl
  | cons b l ih =>
      intro k hk
      simp only [List.length_cons] at hk
      have htail := ih (k + 1) (by omega)
      unfold maskField at htail ⊢
      rw [List.zipIdx_cons, List.map_cons, htail, if_neg (by omega)]

theorem owCrc32c_eq (initial : UInt32) (data : List UInt8) :
    owCrc32c initial data = ~~~ data.foldl (crcByte 0x82F63B78) (~~~ initial) := by
  unfold owCrc32c
  rfl

/-- 反転は継ぎ目で打ち消し合うので、区切って続けても同じである。 -/
theorem owCrc32c_append (initial : UInt32) (l m : List UInt8) :
    owCrc32c initial (l ++ m) = owCrc32c (owCrc32c initial l) m := by
  rw [owCrc32c_eq, owCrc32c_eq, owCrc32c_eq, List.foldl_append, UInt32.not_not]

theorem owCrc32c_nil (initial : UInt32) : owCrc32c initial [] = initial := by
  rw [owCrc32c_eq, List.foldl_nil, UInt32.not_not]

theorem owCrc32cStruct_eq (data : List UInt8) (off : Nat) :
    owCrc32cStruct data off = ~~~ (maskField off data 0).foldl (crcByte 0x82F63B78) 0xFFFFFFFF := by
  unfold owCrc32cStruct maskField
  rw [List.foldl_map]
  rfl

/-- 欄より前の、続いた 4 バイトまでを書き換えると、検査値は変わる。 -/
theorem owCrc32cStruct_burst {w w' : List UInt8} (pre post : List UInt8) (off : Nat) (hlen : w'.length = w.length)
    (hw : w.length ≤ 4) (hoff : pre.length + w.length ≤ off) (hne : w' ≠ w) :
    owCrc32cStruct (pre ++ (w' ++ post)) off ≠ owCrc32cStruct (pre ++ (w ++ post)) off := by
  rw [owCrc32cStruct_eq, owCrc32cStruct_eq]
  intro h
  rw [UInt32.not_inj] at h
  simp only [maskField_append, Nat.zero_add, hlen] at h
  rw [maskField_of_le off w' pre.length (by omega), maskField_of_le off w pre.length hoff] at h
  exact crc_burst (by decide) hlen hw hne _ h

end OwStorage
