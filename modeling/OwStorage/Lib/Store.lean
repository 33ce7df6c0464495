import OwStorage.Lib.Paged
import OwStorage.Lib.Refine

/-!
# バイト列の保管庫

名前ごとに一つのバイト列を持つ保管庫。位置を決めて書き、大きさを変える。前の終わりより先に書いたときの間の中身は決めない。
-/

namespace OwStorage.Lib

/-- 名前からバイト列への部分写像。 -/
abbrev Store (ι : Type) : Type := ι → Option (List UInt8)

/-- 位置 `off` に `w` を置き、その終わりで切る。前の終わりと `off` の間に何が入るかは決めない。 -/
def Cut (old : List UInt8) (off : Nat) (w new : List UInt8) : Prop :=
  ∃ gap : List UInt8, gap.length = off - old.length ∧ new = old.take off ++ gap ++ w

section

variable {old w new : List UInt8} {off : Nat}

/-- 終わりに置けば、後ろに足すことになる。 -/
theorem Cut.append (h : Cut old old.length w new) : new = old ++ w := by
  obtain ⟨gap, hgap, rfl⟩ := h
  rw [Nat.sub_self] at hgap
  rw [List.length_eq_zero_iff.mp hgap, List.take_length, List.append_nil]

/-- 手前の部分と、置いた部分が合えば、`Cut` である。 -/
theorem cut_of_getElem (hlen : new.length = off + w.length) (hold : ∀ p, p < off → p < old.length → new[p]? = old[p]?)
    (hw : ∀ j, j < w.length → new[off + j]? = w[j]?) : Cut old off w new := by
  refine ⟨(new.take off).drop old.length, ?_, ?_⟩
  · simp [hlen]
  · refine List.ext_getElem? fun p => ?_
    by_cases h1 : p < off
    · rw [List.append_assoc]
      by_cases h2 : p < old.length
      · rw [List.getElem?_append_left (by simp; omega), List.getElem?_take_of_lt h1, hold p h1 h2]
      · rw [List.getElem?_append_right (by simp; omega), List.getElem?_append_left (by simp; omega), List.getElem?_drop,
          List.getElem?_take_of_lt (by simp; omega)]
        congr 1
        simp
        omega
    · have hpre : (old.take off ++ (new.take off).drop old.length).length = off := by
        simp [hlen]
        omega
      rw [List.getElem?_append_right (by omega), hpre]
      by_cases h2 : p - off < w.length
      · rw [← hw (p - off) h2, Nat.add_sub_cancel' (Nat.le_of_not_lt h1)]
      · rw [List.getElem?_eq_none (by omega), List.getElem?_eq_none (by omega)]

/-- ページに分けて持つ内容では、書いた範囲のほかが変わらなければ、書いた終わりで切ったものは `Cut` である。 -/
theorem cut_pages {n m m' size : Nat} {B B' : Nat → Bytes n} (hn : 0 < n) (hm : off + w.length ≤ m' * n)
    (h : ∀ p, p < off + w.length →
      paged B' p = if off ≤ p ∧ p < off + w.length then w[p - off]?.getD 0 else paged B p) :
    Cut (pages B m size) off w (pages B' m' (off + w.length)) := by
  have hlen : (pages B' m' (off + w.length)).length = off + w.length := length_pages hm
  refine cut_of_getElem hlen (fun p hp hold => ?_) fun j hj => ?_
  · have hin : p < size ∧ p < m * n := by
      by_contra hno
      have hnone := List.getElem?_eq_getElem hold
      rw [getElem?_pages hn, if_neg hno] at hnone
      cases hnone
    rw [getElem?_pages hn, getElem?_pages hn, if_pos (by omega), if_pos hin, h p (by omega), if_neg (by omega)]
  · rw [getElem?_pages hn, if_pos (by omega), h _ (by omega), if_pos (by omega), Nat.add_sub_cancel_left,
      List.getElem?_eq_getElem hj, Option.getD_some]

end

/-! ## 重ね書き -/

/-- 位置 `off` に `w` を重ねる。前の終わりと `off` の間に何が入るかは決めない。 -/
def Overlaid (old : List UInt8) (off : Nat) (w new : List UInt8) : Prop :=
  ∃ gap : List UInt8, gap.length = off - old.length ∧ new = splice (old ++ gap) off w

section

variable {old w new : List UInt8} {off : Nat}

/-- 前の終わりまでに重ね始めれば、間は空かず、結果は一通りに定まる。 -/
theorem Overlaid.eq_splice (h : Overlaid old off w new) (hoff : off ≤ old.length) : new = splice old off w := by
  obtain ⟨gap, hgap, rfl⟩ := h
  rw [Nat.sub_eq_zero_of_le hoff] at hgap
  rw [List.length_eq_zero_iff.mp hgap, List.append_nil]

/-- 何も重ねない。 -/
theorem splice_nil (old : List UInt8) (off : Nat) : splice old off [] = old := by
  unfold splice
  simp

/-- 重ねた範囲と、その外の前の部分が合えば、`Overlaid` である。 -/
theorem overlaid_of_getElem (hlen : new.length = max old.length (off + w.length))
    (hold : ∀ p, p < old.length → ¬ (off ≤ p ∧ p < off + w.length) → new[p]? = old[p]?)
    (hw : ∀ j, j < w.length → new[off + j]? = w[j]?) : Overlaid old off w new := by
  have hgap : ((new.take off).drop old.length).length = off - old.length := by
    rw [List.length_drop, List.length_take]
    omega
  refine ⟨(new.take off).drop old.length, hgap, List.ext_getElem? fun p => ?_⟩
  have hjoin : ∀ p, ¬ (off ≤ p ∧ p < off + w.length) → (old ++ (new.take off).drop old.length)[p]? = new[p]? := by
    intro p hp
    by_cases h1 : p < old.length
    · rw [List.getElem?_append_left h1, hold p h1 hp]
    · rw [List.getElem?_append_right (by omega)]
      by_cases h2 : p < off
      · rw [List.getElem?_drop, List.getElem?_take_of_lt (by omega), Nat.add_sub_cancel' (by omega)]
      · rw [List.getElem?_eq_none (by omega), List.getElem?_eq_none (by omega)]
  have htake : ((old ++ (new.take off).drop old.length).take off).length = off := by
    rw [List.length_take, List.length_append, hgap]
    omega
  unfold splice
  by_cases h1 : p < off
  · rw [List.append_assoc, List.getElem?_append_left (by omega), List.getElem?_take_of_lt h1, hjoin p (by omega)]
  · by_cases h2 : p < off + w.length
    · rw [List.append_assoc, List.getElem?_append_right (by omega), htake, List.getElem?_append_left (by omega),
        ← hw (p - off) (by omega), Nat.add_sub_cancel' (by omega)]
    · rw [List.getElem?_append_right (by rw [List.length_append]; omega), List.length_append, htake, List.getElem?_drop,
        Nat.add_sub_cancel' (by omega), hjoin p (by omega)]

/-- ページに分けて持つ内容では、書いた範囲に書いたものが入り、ほかの前の部分が変わらなければ、`Overlaid` である。 -/
theorem overlaid_pages {n m m' size : Nat} {B B' : Nat → Bytes n} (hn : 0 < n) (hm : size ≤ m * n)
    (hm' : max size (off + w.length) ≤ m' * n)
    (hold : ∀ p, p < size → ¬ (off ≤ p ∧ p < off + w.length) → paged B' p = paged B p)
    (hw : ∀ p, off ≤ p → p < off + w.length → paged B' p = w[p - off]?.getD 0) :
    Overlaid (pages B m size) off w (pages B' m' (max size (off + w.length))) := by
  have hlen : (pages B m size).length = size := length_pages hm
  refine overlaid_of_getElem ?_ (fun p hp hout => ?_) fun j hj => ?_
  · rw [length_pages hm', hlen]
  · rw [hlen] at hp
    rw [getElem?_pages hn, getElem?_pages hn, if_pos (by omega), if_pos (by omega), hold p hp hout]
  · rw [getElem?_pages hn, if_pos (by omega), hw _ (by omega) (by omega), Nat.add_sub_cancel_left,
      List.getElem?_eq_getElem hj, Option.getD_some]

end

end OwStorage.Lib
