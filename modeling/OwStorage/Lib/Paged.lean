import OwStorage.Lib.Bytes

/-!
# ページに分けたバイトの並び

長さ `n` のページ `B 0, B 1, …` を続けて並べ、`size` バイトで切ったものを一つのバイトの並びとみる。ページの一部の
取り出しと書き換えを、通し番号のバイトについて述べる。
-/

namespace OwStorage.Lib

variable {n : Nat}

/-- 通し番号 `p` のバイト。 -/
def paged (B : Nat → Bytes n) (p : Nat) : UInt8 := (B (p / n))[p % n]?.getD 0

/-- `m` ページを続けて並べ、`size` バイトで切ったもの。 -/
def pages (B : Nat → Bytes n) (m size : Nat) : List UInt8 :=
  ((List.range m).flatMap fun i => (B i).toList).take size

/-- `old` の `off` バイト目から `w` を重ねたもの。 -/
def splice (old : List UInt8) (off : Nat) (w : List UInt8) : List UInt8 :=
  old.take off ++ w ++ old.drop (off + w.length)

section

variable {B B' : Nat → Bytes n} {m m' size size' p q off len : Nat} {w : List UInt8}

theorem getElem?_pages (hn : 0 < n) :
    (pages B m size)[p]? = if p < size ∧ p < m * n then some (paged B p) else none := by
  have hmod : p % n < n := Nat.mod_lt _ hn
  unfold pages paged
  rw [List.getElem?_take, Bytes.getElem?_flatMap_range B]
  by_cases hs : p < size
  · by_cases hm : p < m * n
    · rw [if_pos hs, if_pos hm, if_pos ⟨hs, hm⟩, Vector.getElem?_eq_getElem hmod, Option.getD_some]
    · rw [if_pos hs, if_neg hm, if_neg fun h => hm h.2]
  · rw [if_neg hs, if_neg fun h => hs h.1]

theorem pages_congr (h : ∀ i, i < m → B' i = B i) : pages B' m size = pages B m size := by
  unfold pages
  congr 1
  exact List.flatMap_congr fun i hi => by rw [h i (List.mem_range.mp hi)]

/-- 長さは、ページの全体に収まるかぎり `size` である。 -/
theorem length_pages (h : size ≤ m * n) : (pages B m size).length = size := by
  have hlen : ((List.range m).flatMap fun i => (B i).toList).length = m * n := by
    rw [List.length_flatMap]
    simp [Nat.mul_comm]
  unfold pages
  rw [List.length_take, hlen, Nat.min_eq_left h]

/-- 全体の一部を取り出す。 -/
theorem slice_pages (hn : 0 < n) (hm : size ≤ m * n) (h : off + len ≤ size) :
    ((pages B m size).drop off).take len = (List.range len).map fun j => paged B (off + j) := by
  apply List.ext_getElem?
  intro j
  rw [List.getElem?_take, List.getElem?_map]
  by_cases hj : j < len
  · rw [if_pos hj, List.getElem?_drop, getElem?_pages hn, if_pos (by omega), List.getElem?_range hj,
      Option.map_some]
  · rw [if_neg hj, List.getElem?_eq_none (by simp; omega), Option.map_none]

/-- 一つのページの一部を取り出す。 -/
theorem slice_eq_paged {k l : Nat} (h : k + l ≤ n) :
    (B q).slice k l = (List.range l).map fun j => paged B (q * n + k + j) := by
  apply List.ext_getElem?
  intro j
  rw [Bytes.getElem?_slice, List.getElem?_map]
  by_cases hj : j < l
  · have hpos : 0 < n := by omega
    have hdiv : (q * n + k + j) / n = q :=
      Nat.div_eq_of_lt_le (by omega) (by rw [Nat.succ_mul]; omega)
    have hmod : (q * n + k + j) % n = k + j := by
      rw [Nat.add_assoc, Nat.mul_add_mod_of_lt (by omega)]
    rw [if_pos hj, List.getElem?_range hj, Option.map_some, paged, hdiv, hmod,
      Vector.getElem?_eq_getElem (by omega), Option.getD_some]
  · rw [if_neg hj, List.getElem?_eq_none (by simp; omega), Option.map_none]

/-- ページ `q` の一部だけを書き換える。 -/
theorem paged_patch {C : Nat → Bytes n} (hn : 0 < n) (hfit : off + w.length ≤ n) (hq : C q = (B q).patch off w)
    (hp : p / n ≠ q → C (p / n) = B (p / n)) :
    paged C p = if q * n + off ≤ p ∧ p < q * n + off + w.length then
      w[p - (q * n + off)]?.getD 0 else paged B p := by
  have hdm := Nat.div_add_mod p n
  have hmod : p % n < n := Nat.mod_lt _ hn
  unfold paged
  by_cases hpq : p / n = q
  · rw [hpq, hq, Vector.getElem?_eq_getElem hmod, Vector.getElem?_eq_getElem hmod, Option.getD_some,
      Option.getD_some]
    rw [hpq, Nat.mul_comm] at hdm
    by_cases hin : q * n + off ≤ p ∧ p < q * n + off + w.length
    · have hsub : p - (q * n + off) = p % n - off := by omega
      rw [if_pos hin, Bytes.getElem_patch_mid hmod (by omega) (by omega), hsub,
        List.getElem?_eq_getElem (by omega), Option.getD_some]
    · rw [if_neg hin]
      by_cases hlo : p % n < off
      · exact Bytes.getElem_patch_of_lt hmod hlo
      · exact Bytes.getElem_patch_of_ge hmod (by omega)
  · rw [hp hpq, if_neg]
    rintro ⟨hlo, hhi⟩
    exact hpq (Nat.div_eq_of_lt_le (by omega) (by rw [Nat.succ_mul]; omega))

end

/-- 前の方のページだけを残した列は、元の列の先頭である。 -/
theorem pages_prefix {B B' : Nat → Bytes n} {m m' size size' : Nat} (hn : 0 < n) (hm : m' ≤ m) (hsize : size' ≤ size)
    (hfit : size' ≤ m' * n) (h : ∀ i, i < m' → B' i = B i) : pages B' m' size' = (pages B m size).take size' := by
  apply List.ext_getElem?
  intro p
  have hle : m' * n ≤ m * n := Nat.mul_le_mul_right n hm
  rw [List.getElem?_take, getElem?_pages hn, getElem?_pages hn]
  by_cases hp : p < size'
  · rw [if_pos (by omega), if_pos hp, if_pos (by omega)]
    unfold paged
    rw [h _ (Nat.div_lt_of_lt_mul (by rw [Nat.mul_comm]; omega))]
  · rw [if_neg (by omega), if_neg hp]

/-- 書いた範囲のほかが変わらず、大きさが書いた終わりまで伸びるなら、内容は重ね書きである。 -/
theorem pages_splice {B B' : Nat → Bytes n} {m m' size off : Nat} {w : List UInt8} (hn : 0 < n)
    (hm : size ≤ m * n) (hm' : max size (off + w.length) ≤ m' * n) (hoff : off ≤ size)
    (h : ∀ p, p < max size (off + w.length) →
      paged B' p = if off ≤ p ∧ p < off + w.length then w[p - off]?.getD 0 else paged B p) :
    pages B' m' (max size (off + w.length)) = splice (pages B m size) off w := by
  have hold : (pages B m size).length = size := length_pages hm
  apply List.ext_getElem?
  intro p
  rw [getElem?_pages hn]
  unfold splice
  by_cases h1 : p < off
  · rw [if_pos (by omega), h p (by omega), if_neg (by omega), List.append_assoc,
      List.getElem?_append_left (by rw [List.length_take, hold]; omega), List.getElem?_take_of_lt h1,
      getElem?_pages hn, if_pos (by omega)]
  · have htake : ((pages B m size).take off).length = off := by
      rw [List.length_take, hold]
      omega
    by_cases h2 : p < off + w.length
    · rw [if_pos (by omega), h p (by omega), if_pos (by omega), List.append_assoc,
        List.getElem?_append_right (by omega), htake, List.getElem?_append_left (by omega),
        List.getElem?_eq_getElem (by omega), Option.getD_some]
    · rw [List.getElem?_append_right (by rw [List.length_append, htake]; omega), List.length_append, htake,
        List.getElem?_drop, show off + w.length + (p - (off + w.length)) = p by omega, getElem?_pages hn]
      by_cases h3 : p < size
      · rw [if_pos (by omega), if_pos (by omega), h p (by omega), if_neg (by omega)]
      · rw [if_neg (by omega), if_neg (by omega)]

section

variable {B B' : Nat → Bytes n} {m m' size off : Nat} {w : List UInt8}

/-- ページの全体を越える大きさは、全体の大きさと同じである。 -/
theorem pages_min : pages B m (min size (m * n)) = pages B m size := by
  have hlen : ((List.range m).flatMap fun i => (B i).toList).length = m * n := by
    rw [List.length_flatMap]
    simp [Nat.mul_comm]
  unfold pages
  rw [← hlen, ← List.take_take, List.take_length]

/-- 書いた終わりで切った内容が重ね書きなら、前の内容は書く範囲の手前まで続いている。 -/
theorem le_of_pages_splice (hm' : off + w.length ≤ m' * n)
    (heq : pages B' m' (off + w.length) = splice (pages B m size) off w) : off ≤ min size (m * n) := by
  rw [← pages_min (B := B)] at heq
  have hlen := congrArg List.length heq
  unfold splice at hlen
  rw [length_pages hm', List.length_append, List.length_append, List.length_take, List.length_drop,
    length_pages (Nat.min_le_right _ _)] at hlen
  omega

/-- 前の終わりまで届く書き込みなら、書いた終わりで切った内容は重ね書きである。 -/
theorem pages_splice_end (hn : 0 < n) (hm' : off + w.length ≤ m' * n) (hsize : size ≤ off + w.length)
    (hoff : off ≤ min size (m * n)) (h : ∀ p, p < off + w.length → off ≤ p ∨ p < m * n →
      paged B' p = if off ≤ p ∧ p < off + w.length then w[p - off]?.getD 0 else paged B p) :
    pages B' m' (off + w.length) = splice (pages B m size) off w := by
  rw [← pages_min (B := B)]
  have hmax : max (min size (m * n)) (off + w.length) = off + w.length := Nat.max_eq_right (by omega)
  have hsplice := @pages_splice n B B' m m' (min size (m * n)) off w hn (Nat.min_le_right _ _)
    (by rw [hmax]; exact hm') hoff (by rw [hmax]; exact fun p hp => h p hp (by omega))
  rwa [hmax] at hsplice

end

end OwStorage.Lib
