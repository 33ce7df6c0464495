import Mathlib.Tactic

/-!
# バイトの並びと、記録の符号化

ブロックと記録はどちらも長さの決まったバイトの並びである。`slice` は一部の取り出し、`patch` は一部の
書き換え（`memcpy`）を表す。`Codec` は詰めて並べた C の構造体とバイトの並びの間の一対一の対応で、
往復の法則を自分の中に持つ。
-/

namespace OwStorage.Lib

/-- 長さ `n` のバイトの並び。 -/
abbrev Bytes (n : Nat) : Type := Vector UInt8 n

namespace Bytes

variable {n : Nat}

def zero (n : Nat) : Bytes n := Vector.replicate n 0

/-- 位置 `off` から `len` バイトを取り出す。終わりを越えた分は含まない。 -/
def slice (v : Bytes n) (off len : Nat) : List UInt8 := (v.toList.drop off).take len

/-- 各位置のバイトを `f` で与える。リストで持つので、カーネルでもそのまま計算できる。 -/
def build (n : Nat) (f : Nat → UInt8) : Bytes n := ⟨((List.range n).map f).toArray, by simp⟩

/-- 位置 `off` から `w` で上書きする。終わりを越えた分は捨てる。 -/
def patch (v : Bytes n) (off : Nat) (w : List UInt8) : Bytes n :=
  build n fun i => if off ≤ i then (w[i - off]?).getD (v[i]?.getD 0) else v[i]?.getD 0

def ofList (n : Nat) (l : List UInt8) : Bytes n := build n fun i => (l[i]?).getD 0

@[simp] theorem getElem_zero {i : Nat} (h : i < n) : (zero n)[i] = 0 := by simp [zero]

@[simp] theorem getElem_build {f : Nat → UInt8} {i : Nat} (h : i < n) : (build n f)[i] = f i := by
  simp [build]

theorem getElem_patch {v : Bytes n} {off : Nat} {w : List UInt8} {i : Nat} (h : i < n) :
    (v.patch off w)[i] = if off ≤ i then (w[i - off]?).getD v[i] else v[i] := by
  simp [patch, h]

theorem getElem_patch_of_lt {v : Bytes n} {off : Nat} {w : List UInt8} {i : Nat} (h : i < n)
    (hi : i < off) : (v.patch off w)[i] = v[i] := by
  rw [getElem_patch h, if_neg (by omega)]

theorem getElem_patch_of_ge {v : Bytes n} {off : Nat} {w : List UInt8} {i : Nat} (h : i < n)
    (hi : off + w.length ≤ i) : (v.patch off w)[i] = v[i] := by
  rw [getElem_patch h, if_pos (by omega), List.getElem?_eq_none (by omega), Option.getD_none]

theorem getElem_patch_mid {v : Bytes n} {off : Nat} {w : List UInt8} {i : Nat} (h : i < n)
    (hlo : off ≤ i) (hhi : i - off < w.length) : (v.patch off w)[i] = w[i - off] := by
  rw [getElem_patch h, if_pos hlo, List.getElem?_eq_getElem hhi, Option.getD_some]

@[simp] theorem length_slice (v : Bytes n) (off len : Nat) :
    (v.slice off len).length = min len (n - off) := by simp [slice]

theorem getElem?_slice (v : Bytes n) (off len i : Nat) :
    (v.slice off len)[i]? = if i < len then v[off + i]? else none := by
  simp only [slice, List.getElem?_take, List.getElem?_drop]
  by_cases hi : i < len
  · simp only [hi, ↓reduceIte]
    rw [Vector.getElem?_toList]
  · simp [hi]

theorem slice_patch_same {v : Bytes n} {k : Nat} {w : List UInt8} (h : k + w.length ≤ n) :
    (v.patch k w).slice k w.length = w := by
  apply List.ext_getElem?
  intro i
  rw [getElem?_slice]
  by_cases hi : i < w.length
  · have hin : k + i < n := by omega
    have hsub : k + i - k = i := by omega
    rw [if_pos hi, Vector.getElem?_eq_getElem hin, getElem_patch_mid hin (by omega) (by omega),
      List.getElem?_eq_getElem hi]
    simp only [hsub]
  · rw [if_neg hi, List.getElem?_eq_none (by omega)]

theorem slice_patch_disjoint {v : Bytes n} {off off' len : Nat} {w : List UInt8}
    (h : off + len ≤ off' ∨ off' + w.length ≤ off) :
    (v.patch off' w).slice off len = v.slice off len := by
  apply List.ext_getElem?
  intro i
  rw [getElem?_slice, getElem?_slice]
  by_cases hi : i < len
  · rw [if_pos hi, if_pos hi]
    by_cases hin : off + i < n
    · rw [Vector.getElem?_eq_getElem hin, Vector.getElem?_eq_getElem hin]
      rcases h with h | h
      · rw [getElem_patch_of_lt hin (by omega)]
      · rw [getElem_patch_of_ge hin (by omega)]
    · rw [Vector.getElem?_eq_none (by omega), Vector.getElem?_eq_none (by omega)]
  · rw [if_neg hi, if_neg hi]

/-- 取り出す範囲の中だけを書き換える。 -/
theorem slice_patch_inside {v : Bytes n} {off k len : Nat} {w : List UInt8} (hk : k + w.length ≤ len)
    (hlen : off + len ≤ n) : (v.patch (off + k) w).slice off len =
      (v.slice off len).take k ++ (w ++ (v.slice off len).drop (k + w.length)) := by
  apply List.ext_getElem?
  intro i
  have hsize : (v.slice off len).length = len := by
    rw [length_slice]
    omega
  rw [getElem?_slice, List.getElem?_append, List.length_take, hsize, Nat.min_eq_left (by omega)]
  by_cases hi : i < len
  · have hin : off + i < n := by omega
    rw [if_pos hi, Vector.getElem?_eq_getElem hin]
    by_cases hlo : i < k
    · rw [if_pos hlo, List.getElem?_take, if_pos hlo, getElem?_slice, if_pos hi, Vector.getElem?_eq_getElem hin,
        getElem_patch_of_lt hin (by omega)]
    · rw [if_neg hlo, List.getElem?_append]
      by_cases hhi : i - k < w.length
      · have hsub : off + i - (off + k) = i - k := by omega
        rw [if_pos hhi, getElem_patch_mid hin (by omega) (by omega), List.getElem?_eq_getElem hhi]
        simp only [hsub]
      · rw [if_neg hhi, List.getElem?_drop, show k + w.length + (i - k - w.length) = i by omega, getElem?_slice,
          if_pos hi, Vector.getElem?_eq_getElem hin, getElem_patch_of_ge hin (by omega)]
  · rw [if_neg hi, if_neg (by omega), List.getElem?_append_right (by omega), List.getElem?_drop, getElem?_slice,
      if_neg (by omega)]

@[simp] theorem ofList_toList (v : Bytes n) : ofList n v.toList = v := by
  ext i hi
  simp [ofList, hi]

theorem toList_ofList {l : List UInt8} (h : l.length = n) : (ofList n l).toList = l := by
  apply List.ext_getElem?
  intro i
  rw [Vector.getElem?_toList]
  by_cases hi : i < n
  · rw [Vector.getElem?_eq_getElem hi, List.getElem?_eq_getElem (by omega)]
    simp [ofList, List.getElem?_eq_getElem (show i < l.length by omega)]
  · rw [Vector.getElem?_eq_none (by omega), List.getElem?_eq_none (by omega)]

/-- 全体を書き換える。 -/
theorem patch_full {v : Bytes n} {w : List UInt8} (h : w.length = n) : v.patch 0 w = ofList n w := by
  ext i hi
  rw [getElem_patch_mid hi (by omega) (by omega)]
  simp [ofList, List.getElem?_eq_getElem (show i < w.length by omega)]

/-- 続けて並べた `m` 個の並びの、通し番号 `p` のバイト。 -/
theorem getElem?_flatMap_range (B : Nat → Bytes n) (m p : Nat) :
    ((List.range m).flatMap fun i => (B i).toList)[p]? =
      if p < m * n then (B (p / n))[p % n]? else none := by
  have hlen : ∀ m, ((List.range m).flatMap fun i => (B i).toList).length = m * n := by
    intro m
    rw [List.length_flatMap]
    simp [Nat.mul_comm]
  induction m with
  | zero => simp
  | succ m ih =>
      rw [List.range_succ, List.flatMap_append]
      simp only [List.flatMap_cons, List.flatMap_nil, List.append_nil]
      by_cases hp : p < m * n
      · rw [List.getElem?_append_left (by rw [hlen]; exact hp), ih, if_pos hp,
          if_pos (lt_of_lt_of_le hp (Nat.mul_le_mul_right _ (Nat.le_succ _)))]
      · rw [List.getElem?_append_right (by rw [hlen]; omega), hlen, Vector.getElem?_toList]
        by_cases hq : p < (m + 1) * n
        · have hsub : p - m * n < n := by
            rw [Nat.succ_mul] at hq
            omega
          have hdiv : p / n = m := Nat.div_eq_of_lt_le (by omega) hq
          have hmod : p % n = p - m * n := by
            have := Nat.div_add_mod p n
            rw [hdiv, Nat.mul_comm] at this
            omega
          rw [if_pos hq, hdiv, hmod]
        · rw [if_neg hq, Vector.getElem?_eq_none (by rw [Nat.succ_mul] at hq; omega)]

end Bytes

/-! ## 符号化 -/

/-- 値と、長さ `size` のバイトの並びとの一対一の対応。 -/
structure Codec (α : Type) where
  size : Nat
  enc : α → List UInt8
  dec : List UInt8 → α
  length_enc : ∀ a, (enc a).length = size
  dec_enc : ∀ a, dec (enc a) = a
  enc_dec : ∀ bs, bs.length = size → enc (dec bs) = bs

namespace Codec

variable {α β : Type}

/-- 二つの値を続けて並べる。 -/
def pair (c : Codec α) (d : Codec β) : Codec (α × β) where
  size := c.size + d.size
  enc p := c.enc p.1 ++ d.enc p.2
  dec bs := (c.dec (bs.take c.size), d.dec (bs.drop c.size))
  length_enc p := by rw [List.length_append, c.length_enc, d.length_enc]
  dec_enc p := by
    rw [List.take_left' (c.length_enc _), List.drop_left' (c.length_enc _), c.dec_enc, d.dec_enc]
  enc_dec bs h := by
    rw [c.enc_dec _ (by rw [List.length_take]; omega), d.enc_dec _ (by rw [List.length_drop]; omega),
      List.take_append_drop]

/-- 一対一の対応で型を読み替える。 -/
def iso (e : α ≃ β) (c : Codec β) : Codec α where
  size := c.size
  enc a := c.enc (e a)
  dec bs := e.symm (c.dec bs)
  length_enc a := c.length_enc _
  dec_enc a := by rw [c.dec_enc, e.symm_apply_apply]
  enc_dec bs h := by rw [e.apply_symm_apply, c.enc_dec bs h]

/-- そのままのバイトの並び。 -/
def raw (n : Nat) : Codec (Bytes n) where
  size := n
  enc v := v.toList
  dec bs := Bytes.ofList n bs
  length_enc v := v.length_toList
  dec_enc v := Bytes.ofList_toList v
  enc_dec _ h := Bytes.toList_ofList h

/-! ### 整数（下の桁から並べる） -/

/-- `n` の下の `w` バイト。 -/
def leEnc : Nat → Nat → List UInt8
  | 0, _ => []
  | w + 1, n => UInt8.ofNat n :: leEnc w (n / 256)

def leDec : List UInt8 → Nat
  | [] => 0
  | b :: bs => b.toNat + 256 * leDec bs

theorem length_leEnc (w n : Nat) : (leEnc w n).length = w := by
  induction w generalizing n with
  | zero => rfl
  | succ w ih => simp [leEnc, ih]

theorem leDec_lt (bs : List UInt8) : leDec bs < 256 ^ bs.length := by
  induction bs with
  | nil => simp [leDec]
  | cons b bs ih =>
      have hb := b.toNat_lt
      simp only [leDec, List.length_cons, Nat.pow_succ]
      omega

theorem leDec_leEnc (w : Nat) : ∀ n, n < 256 ^ w → leDec (leEnc w n) = n := by
  induction w with
  | zero => intro n h; simp only [leEnc, leDec]; omega
  | succ w ih =>
      intro n h
      rw [Nat.pow_succ] at h
      simp only [leEnc, leDec, UInt8.toNat_ofNat']
      rw [ih (n / 256) (by omega)]
      omega

theorem leEnc_leDec (bs : List UInt8) : leEnc bs.length (leDec bs) = bs := by
  induction bs with
  | nil => rfl
  | cons b bs ih =>
      have hb := b.toNat_lt
      simp only [List.length_cons, leDec, leEnc]
      have hdiv : (b.toNat + 256 * leDec bs) / 256 = leDec bs := by omega
      have hhead : UInt8.ofNat (b.toNat + 256 * leDec bs) = b := by
        apply UInt8.toNat_inj.mp
        rw [UInt8.toNat_ofNat']
        omega
      rw [hdiv, hhead, ih]

/-- `2 ^ (8 * w)` 未満の自然数と対応する型の符号化。 -/
def le (w : Nat) (toNat : α → Nat) (ofNat : Nat → α) (hlt : ∀ a, toNat a < 256 ^ w)
    (hof : ∀ a, ofNat (toNat a) = a) (hto : ∀ n, n < 256 ^ w → toNat (ofNat n) = n) : Codec α where
  size := w
  enc a := leEnc w (toNat a)
  dec bs := ofNat (leDec bs)
  length_enc a := length_leEnc w _
  dec_enc a := by rw [leDec_leEnc w _ (hlt a), hof]
  enc_dec bs h := by
    subst h
    rw [hto _ (leDec_lt bs), leEnc_leDec]

def u8 : Codec UInt8 :=
  le 1 UInt8.toNat UInt8.ofNat (fun a => a.toNat_lt) (fun _ => UInt8.ofNat_toNat)
    (fun _ h => UInt8.toNat_ofNat_of_lt' h)

def u16 : Codec UInt16 :=
  le 2 UInt16.toNat UInt16.ofNat (fun a => a.toNat_lt) (fun _ => UInt16.ofNat_toNat)
    (fun _ h => UInt16.toNat_ofNat_of_lt' h)

def u32 : Codec UInt32 :=
  le 4 UInt32.toNat UInt32.ofNat (fun a => a.toNat_lt) (fun _ => UInt32.ofNat_toNat)
    (fun _ h => UInt32.toNat_ofNat_of_lt' h)

def u64 : Codec UInt64 :=
  le 8 UInt64.toNat UInt64.ofNat (fun a => a.toNat_lt) (fun _ => UInt64.ofNat_toNat)
    (fun _ h => UInt64.toNat_ofNat_of_lt' h)

/-! ### 配列 -/

/-- 前から `n` 個の値を読む。 -/
def decList (c : Codec α) : Nat → List UInt8 → List α
  | 0, _ => []
  | n + 1, bs => c.dec (bs.take c.size) :: decList c n (bs.drop c.size)

theorem length_decList (c : Codec α) (n : Nat) : ∀ bs, (decList c n bs).length = n := by
  induction n with
  | zero => intro bs; rfl
  | succ n ih => intro bs; simp [decList, ih]

theorem length_flatMap_enc (c : Codec α) (l : List α) :
    (l.flatMap c.enc).length = l.length * c.size := by
  induction l with
  | nil => simp
  | cons a l ih => simp [c.length_enc, ih, Nat.add_mul, Nat.add_comm]

theorem decList_flatMap (c : Codec α) (l : List α) : decList c l.length (l.flatMap c.enc) = l := by
  induction l with
  | nil => rfl
  | cons a l ih =>
      simp only [List.length_cons, decList, List.flatMap_cons]
      rw [List.take_left' (c.length_enc a), List.drop_left' (c.length_enc a), c.dec_enc, ih]

theorem flatMap_decList (c : Codec α) (n : Nat) :
    ∀ bs, bs.length = n * c.size → (decList c n bs).flatMap c.enc = bs := by
  induction n with
  | zero => intro bs h; simp at h; simp [decList, h]
  | succ n ih =>
      intro bs h
      rw [Nat.add_mul, Nat.one_mul] at h
      simp only [decList, List.flatMap_cons]
      rw [c.enc_dec _ (by rw [List.length_take]; omega), ih _ (by rw [List.length_drop]; omega),
        List.take_append_drop]

/-- 同じ型の値を `n` 個並べる。 -/
def vec (c : Codec α) (n : Nat) : Codec (Vector α n) where
  size := n * c.size
  enc v := v.toList.flatMap c.enc
  dec bs := ⟨(decList c n bs).toArray, by rw [List.size_toArray, length_decList]⟩
  length_enc v := by rw [length_flatMap_enc, Vector.length_toList]
  dec_enc v := by
    have h := decList_flatMap c v.toList
    rw [Vector.length_toList] at h
    apply Vector.toList_inj.mp
    exact h
  enc_dec bs h := by
    simpa [Vector.toList] using flatMap_decList c n bs h

end Codec

end OwStorage.Lib
