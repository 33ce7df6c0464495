import OwStorage.Common.Crypto

/-!
# ChaCha20 の排他的論理和の性質

位置 `p` のバイトには、`p / 64` だけ進んだカウンタの鍵の流れの、`p % 64` 番目のバイトが掛かる。二度掛けると元に戻る
ことも、64 バイトの境で分けられることも、ここから出る。
-/

namespace OwStorage

open Lib

variable {key nonce : List UInt8}

theorem length_owChacha20Block (counter : UInt32) : (owChacha20Block counter key nonce).length = 64 := by
  unfold owChacha20Block
  rw [List.length_flatMap]
  have hfour : ((Vector.zipWith (· + ·) (chachaRound^[10] (chachaInitState counter key nonce))
      (chachaInitState counter key nonce)).toList.map fun a => (store32Le a).length) =
      List.replicate 16 4 := by
    rw [List.eq_replicate_iff]
    refine ⟨by simp, fun b hb => ?_⟩
    obtain ⟨a, _, rfl⟩ := List.mem_map.mp hb
    rfl
  rw [hfour]
  rfl

theorem length_chachaXorLoop (n : Nat) : ∀ (counter : UInt32) (data : List UInt8),
    (chachaXorLoop key nonce n counter data).1.length = data.length := by
  induction n with
  | zero => intro counter data; rfl
  | succ n ih =>
      intro counter data
      unfold chachaXorLoop
      by_cases h : data = []
      · simp [h]
      · simp only [h, ↓reduceIte, List.length_append, ih, List.length_zipWith, List.length_take,
          List.length_drop, length_owChacha20Block]
        omega

@[simp] theorem length_owChacha20Xor (counter : UInt32) (data : List UInt8) :
    (owChacha20Xor counter key nonce data).length = data.length :=
  length_chachaXorLoop _ _ _

/-! ## 位置ごとの排他的論理和 -/

theorem mod_lt_owChacha20Block (counter : UInt32) (p : Nat) :
    p % 64 < (owChacha20Block counter key nonce).length := by
  rw [length_owChacha20Block]
  exact Nat.mod_lt p (by decide)

/-- 位置 `p` のバイトに掛かる、鍵の流れのバイト。 -/
def keystreamByte (counter : UInt32) (key nonce : List UInt8) (p : Nat) : UInt8 :=
  (owChacha20Block (counter + UInt32.ofNat (p / 64)) key nonce)[p % 64]?.getD 0

/-- 64 バイト進むと、カウンタが 1 増えた鍵の流れの先頭に当たる。 -/
theorem keystreamByte_succ (counter : UInt32) (p : Nat) :
    keystreamByte counter key nonce (p + 64) = keystreamByte (counter + 1) key nonce p := by
  have hdiv : (p + 64) / 64 = p / 64 + 1 := by omega
  have hmod : (p + 64) % 64 = p % 64 := by omega
  unfold keystreamByte
  rw [hdiv, hmod, UInt32.ofNat_add, UInt32.add_assoc, UInt32.add_comm 1]
  rfl

theorem keystreamByte_add (counter : UInt32) (m : Nat) : ∀ p : Nat,
    keystreamByte counter key nonce (64 * m + p) = keystreamByte (counter + UInt32.ofNat m) key nonce p := by
  intro p
  have hdiv : (64 * m + p) / 64 = m + p / 64 := by omega
  have hmod : (64 * m + p) % 64 = p % 64 := by omega
  unfold keystreamByte
  rw [hdiv, hmod, UInt32.ofNat_add, UInt32.add_assoc]

theorem getElem?_chunk {counter : UInt32} {data : List UInt8} {p : Nat} (hp : p < 64) :
    (List.zipWith (· ^^^ ·) (data.take 64) (owChacha20Block counter key nonce))[p]? =
      data[p]?.map (· ^^^ keystreamByte counter key nonce p) := by
  have hdiv : p / 64 = 0 := by omega
  have hmod : p % 64 = p := by omega
  have hk : p < (owChacha20Block counter key nonce).length := by rw [length_owChacha20Block]; exact hp
  rw [keystreamByte, hdiv, hmod]
  by_cases hd : p < data.length
  · simp [List.getElem?_zipWith, hp, hd, List.getElem?_eq_getElem hk]
  · simp [List.getElem?_zipWith, hp, List.getElem?_eq_none (Nat.not_lt.mp hd)]

theorem getElem?_chachaXorLoop (n : Nat) : ∀ (counter : UInt32) (data : List UInt8) (p : Nat),
    data.length ≤ n → (chachaXorLoop key nonce n counter data).1[p]? =
      data[p]?.map (· ^^^ keystreamByte counter key nonce p) := by
  induction n with
  | zero =>
      intro counter data p hn
      have hnil : data = [] := List.eq_nil_of_length_eq_zero (by omega)
      simp [chachaXorLoop, hnil]
  | succ n ih =>
      intro counter data p hn
      by_cases h : data = []
      · simp [chachaXorLoop, h]
      · have hpos : 0 < data.length := List.length_pos_iff.mpr h
        have hchunk : (List.zipWith (· ^^^ ·) (data.take 64) (owChacha20Block counter key nonce)).length
            = min 64 data.length := by
          simp [length_owChacha20Block]
        simp only [chachaXorLoop, h, ↓reduceIte]
        by_cases hp : p < 64
        · -- 最初の 64 バイト。データが短ければ、残りの並びも空である。
          by_cases hd : p < data.length
          · rw [List.getElem?_append_left (by omega), getElem?_chunk hp]
          · rw [List.getElem?_append_right (by omega), ih _ _ _ (by rw [List.length_drop]; omega),
              List.getElem?_drop, List.getElem?_eq_none (by omega), List.getElem?_eq_none (Nat.not_lt.mp hd),
              Option.map_none, Option.map_none]
        · obtain ⟨q, rfl⟩ : ∃ q, p = q + 64 := ⟨p - 64, by omega⟩
          by_cases hd : 64 ≤ data.length
          · rw [List.getElem?_append_right (by omega), hchunk, Nat.min_eq_left hd, Nat.add_sub_cancel,
              ih _ _ _ (by rw [List.length_drop]; omega), List.getElem?_drop, keystreamByte_succ, Nat.add_comm 64]
          · rw [List.getElem?_append_right (by omega), ih _ _ _ (by rw [List.length_drop]; omega),
              List.getElem?_drop, List.getElem?_eq_none (by omega), List.getElem?_eq_none (by omega),
              Option.map_none, Option.map_none]

/-- 位置 `p` のバイトは、その位置の鍵の流れのバイトとの排他的論理和になる。 -/
theorem getElem?_owChacha20Xor (counter : UInt32) (data : List UInt8) (p : Nat) :
    (owChacha20Xor counter key nonce data)[p]? =
      data[p]?.map (· ^^^ keystreamByte counter key nonce p) :=
  getElem?_chachaXorLoop data.length counter data p (Nat.le_refl _)

theorem owChacha20Xor_invol (counter : UInt32) (data : List UInt8) :
    owChacha20Xor counter key nonce (owChacha20Xor counter key nonce data) = data := by
  apply List.ext_getElem?
  intro p
  rw [getElem?_owChacha20Xor, getElem?_owChacha20Xor, Option.map_map]
  cases data[p]? with
  | none => rfl
  | some b =>
      simp only [Option.map_some, Function.comp_apply, UInt8.xor_assoc, UInt8.xor_self, UInt8.xor_zero]

/-- 暗号化は、0 の並びを暗号化した鍵の列との排他的論理和である。 -/
theorem owChacha20Xor_zeros (counter : UInt32) (data : List UInt8) :
    owChacha20Xor counter key nonce data =
      List.zipWith (· ^^^ ·) data (owChacha20Xor counter key nonce (List.replicate data.length 0)) := by
  apply List.ext_getElem?
  intro p
  rw [getElem?_owChacha20Xor, List.getElem?_zipWith, getElem?_owChacha20Xor]
  by_cases hp : p < data.length
  · simp [hp]
  · simp [List.getElem?_eq_none (Nat.not_lt.mp hp)]

theorem owChacha20Xor_append {x : List UInt8} {m : Nat} (hx : x.length = 64 * m) (counter : UInt32)
    (y : List UInt8) : owChacha20Xor counter key nonce (x ++ y) =
      owChacha20Xor counter key nonce x ++ owChacha20Xor (counter + UInt32.ofNat m) key nonce y := by
  apply List.ext_getElem?
  intro p
  rw [getElem?_owChacha20Xor]
  have hlen : (owChacha20Xor counter key nonce x).length = x.length := length_owChacha20Xor counter x
  by_cases hp : p < x.length
  · rw [List.getElem?_append_left hp, List.getElem?_append_left (by omega), getElem?_owChacha20Xor]
  · obtain ⟨q, rfl⟩ : ∃ q, p = 64 * m + q := ⟨p - 64 * m, by omega⟩
    have hq : 64 * m + q - x.length = q := by omega
    rw [List.getElem?_append_right (by omega), List.getElem?_append_right (by omega), hlen, hq,
      getElem?_owChacha20Xor, keystreamByte_add]

theorem wrapped_eq_add (counter : UInt32) (i : Nat) :
    UInt32.ofNat ((counter.toNat + i) % 2 ^ 32) = counter + UInt32.ofNat i := by
  apply UInt32.toNat_inj.mp
  simp

theorem keystreamByte_eq_get (counter : UInt32) (p : Nat) :
    keystreamByte counter key nonce p =
      (owChacha20Block (UInt32.ofNat ((counter.toNat + p / 64) % 2 ^ 32)) key nonce).get
        ⟨p % 64, mod_lt_owChacha20Block _ p⟩ := by
  unfold keystreamByte
  rw [← wrapped_eq_add, List.getElem?_eq_getElem (mod_lt_owChacha20Block _ p), Option.getD_some]
  rfl

/-! ## 使うカウンタ -/

/-- 64 バイトの整数倍のデータでは、カウンタは最初の値から 1 ずつ増える。 -/
theorem chachaXorLoop_counters (m : Nat) : ∀ (n : Nat) (counter : UInt32) (data : List UInt8),
    m ≤ n → data.length = 64 * m →
    (chachaXorLoop key nonce n counter data).2 =
      (List.range m).map fun i => counter + UInt32.ofNat i := by
  induction m with
  | zero =>
      intro n counter data _ hlen
      have hnil : data = [] := List.eq_nil_of_length_eq_zero (by omega)
      cases n <;> simp [chachaXorLoop, hnil]
  | succ m ih =>
      intro n counter data hmn hlen
      obtain ⟨n, rfl⟩ : ∃ k, n = k + 1 := ⟨n - 1, by omega⟩
      have hne : data ≠ [] := by
        intro h
        rw [h, List.length_nil] at hlen
        omega
      simp only [chachaXorLoop, hne, ↓reduceIte]
      rw [ih n (counter + 1) (data.drop 64) (by omega) (by rw [List.length_drop]; omega),
        List.range_succ_eq_map, List.map_cons, List.map_map]
      congr 1
      · simp
      · apply List.map_congr_left
        intro i _
        simp only [Function.comp_apply, Nat.succ_eq_add_one, UInt32.ofNat_add]
        rw [UInt32.add_assoc, UInt32.add_comm 1]
        rfl

theorem owChacha20Counters_block (counter : UInt32) (buf : Bytes 4096) :
    owChacha20Counters counter key nonce buf.toList =
      (List.range 64).map fun i => counter + UInt32.ofNat i := by
  unfold owChacha20Counters
  exact chachaXorLoop_counters 64 _ counter _ (by simp) (by simp)

/-- 二つのブロックのカウンタの範囲が交わらないのは、番号が互いに 64 以上離れているときに限る。 -/
theorem counters_disjoint_iff (b₁ b₂ : UInt32) :
    List.Disjoint ((List.range 64).map fun i => b₁ + UInt32.ofNat i)
        ((List.range 64).map fun i => b₂ + UInt32.ofNat i) ↔
      64 ≤ (b₁ - b₂).toNat ∧ 64 ≤ (b₂ - b₁).toNat := by
  have hmem : ∀ b c : UInt32, c ∈ (List.range 64).map (fun i => b + UInt32.ofNat i) ↔
      (c - b).toNat < 64 := by
    intro b c
    rw [List.mem_map]
    constructor
    · rintro ⟨i, hi, rfl⟩
      rw [List.mem_range] at hi
      rw [UInt32.add_comm, UInt32.add_sub_cancel, UInt32.toNat_ofNat_of_lt' (by simp [UInt32.size]; omega)]
      exact hi
    · intro h
      refine ⟨(c - b).toNat, List.mem_range.mpr h, ?_⟩
      rw [UInt32.ofNat_toNat, UInt32.add_comm, UInt32.sub_add_cancel]
  have h₁ := b₁.toNat_lt
  have h₂ := b₂.toNat_lt
  constructor
  · intro hd
    constructor
    · by_contra hlt
      exact hd ((hmem b₁ b₁).mpr (by simp)) ((hmem b₂ b₁).mpr (by omega))
    · by_contra hlt
      exact hd ((hmem b₁ b₂).mpr (by omega)) ((hmem b₂ b₂).mpr (by simp))
  · rintro ⟨h12, h21⟩ c hc₁ hc₂
    rw [hmem] at hc₁ hc₂
    have hc := c.toNat_lt
    rw [UInt32.toNat_sub] at h12 h21 hc₁ hc₂
    omega

end OwStorage
