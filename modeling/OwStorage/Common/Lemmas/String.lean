import OwStorage.Common.String
import OwStorage.Lib.Words

/-!
# 名前の比較

長すぎる符号化は受け付けないので、一文字の符号からそのバイトの並びが決まる。だから、比較が等しいとした二つの名前は、
バイトの並びとしても等しい。
-/

namespace OwStorage

open Lib

/-! ## バイトの印 -/

theorem toNat_split (u low : UInt8) : u.toNat = (u &&& ~~~ low).toNat + (u &&& low).toNat := by
  have hz : (u &&& ~~~ low).toBitVec &&& (u &&& low).toBitVec = 0#8 := by
    ext i hi
    simp
    grind
  have ho : (u &&& ~~~ low).toBitVec + (u &&& low).toBitVec = u.toBitVec := by
    rw [BitVec.add_eq_or_of_and_eq_zero _ _ hz]
    ext i hi
    simp
    grind
  have hsum := BitVec.toNat_add_of_and_eq_zero hz
  rw [ho] at hsum
  exact hsum

section

variable {u mask mark : UInt8}

theorem marked_toNat (low : UInt8) (h : (u &&& mask == mark) = true) (hm : mask = ~~~ low) :
    u.toNat = mark.toNat + (u &&& low).toNat := by
  have hsplit := toNat_split u low
  rwa [← hm, beq_iff_eq.mp h] at hsplit

theorem cont_toNat (h : isCont u = true) : u.toNat = 0x80 + (contBits u).toNat := by
  unfold contBits
  rw [UInt8.toNat_toUInt32]
  exact marked_toNat 0x3F h (by decide)

end

theorem toNat_and_le (u low : UInt8) : (u &&& low).toNat ≤ low.toNat := by
  rw [UInt8.toNat_and]
  exact Nat.and_le_right

theorem contBits_lt (u : UInt8) : (contBits u).toNat < 64 := by
  unfold contBits
  rw [UInt8.toNat_toUInt32]
  exact Nat.lt_succ_of_le (toNat_and_le u 0x3F)

/-! ## 符号の組み立て -/

/-- 先頭のバイトの残り `h` と、続きのバイトから組み立てた符号。 -/
def joinBits (h : Nat) (bs : List UInt8) : Nat := bs.foldl (fun c b => c * 64 + (contBits b).toNat) h

section

variable {x y : UInt32} {k a : Nat}

theorem toNat_or_low (hx : 2 ^ k ∣ x.toNat) (hy : y.toNat < 2 ^ k) : (x ||| y).toNat = x.toNat + y.toNat := by
  obtain ⟨q, hq⟩ := hx
  rw [UInt32.toNat_or, hq, Nat.mul_comm, ← Nat.shiftLeft_eq, Nat.shiftLeft_add_eq_or_of_lt hy]

theorem toNat_shl (n : UInt32) (hn : n.toNat < 32) (hx : x.toNat * 2 ^ n.toNat < 2 ^ 32) :
    (x <<< n).toNat = x.toNat * 2 ^ n.toNat := by
  rw [UInt32.toNat_shiftLeft, Nat.mod_eq_of_lt hn, Nat.shiftLeft_eq, Nat.mod_eq_of_lt hx]

theorem toNat_or_cont (b : UInt8) (n m : UInt32) (hm : m.toNat = 6 + n.toNat) (hn : n.toNat ≤ 26)
    (hx : x.toNat = a * 2 ^ m.toNat) :
    (x ||| (contBits b <<< n)).toNat = (a * 64 + (contBits b).toNat) * 2 ^ n.toNat := by
  have hb := contBits_lt b
  have hpow : 2 ^ n.toNat ≤ 2 ^ 26 := Nat.pow_le_pow_right (by decide) hn
  have hpos : 0 < 2 ^ n.toNat := by positivity
  have hshl : (contBits b <<< n).toNat = (contBits b).toNat * 2 ^ n.toNat := by
    refine toNat_shl n (by omega) ?_
    calc (contBits b).toNat * 2 ^ n.toNat < 64 * 2 ^ n.toNat := Nat.mul_lt_mul_of_pos_right hb hpos
      _ ≤ 64 * 2 ^ 26 := Nat.mul_le_mul_left _ hpow
      _ = 2 ^ 32 := by decide
  have hlow : (contBits b <<< n).toNat < 2 ^ m.toNat := by
    rw [hshl, hm, Nat.pow_add]
    exact Nat.mul_lt_mul_of_pos_right hb hpos
  have hdvd : 2 ^ m.toNat ∣ x.toNat := ⟨a, by rw [hx, Nat.mul_comm]⟩
  rw [toNat_or_low hdvd hlow, hx, hshl, hm, Nat.pow_add]
  ring

theorem toNat_or_last (b : UInt8) (hx : x.toNat = a * 2 ^ (6 : UInt32).toNat) :
    (x ||| contBits b).toNat = a * 64 + (contBits b).toNat := by
  rw [toNat_or_low (k := 6) ⟨a, by rw [hx, Nat.mul_comm]; rfl⟩ (contBits_lt b), hx]
  rfl

end

theorem joinBits_inj : ∀ (bs bs' : List UInt8) {h h' : Nat}, bs.length = bs'.length → (∀ b ∈ bs, isCont b = true) →
    (∀ b ∈ bs', isCont b = true) → joinBits h bs = joinBits h' bs' → h = h' ∧ bs = bs' := by
  intro bs
  induction bs with
  | nil =>
      intro bs' h h' hlen _ _ heq
      rw [List.length_nil, eq_comm, List.length_eq_zero_iff] at hlen
      subst hlen
      exact ⟨heq, rfl⟩
  | cons b bs ih =>
      intro bs' h h' hlen hb hb' heq
      cases bs' with
      | nil => cases hlen
      | cons b' bs' =>
          obtain ⟨hjoin, rfl⟩ := ih bs' (Nat.succ_inj.mp hlen) (fun c hc => hb c (List.mem_cons_of_mem _ hc))
            (fun c hc => hb' c (List.mem_cons_of_mem _ hc)) heq
          have hlt := contBits_lt b
          have hlt' := contBits_lt b'
          change h * 64 + (contBits b).toNat = h' * 64 + (contBits b').toNat at hjoin
          have hbits : (contBits b).toNat = (contBits b').toNat := by omega
          have hbyte : b = b' := by
            apply UInt8.toNat_inj.mp
            rw [cont_toNat (hb b List.mem_cons_self), cont_toNat (hb' b' List.mem_cons_self), hbits]
          exact ⟨by omega, by rw [hbyte]⟩

/-! ## 一文字の綴り -/

/-- 続きのバイトが `k` 個の文字の、先頭のバイトの印。 -/
def leadMark : Nat → Nat
  | 0 => 0
  | 1 => 0xC0
  | 2 => 0xE0
  | 3 => 0xF0
  | 4 => 0xF8
  | _ => 0xFC

/-- 続きのバイトが `k` 個の文字の、最も小さい符号。`k` が 6 のときは、運べない符号の始まりである。 -/
def leastCode : Nat → Nat
  | 0 => 0
  | 1 => 0x80
  | 2 => 0x800
  | 3 => 0x10000
  | 4 => 0x110000
  | 5 => 0x4000000
  | _ => 0x7FFFFFF0

/-- 先頭のバイト `u` と続きのバイト `bs` が、符号 `cp` を最も短く綴る。 -/
structure Spelled (u : UInt8) (bs : List UInt8) (cp : UInt32) : Prop where
  size : bs.length ≤ 5
  lead : ∃ h, u.toNat = leadMark bs.length + h ∧ cp.toNat = joinBits h bs
  cont : ∀ b ∈ bs, isCont b = true
  least : leastCode bs.length ≤ cp.toNat
  below : cp.toNat < leastCode (bs.length + 1)

theorem leastCode_mono : ∀ {j k : Nat}, j < k → k ≤ 5 → leastCode (j + 1) ≤ leastCode k := by
  intro j k hjk hk
  interval_cases k <;> interval_cases j <;> decide

theorem Spelled.unique {u u' : UInt8} {bs bs' : List UInt8} {cp : UInt32} (h : Spelled u bs cp)
    (h' : Spelled u' bs' cp) : u :: bs = u' :: bs' := by
  have hlen : bs.length = bs'.length := by
    rcases Nat.lt_trichotomy bs.length bs'.length with hlt | heq | hgt
    · have hmono := leastCode_mono hlt h'.size
      have := h.below
      have := h'.least
      omega
    · exact heq
    · have hmono := leastCode_mono hgt h.size
      have := h'.below
      have := h.least
      omega
  obtain ⟨a, hu, hcp⟩ := h.lead
  obtain ⟨a', hu', hcp'⟩ := h'.lead
  obtain ⟨rfl, rfl⟩ := joinBits_inj bs bs' hlen h.cont h'.cont (hcp.symm.trans hcp')
  rw [UInt8.toNat_inj.mp (hu.trans hu'.symm)]

/-! ## 一文字の読み取り -/

section

variable {u mask mark b1 b2 b3 b4 b5 : UInt8} {bs : List UInt8} {cp : UInt32}

theorem toNat_lead (u low : UInt8) (n : UInt32) (hn : n.toNat < 32) (hlow : low.toNat * 2 ^ n.toNat < 2 ^ 32) :
    ((u &&& low).toUInt32 <<< n).toNat = (u &&& low).toNat * 2 ^ n.toNat := by
  have hle := Nat.mul_le_mul_right (2 ^ n.toNat) (toNat_and_le u low)
  rw [toNat_shl n hn (by rw [UInt8.toNat_toUInt32]; omega), UInt8.toNat_toUInt32]

theorem spelled_of_join (low : UInt8) (h : (u &&& mask == mark) = true) (hm : mask = ~~~ low)
    (hmark : mark.toNat = leadMark bs.length) (hcont : ∀ b ∈ bs, isCont b = true) (hsize : bs.length ≤ 5)
    (hcp : cp.toNat = joinBits (u &&& low).toNat bs) (hlo : leastCode bs.length ≤ cp.toNat)
    (hhi : cp.toNat < leastCode (bs.length + 1)) : Spelled u bs cp :=
  ⟨hsize, ⟨_, hmark ▸ marked_toNat low h hm, hcp⟩, hcont, hlo, hhi⟩

theorem spelled_one (h : (u &&& 0x80 == 0x00) = true) : Spelled u [] u.toUInt32 := by
  have hu := marked_toNat 0x7F h (by decide)
  have hcp : u.toUInt32.toNat = joinBits (u &&& 0x7F).toNat [] := by
    rw [UInt8.toNat_toUInt32, hu]
    exact Nat.zero_add _
  refine spelled_of_join 0x7F h (by decide) rfl (by simp) (by decide) hcp (Nat.zero_le _) ?_
  rw [hcp]
  exact Nat.lt_succ_of_le (toNat_and_le u 0x7F)

theorem join_two (u b1 : UInt8) :
    (((u &&& 0x1F).toUInt32 <<< 6) ||| contBits b1).toNat = joinBits (u &&& 0x1F).toNat [b1] :=
  toNat_or_last b1 (toNat_lead u 0x1F 6 (by decide) (by decide))

theorem join_three (u b1 b2 : UInt8) :
    (((u &&& 0x0F).toUInt32 <<< 12) ||| (contBits b1 <<< 6) ||| contBits b2).toNat =
      joinBits (u &&& 0x0F).toNat [b1, b2] :=
  toNat_or_last b2 (toNat_or_cont b1 6 12 rfl (by decide) (toNat_lead u 0x0F 12 (by decide) (by decide)))

theorem join_four (u b1 b2 b3 : UInt8) :
    (((u &&& 0x07).toUInt32 <<< 18) ||| (contBits b1 <<< 12) ||| (contBits b2 <<< 6) ||| contBits b3).toNat =
      joinBits (u &&& 0x07).toNat [b1, b2, b3] :=
  toNat_or_last b3 (toNat_or_cont b2 6 12 rfl (by decide) (toNat_or_cont b1 12 18 rfl (by decide)
    (toNat_lead u 0x07 18 (by decide) (by decide))))

theorem join_five (u b1 b2 b3 b4 : UInt8) :
    (((u &&& 0x03).toUInt32 <<< 24) ||| (contBits b1 <<< 18) ||| (contBits b2 <<< 12) ||| (contBits b3 <<< 6) |||
      contBits b4).toNat = joinBits (u &&& 0x03).toNat [b1, b2, b3, b4] :=
  toNat_or_last b4 (toNat_or_cont b3 6 12 rfl (by decide) (toNat_or_cont b2 12 18 rfl (by decide)
    (toNat_or_cont b1 18 24 rfl (by decide) (toNat_lead u 0x03 24 (by decide) (by decide)))))

theorem join_six (u b1 b2 b3 b4 b5 : UInt8) :
    (((u &&& 0x01).toUInt32 <<< 30) ||| (contBits b1 <<< 24) ||| (contBits b2 <<< 18) ||| (contBits b3 <<< 12) |||
      (contBits b4 <<< 6) ||| contBits b5).toNat = joinBits (u &&& 0x01).toNat [b1, b2, b3, b4, b5] :=
  toNat_or_last b5 (toNat_or_cont b4 6 12 rfl (by decide) (toNat_or_cont b3 12 18 rfl (by decide)
    (toNat_or_cont b2 18 24 rfl (by decide) (toNat_or_cont b1 24 30 rfl (by decide)
      (toNat_lead u 0x01 30 (by decide) (by decide))))))

theorem spelled_two (h : (u &&& 0xE0 == 0xC0) = true) (hb : ∀ b ∈ [b1], isCont b = true)
    (hcp : cp = ((u &&& 0x1F).toUInt32 <<< 6) ||| contBits b1) (hlo : ¬ cp < 0x80) : Spelled u [b1] cp := by
  have hjoin := join_two u b1
  have hle := toNat_and_le u 0x1F
  have hb1 := contBits_lt b1
  rw [← hcp] at hjoin
  rw [UInt32.not_lt, UInt32.le_iff_toNat_le] at hlo
  refine spelled_of_join 0x1F h (by decide) rfl hb (Nat.le_of_ble_eq_true rfl) hjoin hlo ?_
  rw [hjoin]
  simp [leastCode, joinBits] at hle ⊢
  omega

theorem spelled_three (h : (u &&& 0xF0 == 0xE0) = true) (hb : ∀ b ∈ [b1, b2], isCont b = true)
    (hcp : cp = ((u &&& 0x0F).toUInt32 <<< 12) ||| (contBits b1 <<< 6) ||| contBits b2) (hlo : ¬ cp < 0x800) :
    Spelled u [b1, b2] cp := by
  have hjoin := join_three u b1 b2
  have hle := toNat_and_le u 0x0F
  have hb1 := contBits_lt b1
  have hb2 := contBits_lt b2
  rw [← hcp] at hjoin
  rw [UInt32.not_lt, UInt32.le_iff_toNat_le] at hlo
  refine spelled_of_join 0x0F h (by decide) rfl hb (Nat.le_of_ble_eq_true rfl) hjoin hlo ?_
  rw [hjoin]
  simp [leastCode, joinBits] at hle ⊢
  omega

theorem code_between {a b : UInt32} (h : ¬ (decide (cp < a) || decide (cp > b)) = true) :
    a.toNat ≤ cp.toNat ∧ cp.toNat < b.toNat + 1 := by
  rw [Bool.or_eq_true, decide_eq_true_iff, decide_eq_true_iff, not_or, UInt32.not_lt, UInt32.not_lt,
    UInt32.le_iff_toNat_le, UInt32.le_iff_toNat_le] at h
  exact ⟨h.1, Nat.lt_succ_of_le h.2⟩

theorem spelled_four (h : (u &&& 0xF8 == 0xF0) = true) (hb : ∀ b ∈ [b1, b2, b3], isCont b = true)
    (hcp : cp = ((u &&& 0x07).toUInt32 <<< 18) ||| (contBits b1 <<< 12) ||| (contBits b2 <<< 6) ||| contBits b3)
    (hin : ¬ (decide (cp < 0x10000) || decide (cp > 0x0010FFFF)) = true) : Spelled u [b1, b2, b3] cp := by
  have hjoin := join_four u b1 b2 b3
  rw [← hcp] at hjoin
  exact spelled_of_join 0x07 h (by decide) rfl hb (Nat.le_of_ble_eq_true rfl) hjoin (code_between hin).1
    (code_between hin).2

theorem spelled_five (h : (u &&& 0xFC == 0xF8) = true) (hb : ∀ b ∈ [b1, b2, b3, b4], isCont b = true)
    (hcp : cp = ((u &&& 0x03).toUInt32 <<< 24) ||| (contBits b1 <<< 18) ||| (contBits b2 <<< 12) |||
      (contBits b3 <<< 6) ||| contBits b4)
    (hin : ¬ (decide (cp < 0x00110000) || decide (cp > 0x03FFFFFF)) = true) : Spelled u [b1, b2, b3, b4] cp := by
  have hjoin := join_five u b1 b2 b3 b4
  rw [← hcp] at hjoin
  exact spelled_of_join 0x03 h (by decide) rfl hb (Nat.le_of_ble_eq_true rfl) hjoin (code_between hin).1
    (code_between hin).2

theorem spelled_six (h : (u &&& 0xFE == 0xFC) = true) (hb : ∀ b ∈ [b1, b2, b3, b4, b5], isCont b = true)
    (hcp : cp = ((u &&& 0x01).toUInt32 <<< 30) ||| (contBits b1 <<< 24) ||| (contBits b2 <<< 18) |||
      (contBits b3 <<< 12) ||| (contBits b4 <<< 6) ||| contBits b5)
    (hlo : ¬ cp < 0x04000000) (hhi : ¬ cp ≥ 0x7FFFFFF0) : Spelled u [b1, b2, b3, b4, b5] cp := by
  have hjoin := join_six u b1 b2 b3 b4 b5
  rw [← hcp] at hjoin
  rw [UInt32.not_lt, UInt32.le_iff_toNat_le] at hlo
  rw [ge_iff_le, UInt32.not_le, UInt32.lt_iff_toNat_lt] at hhi
  exact spelled_of_join 0x01 h (by decide) rfl hb (Nat.le_of_ble_eq_true rfl) hjoin hlo hhi

end

theorem Decoded.guard {c : Prop} [Decidable c] {d : Decoded} {k : Nat} {cp : UInt32}
    (h : (if c then .malformed else d) = Decoded.char k cp) : ¬ c ∧ d = .char k cp := by
  rcases ite_eq_iff.mp h with ⟨_, hno⟩ | h
  · cases hno
  · exact h

theorem decodeOne_char {u : UInt8} {rest : List UInt8} {k : Nat} {cp : UInt32}
    (h : sutf8DecodeOne (u :: rest) = .char k cp) :
    ∃ bs tail, rest = bs ++ tail ∧ k = bs.length + 1 ∧ Spelled u bs cp := by
  unfold sutf8DecodeOne at h
  dsimp only at h
  rcases ite_eq_iff.mp h with ⟨hmark, h⟩ | ⟨_, h⟩
  · obtain ⟨rfl, rfl⟩ := Decoded.char.inj h
    exact ⟨[], rest, rfl, rfl, spelled_one hmark⟩
  rcases ite_eq_iff.mp h with ⟨hmark, h⟩ | ⟨_, h⟩
  · obtain ⟨hlen, h⟩ := Decoded.guard h
    obtain ⟨hb, h⟩ := Decoded.guard h
    obtain ⟨hlo, h⟩ := Decoded.guard h
    obtain ⟨rfl, rfl⟩ := Decoded.char.inj h
    rcases rest with _ | ⟨b1, tail⟩
    · simp at hlen
    · exact ⟨[b1], tail, rfl, rfl, spelled_two hmark (by simpa using hb) rfl hlo⟩
  rcases ite_eq_iff.mp h with ⟨hmark, h⟩ | ⟨_, h⟩
  · obtain ⟨hlen, h⟩ := Decoded.guard h
    obtain ⟨hb, h⟩ := Decoded.guard h
    obtain ⟨hlo, h⟩ := Decoded.guard h
    obtain ⟨rfl, rfl⟩ := Decoded.char.inj h
    rcases rest with _ | ⟨b1, _ | ⟨b2, tail⟩⟩
    iterate 2 · simp at hlen
    · exact ⟨[b1, b2], tail, rfl, rfl, spelled_three hmark (by simpa using hb) rfl hlo⟩
  rcases ite_eq_iff.mp h with ⟨hmark, h⟩ | ⟨_, h⟩
  · obtain ⟨hlen, h⟩ := Decoded.guard h
    obtain ⟨hb, h⟩ := Decoded.guard h
    obtain ⟨hin, h⟩ := Decoded.guard h
    obtain ⟨rfl, rfl⟩ := Decoded.char.inj h
    rcases rest with _ | ⟨b1, _ | ⟨b2, _ | ⟨b3, tail⟩⟩⟩
    iterate 3 · simp at hlen
    · exact ⟨[b1, b2, b3], tail, rfl, rfl, spelled_four hmark (by simpa [and_assoc] using hb) rfl hin⟩
  rcases ite_eq_iff.mp h with ⟨hmark, h⟩ | ⟨_, h⟩
  · obtain ⟨hlen, h⟩ := Decoded.guard h
    obtain ⟨hb, h⟩ := Decoded.guard h
    obtain ⟨hin, h⟩ := Decoded.guard h
    obtain ⟨rfl, rfl⟩ := Decoded.char.inj h
    rcases rest with _ | ⟨b1, _ | ⟨b2, _ | ⟨b3, _ | ⟨b4, tail⟩⟩⟩⟩
    iterate 4 · simp at hlen
    · exact ⟨[b1, b2, b3, b4], tail, rfl, rfl, spelled_five hmark (by simpa [and_assoc] using hb) rfl hin⟩
  rcases ite_eq_iff.mp h with ⟨hmark, h⟩ | ⟨_, h⟩
  · obtain ⟨hlen, h⟩ := Decoded.guard h
    obtain ⟨hb, h⟩ := Decoded.guard h
    obtain ⟨hlo, h⟩ := Decoded.guard h
    obtain ⟨hhi, h⟩ := Decoded.guard h
    obtain ⟨rfl, rfl⟩ := Decoded.char.inj h
    rcases rest with _ | ⟨b1, _ | ⟨b2, _ | ⟨b3, _ | ⟨b4, _ | ⟨b5, tail⟩⟩⟩⟩⟩
    iterate 5 · simp at hlen
    · exact ⟨[b1, b2, b3, b4, b5], tail, rfl, rfl, spelled_six hmark (by simpa [and_assoc] using hb) rfl hlo hhi⟩
  · cases h

/-! ## 比較 -/

theorem decodeOne_unique {a b : List UInt8} {na nb : Nat} {cp : UInt32} (ha : sutf8DecodeOne a = .char na cp)
    (hb : sutf8DecodeOne b = .char nb cp) : 0 < na ∧ na = nb ∧ a.take na = b.take nb := by
  cases a with
  | nil => cases ha
  | cons u rest =>
      cases b with
      | nil => cases hb
      | cons u' rest' =>
          obtain ⟨bs, tail, rfl, rfl, hs⟩ := decodeOne_char ha
          obtain ⟨bs', tail', rfl, rfl, hs'⟩ := decodeOne_char hb
          obtain ⟨rfl, rfl⟩ := List.cons.inj (hs.unique hs')
          simp

theorem nameCmpLoop_eq (n : Nat) : ∀ a b : List UInt8, a.length + b.length < n → sutf8NameCmpLoop n a b = 0 →
    a = b := by
  induction n with
  | zero => intro a b hn; exact absurd hn (Nat.not_lt_zero _)
  | succ n ih =>
      intro a b hn hcmp
      unfold sutf8NameCmpLoop at hcmp
      split_ifs at hcmp with ha hb hb
      · rw [ha, hb]
      · cases hcmp
      · split at hcmp
        · rename_i na ca nb cb hda hdb
          by_cases hne : ca = cb
          · subst hne
            obtain ⟨hpos, rfl, htake⟩ := decodeOne_unique hda hdb
            rw [if_neg (by simp)] at hcmp
            have hlen : 0 < a.length := List.length_pos_iff.mpr ha
            have hdrop := ih (a.drop na) (b.drop na) (by simp only [List.length_drop]; omega) hcmp
            rw [← List.take_append_drop na a, htake, hdrop, List.take_append_drop]
          · rw [if_pos (by simpa using hne)] at hcmp
            split at hcmp <;> cases hcmp
        · cases hcmp
        · cases hcmp

theorem owSutf8NameCmp_eq {a b : List UInt8} (h : owSutf8NameCmp a b = 0) : a = b :=
  nameCmpLoop_eq _ a b (Nat.lt_succ_self _) h

theorem nameCmpLoop_self : ∀ (k n : Nat) (a : List UInt8), sutf8ValidateLoop k a = true → a.length ≤ k →
    sutf8NameCmpLoop n a a = 0 := by
  intro k n
  induction n generalizing k with
  | zero => intro a _ _; rfl
  | succ n ih =>
      intro a hvalid hk
      unfold sutf8NameCmpLoop
      split_ifs with ha
      · rfl
      · have hpos : 0 < a.length := List.length_pos_iff.mpr ha
        obtain ⟨k, rfl⟩ : ∃ k', k = k' + 1 := ⟨k - 1, by omega⟩
        unfold sutf8ValidateLoop at hvalid
        rw [if_neg ha] at hvalid
        cases hd : sutf8DecodeOne a with
        | endOfBuffer => simp [hd] at hvalid
        | malformed => simp [hd] at hvalid
        | char na ca =>
            obtain ⟨hna, _, _⟩ := decodeOne_unique hd hd
            simp only [hd] at hvalid
            simp only [bne_self_eq_false, Bool.false_eq_true, ↓reduceIte]
            exact ih k (a.drop na) hvalid (by simp only [List.length_drop]; omega)

theorem owSutf8NameCmp_self {a : List UInt8} (h : owSutf8Validate a = true) : owSutf8NameCmp a a = 0 :=
  nameCmpLoop_self a.length _ a h le_rfl

theorem owSutf8NameCmp_iff {a b : List UInt8} (h : owSutf8Validate a = true) : owSutf8NameCmp a b = 0 ↔ a = b := by
  refine ⟨owSutf8NameCmp_eq, ?_⟩
  rintro rfl
  exact owSutf8NameCmp_self h

end OwStorage
