import OwStorage.Common.Lemmas.String

/-!
# SUTF-8 の符号化

符号の列を最も短い綴りに直す関数と、`ow_string.c` の読み取りとが、互いに逆であることを示す。
-/

namespace OwStorage

open Lib

/-- 符号 `cp` の綴りの、続きのバイトの数。 -/
def contCount (cp : Nat) : Nat :=
  if cp ≤ 0x7F then 0
  else if cp ≤ 0x7FF then 1
  else if cp ≤ 0xFFFF then 2
  else if cp ≤ 0x10FFFF then 3
  else if cp ≤ 0x3FFFFFF then 4
  else 5

/-- 下の `6 * k` ビットを、上から 6 ビットずつ続きのバイトにする。 -/
def contBytes : Nat → Nat → List UInt8
  | 0, _ => []
  | k + 1, cp => UInt8.ofNat (0x80 + cp / 64 ^ k % 64) :: contBytes k cp

def leadByte (cp : Nat) : UInt8 := UInt8.ofNat (leadMark (contCount cp) + cp / 64 ^ contCount cp)

/-- 符号 `cp` の最も短い綴り。 -/
def sutf8Encode (cp : Nat) : List UInt8 := leadByte cp :: contBytes (contCount cp) cp

/-- 運べる最大の符号。 -/
def lastCode : Nat := 0x7FFFFFEF

/-- 運べる符号の列 `cps` の綴りが `s` である。 -/
def SpellsText (cps : List Nat) (s : List UInt8) : Prop := (∀ cp ∈ cps, cp ≤ lastCode) ∧ cps.flatMap sutf8Encode = s

/-! ## 続きのバイト -/

theorem contByte_bits : ∀ d < 64, isCont (UInt8.ofNat (0x80 + d)) = true ∧
    (contBits (UInt8.ofNat (0x80 + d))).toNat = d := by
  decide +kernel

theorem length_contBytes (k cp : Nat) : (contBytes k cp).length = k := by
  induction k with
  | zero => rfl
  | succ k ih => simp [contBytes, ih]

theorem isCont_of_mem_contBytes {k cp : Nat} {b : UInt8} (h : b ∈ contBytes k cp) : isCont b = true := by
  induction k with
  | zero => cases h
  | succ k ih =>
      rcases List.mem_cons.mp h with rfl | h
      · exact (contByte_bits _ (Nat.mod_lt _ (by decide))).1
      · exact ih h

theorem joinBits_contBytes (k cp h : Nat) : joinBits h (contBytes k cp) = h * 64 ^ k + cp % 64 ^ k := by
  induction k generalizing h with
  | zero => simp [contBytes, joinBits, Nat.mod_one]
  | succ k ih =>
      have hbits := (contByte_bits (cp / 64 ^ k % 64) (Nat.mod_lt _ (by decide))).2
      change joinBits (h * 64 + (contBits _).toNat) (contBytes k cp) = _
      rw [ih, hbits, pow_succ, Nat.mod_mul]
      ring

/-! ## 先頭のバイト -/

/-- 続きのバイトが `k` 個の文字の、先頭のバイトの範囲の終わり。 -/
def leadEnd : Nat → Nat
  | 0 => 0x80
  | 1 => 0xE0
  | 2 => 0xF0
  | 3 => 0xF8
  | 4 => 0xFC
  | _ => 0xFE

theorem leadEnd_le {j k : Nat} (hjk : j < k) (hk : k ≤ 5) : leadEnd j ≤ leadMark k := by
  interval_cases k <;> interval_cases j <;> decide

theorem lead_lt {cp k : Nat} (hk : k ≤ 5) (h : cp < leastCode (k + 1)) : leadMark k + cp / 64 ^ k < leadEnd k := by
  interval_cases k <;> simp only [leastCode, leadMark, leadEnd] at * <;> omega

theorem joinBits_eq (bs : List UInt8) (h : Nat) :
    joinBits h bs = h * 64 ^ bs.length + joinBits 0 bs ∧ joinBits 0 bs < 64 ^ bs.length := by
  induction bs generalizing h with
  | nil => simp [joinBits]
  | cons b bs ih =>
      have hb := contBits_lt b
      obtain ⟨hh, hlt⟩ := ih (h * 64 + (contBits b).toNat)
      obtain ⟨hz, _⟩ := ih (0 * 64 + (contBits b).toNat)
      change joinBits (h * 64 + (contBits b).toNat) bs = _ ∧ joinBits (0 * 64 + (contBits b).toNat) bs < _
      change joinBits (0 * 64 + (contBits b).toNat) bs = _ at hz
      refine ⟨?_, ?_⟩
      · change _ = _ + joinBits (0 * 64 + (contBits b).toNat) bs
        rw [hh, hz, List.length_cons, pow_succ]
        ring
      · rw [hz, List.length_cons, pow_succ]
        calc (0 * 64 + (contBits b).toNat) * 64 ^ bs.length + joinBits 0 bs
            < (0 * 64 + (contBits b).toNat) * 64 ^ bs.length + 64 ^ bs.length := Nat.add_lt_add_left hlt _
          _ = ((contBits b).toNat + 1) * 64 ^ bs.length := by ring
          _ ≤ 64 * 64 ^ bs.length := Nat.mul_le_mul_right _ hb
          _ = 64 ^ bs.length * 64 := Nat.mul_comm _ _

section

variable {u u' : UInt8} {bs bs' tail tail' s a b : List UInt8} {cp cp' k : Nat} {c c' : UInt32}

theorem Spelled.lead_eq (h : Spelled u bs c) : u.toNat = leadMark bs.length + c.toNat / 64 ^ bs.length := by
  obtain ⟨hd, hu, hc⟩ := h.lead
  obtain ⟨hj, hlt⟩ := joinBits_eq bs hd
  rw [hu, hc, hj, Nat.mul_comm, Nat.mul_add_div (by positivity), Nat.div_eq_of_lt hlt, Nat.add_zero]

theorem Spelled.lead_range (h : Spelled u bs c) : leadMark bs.length ≤ u.toNat ∧ u.toNat < leadEnd bs.length := by
  rw [h.lead_eq]
  exact ⟨Nat.le_add_right _ _, lead_lt h.size h.below⟩

/-- 先頭のバイトの大きい方が、続きのバイトが多いか同じである。 -/
theorem Spelled.lead_lt_lead (h : Spelled u bs c) (h' : Spelled u' bs' c') (hlt : bs.length < bs'.length) : u < u' := by
  rw [UInt8.lt_iff_toNat_lt]
  calc u.toNat < leadEnd bs.length := h.lead_range.2
    _ ≤ leadMark bs'.length := leadEnd_le hlt h'.size
    _ ≤ u'.toNat := h'.lead_range.1

/-! ## 符号化 -/

theorem contCount_bounds (h : cp ≤ lastCode) :
    contCount cp ≤ 5 ∧ leastCode (contCount cp) ≤ cp ∧ cp < leastCode (contCount cp + 1) := by
  unfold lastCode at h
  unfold contCount
  split_ifs <;> simp only [leastCode] <;> omega

theorem toNat_code (h : cp ≤ lastCode) : (UInt32.ofNat cp).toNat = cp := by
  unfold lastCode at h
  rw [UInt32.toNat_ofNat', Nat.mod_eq_of_lt (by omega)]

theorem spelled_encode (h : cp ≤ lastCode) : Spelled (leadByte cp) (contBytes (contCount cp) cp) (UInt32.ofNat cp) := by
  obtain ⟨hsize, hlo, hhi⟩ := contCount_bounds h
  have hlead := lead_lt hsize hhi
  have hend : ∀ k, leadEnd k ≤ 0xFE := fun k => by unfold leadEnd; split <;> decide
  have hbyte : (leadByte cp).toNat = leadMark (contCount cp) + cp / 64 ^ contCount cp := by
    unfold leadByte
    rw [UInt8.toNat_ofNat', Nat.mod_eq_of_lt (by have := hend (contCount cp); omega)]
  constructor
  · rwa [length_contBytes]
  · rw [length_contBytes]
    refine ⟨_, hbyte, ?_⟩
    rw [joinBits_contBytes, toNat_code h, Nat.mul_comm, Nat.div_add_mod]
  · exact fun b hb => isCont_of_mem_contBytes hb
  · rwa [length_contBytes, toNat_code h]
  · rwa [length_contBytes, toNat_code h]

theorem Spelled.le_lastCode (h : Spelled u bs c) : c.toNat ≤ lastCode := by
  have hlt := h.below
  have htop : ∀ k ≤ 5, leastCode (k + 1) ≤ lastCode + 1 := by decide
  exact Nat.lt_succ_iff.mp (hlt.trans_le (htop _ h.size))

theorem Spelled.eq_encode (h : Spelled u bs c) : u :: bs = sutf8Encode c.toNat := by
  have henc := spelled_encode h.le_lastCode
  rw [UInt32.ofNat_toNat] at henc
  exact h.unique henc

/-! ## 読み取り -/

theorem marks_ofNat : ∀ n < 256, ((UInt8.ofNat n &&& 0x80 == 0x00) = decide (n < 0x80)) ∧
    ((UInt8.ofNat n &&& 0xE0 == 0xC0) = decide (0xC0 ≤ n ∧ n < 0xE0)) ∧
    ((UInt8.ofNat n &&& 0xF0 == 0xE0) = decide (0xE0 ≤ n ∧ n < 0xF0)) ∧
    ((UInt8.ofNat n &&& 0xF8 == 0xF0) = decide (0xF0 ≤ n ∧ n < 0xF8)) ∧
    ((UInt8.ofNat n &&& 0xFC == 0xF8) = decide (0xF8 ≤ n ∧ n < 0xFC)) ∧
    ((UInt8.ofNat n &&& 0xFE == 0xFC) = decide (0xFC ≤ n ∧ n < 0xFE)) := by
  decide +kernel

/-- 先頭のバイトの残りと続きのバイトから組み立てた値は、その符号である。 -/
theorem Spelled.code_eq {mask mark : UInt8} {code : UInt32} (h : Spelled u bs c) (low : UInt8)
    (hmark : (u &&& mask == mark) = true) (hm : mask = ~~~ low) (hlead : mark.toNat = leadMark bs.length)
    (hcode : code.toNat = joinBits (u &&& low).toNat bs) : code = c := by
  obtain ⟨hd, hu, hc⟩ := h.lead
  have hlow := marked_toNat low hmark hm
  rw [← UInt32.toNat_inj, hcode, hc, show (u &&& low).toNat = hd by omega]

theorem not_code_outside {lo hi : UInt32} (hlo : lo.toNat ≤ c.toNat) (hhi : c.toNat ≤ hi.toNat) :
    ¬ (decide (c < lo) || decide (c > hi)) = true := by
  rw [Bool.or_eq_true, decide_eq_true_iff, decide_eq_true_iff, not_or, UInt32.not_lt, UInt32.not_lt,
    UInt32.le_iff_toNat_le, UInt32.le_iff_toNat_le]
  exact ⟨hlo, hhi⟩

theorem Decoded.pass {p : Prop} [Decidable p] {d d' : Decoded} (hp : ¬ p) (hd : d = d') :
    (if p then .malformed else d) = d' := by
  rw [if_neg hp, hd]

theorem decodeOne_spelled (h : Spelled u bs c) (tail : List UInt8) :
    sutf8DecodeOne (u :: (bs ++ tail)) = .char (bs.length + 1) c := by
  obtain ⟨hlo, hhi⟩ := h.lead_range
  obtain ⟨m1, m2, m3, m4, m5, m6⟩ := marks_ofNat u.toNat u.toNat_lt
  rw [UInt8.ofNat_toNat] at m1 m2 m3 m4 m5 m6
  have hsize := h.size
  have hleast := h.least
  have hbelow := h.below
  have hcont := h.cont
  unfold sutf8DecodeOne
  dsimp only
  rcases bs with _ | ⟨b1, _ | ⟨b2, _ | ⟨b3, _ | ⟨b4, _ | ⟨b5, _ | ⟨b6, bs⟩⟩⟩⟩⟩⟩
  · simp only [List.length_nil, leadMark, leadEnd] at hlo hhi
    rw [decide_eq_true (by omega)] at m1
    have hcode : u.toUInt32.toNat = joinBits (u &&& 0x7F).toNat [] := by
      rw [UInt8.toNat_toUInt32, marked_toNat 0x7F m1 (by decide)]
      exact Nat.zero_add _
    rw [if_pos m1, h.code_eq 0x7F m1 (by decide) rfl hcode]
    rfl
  · simp only [List.length_cons, List.length_nil, leadMark, leadEnd, leastCode] at hlo hhi hleast
    rw [decide_eq_false (by omega)] at m1
    rw [decide_eq_true (by omega)] at m2
    rw [if_neg (by simp [m1]), if_pos m2]
    refine Decoded.pass (by simp) (Decoded.pass (by simpa using hcont) ?_)
    have hpass : ∀ code, code = c → (if code < 0x80 then Decoded.malformed else .char 2 code) = .char 2 c := by
      rintro _ rfl
      exact Decoded.pass (by rw [UInt32.lt_iff_toNat_lt]; exact Nat.not_lt.mpr hleast) rfl
    exact hpass _ (h.code_eq 0x1F m2 (by decide) rfl (join_two u b1))
  · simp only [List.length_cons, List.length_nil, leadMark, leadEnd, leastCode] at hlo hhi hleast
    rw [decide_eq_false (by omega)] at m1 m2
    rw [decide_eq_true (by omega)] at m3
    rw [if_neg (by simp [m1]), if_neg (by simp [m2]), if_pos m3]
    refine Decoded.pass (by simp) (Decoded.pass (by simpa using hcont) ?_)
    have hpass : ∀ code, code = c → (if code < 0x800 then Decoded.malformed else .char 3 code) = .char 3 c := by
      rintro _ rfl
      exact Decoded.pass (by rw [UInt32.lt_iff_toNat_lt]; exact Nat.not_lt.mpr hleast) rfl
    exact hpass _ (h.code_eq 0x0F m3 (by decide) rfl (join_three u b1 b2))
  · simp only [List.length_cons, List.length_nil, leadMark, leadEnd, leastCode] at hlo hhi hleast hbelow
    rw [decide_eq_false (by omega)] at m1 m2 m3
    rw [decide_eq_true (by omega)] at m4
    rw [if_neg (by simp [m1]), if_neg (by simp [m2]), if_neg (by simp [m3]), if_pos m4]
    refine Decoded.pass (by simp) (Decoded.pass (by simpa [and_assoc] using hcont) ?_)
    have hpass : ∀ code, code = c →
        (if code < 0x10000 || code > 0x0010FFFF then Decoded.malformed else .char 4 code) = .char 4 c := by
      rintro _ rfl
      exact Decoded.pass (not_code_outside hleast (Nat.lt_succ_iff.mp hbelow)) rfl
    exact hpass _ (h.code_eq 0x07 m4 (by decide) rfl (join_four u b1 b2 b3))
  · simp only [List.length_cons, List.length_nil, leadMark, leadEnd, leastCode] at hlo hhi hleast hbelow
    rw [decide_eq_false (by omega)] at m1 m2 m3 m4
    rw [decide_eq_true (by omega)] at m5
    rw [if_neg (by simp [m1]), if_neg (by simp [m2]), if_neg (by simp [m3]), if_neg (by simp [m4]), if_pos m5]
    refine Decoded.pass (by simp) (Decoded.pass (by simpa [and_assoc] using hcont) ?_)
    have hpass : ∀ code, code = c →
        (if code < 0x00110000 || code > 0x03FFFFFF then Decoded.malformed else .char 5 code) = .char 5 c := by
      rintro _ rfl
      exact Decoded.pass (not_code_outside hleast (Nat.lt_succ_iff.mp hbelow)) rfl
    exact hpass _ (h.code_eq 0x03 m5 (by decide) rfl (join_five u b1 b2 b3 b4))
  · simp only [List.length_cons, List.length_nil, leadMark, leadEnd, leastCode] at hlo hhi hleast hbelow
    rw [decide_eq_false (by omega)] at m1 m2 m3 m4 m5
    rw [decide_eq_true (by omega)] at m6
    rw [if_neg (by simp [m1]), if_neg (by simp [m2]), if_neg (by simp [m3]), if_neg (by simp [m4]),
      if_neg (by simp [m5]), if_pos m6]
    refine Decoded.pass (by simp) (Decoded.pass (by simpa [and_assoc] using hcont) ?_)
    have hpass : ∀ code, code = c → (if code < 0x04000000 then Decoded.malformed
        else if code ≥ 0x7FFFFFF0 then Decoded.malformed else .char 6 code) = .char 6 c := by
      rintro _ rfl
      refine Decoded.pass (by rw [UInt32.lt_iff_toNat_lt]; exact Nat.not_lt.mpr hleast) (Decoded.pass ?_ rfl)
      rw [ge_iff_le, UInt32.le_iff_toNat_le]
      exact Nat.not_le.mpr hbelow
    exact hpass _ (h.code_eq 0x01 m6 (by decide) rfl (join_six u b1 b2 b3 b4 b5))
  · simp only [List.length_cons] at hsize
    omega

theorem decodeOne_encode (h : cp ≤ lastCode) (tail : List UInt8) :
    sutf8DecodeOne (sutf8Encode cp ++ tail) = .char (sutf8Encode cp).length (UInt32.ofNat cp) :=
  decodeOne_spelled (spelled_encode h) tail

theorem decodeOne_starts (h : sutf8DecodeOne s = .char k c) :
    c.toNat ≤ lastCode ∧ k = (sutf8Encode c.toNat).length ∧ ∃ tail, s = sutf8Encode c.toNat ++ tail := by
  cases s with
  | nil => cases h
  | cons u rest =>
      obtain ⟨bs, tail, rfl, rfl, hs⟩ := decodeOne_char h
      refine ⟨hs.le_lastCode, ?_, tail, ?_⟩
      · rw [← hs.eq_encode]
        rfl
      · rw [← hs.eq_encode]
        rfl

/-! ## 列の検査 -/

theorem length_eq_succ (h : s ≠ []) : ∃ m, s.length = m + 1 := by
  have := List.length_pos_iff.mpr h
  exact ⟨s.length - 1, by omega⟩

theorem ne_nil_of_decode (h : sutf8DecodeOne s = .char k c) : s ≠ [] := by
  rintro rfl
  cases h

theorem validateLoop_char (n : Nat) (h : sutf8DecodeOne s = .char k c) :
    sutf8ValidateLoop (n + 1) s = sutf8ValidateLoop n (s.drop k) := by
  conv_lhs => unfold sutf8ValidateLoop
  rw [if_neg (ne_nil_of_decode h), h]

theorem validateLoop_stuck (n : Nat) (hs : s ≠ []) (h : ∀ k c, sutf8DecodeOne s ≠ .char k c) :
    sutf8ValidateLoop (n + 1) s = false := by
  unfold sutf8ValidateLoop
  rw [if_neg hs]
  cases hd : sutf8DecodeOne s with
  | char k c => exact absurd hd (h k c)
  | endOfBuffer => rfl
  | malformed => rfl

theorem validateLoop_eq : ∀ (n : Nat) (s : List UInt8), s.length ≤ n → sutf8ValidateLoop n s = owSutf8Validate s := by
  intro n
  induction n using Nat.strong_induction_on with
  | _ n ih =>
      intro s hs
      unfold owSutf8Validate
      by_cases hnil : s = []
      · subst hnil
        cases n <;> rfl
      · obtain ⟨m, hm⟩ := length_eq_succ hnil
        obtain ⟨n, rfl⟩ : ∃ n', n = n' + 1 := ⟨n - 1, by omega⟩
        rw [hm]
        by_cases hd : ∃ k c, sutf8DecodeOne s = .char k c
        · obtain ⟨k, c, hd⟩ := hd
          obtain ⟨hk, _, _⟩ := decodeOne_unique hd hd
          have hdrop : (s.drop k).length ≤ m := by
            rw [List.length_drop]
            omega
          rw [validateLoop_char n hd, validateLoop_char m hd, ih n (Nat.lt_succ_self n) _ (by omega)]
          rcases Nat.lt_or_ge m (n + 1) with hlt | hge
          · exact (ih m hlt _ hdrop).symm
          · omega
        · have hstuck : ∀ k c, sutf8DecodeOne s ≠ .char k c := fun k c h => hd ⟨k, c, h⟩
          rw [validateLoop_stuck n hnil hstuck, validateLoop_stuck m hnil hstuck]

theorem validate_of_decode (h : sutf8DecodeOne s = .char k c) : owSutf8Validate s = owSutf8Validate (s.drop k) := by
  obtain ⟨hk, _, _⟩ := decodeOne_unique h h
  obtain ⟨m, hm⟩ := length_eq_succ (ne_nil_of_decode h)
  unfold owSutf8Validate
  rw [hm, validateLoop_char m h]
  exact validateLoop_eq m (s.drop k) (by rw [List.length_drop]; omega)

theorem decode_of_validate (hs : s ≠ []) (h : owSutf8Validate s = true) : ∃ k c, sutf8DecodeOne s = .char k c := by
  by_contra hno
  obtain ⟨m, hm⟩ := length_eq_succ hs
  unfold owSutf8Validate at h
  rw [hm, validateLoop_stuck m hs fun k c hd => hno ⟨k, c, hd⟩] at h
  cases h

theorem validate_cases (h : owSutf8Validate s = true) :
    s = [] ∨ ∃ cp ≤ lastCode, ∃ tail, s = sutf8Encode cp ++ tail ∧ owSutf8Validate tail = true := by
  by_cases hnil : s = []
  · exact .inl hnil
  · obtain ⟨k, c, hd⟩ := decode_of_validate hnil h
    rw [validate_of_decode hd] at h
    obtain ⟨hc, rfl, tail, rfl⟩ := decodeOne_starts hd
    rw [List.drop_left] at h
    exact .inr ⟨c.toNat, hc, tail, rfl, h⟩

theorem validate_encode_append (h : cp ≤ lastCode) (tail : List UInt8) :
    owSutf8Validate (sutf8Encode cp ++ tail) = owSutf8Validate tail := by
  rw [validate_of_decode (decodeOne_encode h tail), List.drop_left]

theorem validate_iff_spells (s : List UInt8) : owSutf8Validate s = true ↔ ∃ cps, SpellsText cps s := by
  constructor
  · induction hn : s.length using Nat.strong_induction_on generalizing s with
    | _ n ih =>
        intro h
        rcases validate_cases h with rfl | ⟨cp, hcp, tail, rfl, htail⟩
        · exact ⟨[], by simp, rfl⟩
        · have hshort : tail.length < n := by
            rw [← hn, List.length_append, sutf8Encode, List.length_cons]
            omega
          obtain ⟨cps, hcps, rfl⟩ := ih _ hshort tail rfl htail
          exact ⟨cp :: cps, by simpa using ⟨hcp, hcps⟩, rfl⟩
  · rintro ⟨cps, hcps, rfl⟩
    induction cps with
    | nil => rfl
    | cons cp cps ih =>
        rw [List.flatMap_cons, validate_encode_append (hcps cp List.mem_cons_self)]
        exact ih fun c hc => hcps c (List.mem_cons_of_mem _ hc)

theorem SpellsText.unique : ∀ {cps cps' : List Nat} {s : List UInt8}, SpellsText cps s → SpellsText cps' s →
    cps = cps' := by
  intro cps
  induction cps with
  | nil =>
      rintro cps' s ⟨_, rfl⟩ ⟨_, h⟩
      cases cps' with
      | nil => rfl
      | cons cp cps' => cases h
  | cons cp cps ih =>
      rintro cps' s ⟨hcps, hs⟩ ⟨hcps', hs'⟩
      cases cps' with
      | nil =>
          rw [← hs'] at hs
          cases hs
      | cons cp' cps' =>
          have hcp := hcps cp List.mem_cons_self
          have hcp' := hcps' cp' List.mem_cons_self
          have hd := decodeOne_encode hcp (cps.flatMap sutf8Encode)
          have hd' := decodeOne_encode hcp' (cps'.flatMap sutf8Encode)
          rw [List.flatMap_cons] at hs hs'
          rw [hs] at hd
          rw [hs', hd] at hd'
          have heq : cp = cp' := by
            rw [← toNat_code hcp, ← toNat_code hcp', (Decoded.char.inj hd').2]
          subst heq
          have htail := List.append_cancel_left (hs.trans hs'.symm)
          rw [ih ⟨fun c hc => hcps c (List.mem_cons_of_mem _ hc), htail⟩
            ⟨fun c hc => hcps' c (List.mem_cons_of_mem _ hc), rfl⟩]

end

end OwStorage
