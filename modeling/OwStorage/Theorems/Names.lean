import OwStorage.Common.Lemmas.Sutf8

/-!
# 名前の検査と比較

検査は SUTF-8 の綴りだけを受け付け、比較は名前のバイトの並びを辞書の順に並べる。
-/

namespace OwStorage

open Lib

section

variable {u u' : UInt8} {bs bs' a b : List UInt8} {cp cp' : Nat} {c c' : UInt32}

/-! ## 符号の順とバイトの順 -/

/-- 続きのバイトの数が同じなら、組み立てた符号の順はバイトの順である。 -/
theorem joinBits_order : ∀ (bs bs' : List UInt8) {h h' : Nat}, bs.length = bs'.length → (∀ x ∈ bs, isCont x = true) →
    (∀ x ∈ bs', isCont x = true) → joinBits h bs < joinBits h' bs' →
    h < h' ∨ h = h' ∧ bs ++ a < bs' ++ b := by
  intro bs
  induction bs with
  | nil =>
      intro bs' h h' hlen _ _ hlt
      rw [List.length_nil, eq_comm, List.length_eq_zero_iff] at hlen
      subst hlen
      exact .inl hlt
  | cons x bs ih =>
      intro bs' h h' hlen hb hb' hlt
      cases bs' with
      | nil => cases hlen
      | cons x' bs' =>
          have hx := cont_toNat (hb x List.mem_cons_self)
          have hx' := cont_toNat (hb' x' List.mem_cons_self)
          have hbits := contBits_lt x
          have hbits' := contBits_lt x'
          rcases ih bs' (Nat.succ_inj.mp hlen) (fun y hy => hb y (List.mem_cons_of_mem _ hy))
            (fun y hy => hb' y (List.mem_cons_of_mem _ hy)) hlt with hless | ⟨heq, htail⟩
          · dsimp only at hless
            rcases Nat.lt_or_ge h h' with hh | hh
            · exact .inl hh
            · refine .inr ⟨by omega, List.cons_lt_cons_iff.mpr (.inl ?_)⟩
              rw [UInt8.lt_iff_toNat_lt]
              omega
          · dsimp only at heq
            have hxx : x = x' := by
              apply UInt8.toNat_inj.mp
              omega
            exact .inr ⟨by omega, List.cons_lt_cons_iff.mpr (.inr ⟨hxx, htail⟩)⟩

theorem Spelled.order (h : Spelled u bs c) (h' : Spelled u' bs' c') (hlt : c < c') :
    u :: (bs ++ a) < u' :: (bs' ++ b) := by
  rw [UInt32.lt_iff_toNat_lt] at hlt
  rw [List.cons_lt_cons_iff]
  rcases Nat.lt_trichotomy bs.length bs'.length with hshort | heq | hlong
  · exact .inl (h.lead_lt_lead h' hshort)
  · obtain ⟨hd, hu, hc⟩ := h.lead
    obtain ⟨hd', hu', hc'⟩ := h'.lead
    rw [hc, hc'] at hlt
    rw [heq] at hu
    rcases joinBits_order bs bs' heq h.cont h'.cont hlt with hless | ⟨hsame, htail⟩
    · refine .inl ?_
      rw [UInt8.lt_iff_toNat_lt]
      omega
    · refine .inr ⟨?_, htail⟩
      apply UInt8.toNat_inj.mp
      omega
  · have hmono := leastCode_mono hlong h.size
    have := h'.below
    have := h.least
    omega

/-- 小さい符号で始まる列が、バイトの並びとしても前にある。 -/
theorem encode_order (hcp : cp ≤ lastCode) (hcp' : cp' ≤ lastCode) (hlt : cp < cp') :
    sutf8Encode cp ++ a < sutf8Encode cp' ++ b := by
  refine (spelled_encode hcp).order (spelled_encode hcp') ?_
  rw [UInt32.lt_iff_toNat_lt, toNat_code hcp, toNat_code hcp']
  exact hlt

theorem append_lt_append_iff (s : List UInt8) : s ++ a < s ++ b ↔ a < b := by
  induction s with
  | nil => rfl
  | cons x s ih => simp [ih]

/-! ## 比較 -/

/-- 等しいと比べられた列は、正しい。 -/
theorem nameCmpLoop_valid (n : Nat) : ∀ a b : List UInt8, a.length + b.length < n → sutf8NameCmpLoop n a b = 0 →
    owSutf8Validate a = true := by
  induction n with
  | zero => intro a b hn; exact absurd hn (Nat.not_lt_zero _)
  | succ n ih =>
      intro a b hn hcmp
      unfold sutf8NameCmpLoop at hcmp
      split_ifs at hcmp with ha hb hb
      · rw [ha]
        rfl
      · cases hcmp
      · split at hcmp
        · rename_i na ca nb cb hda hdb
          obtain ⟨hna, _, _⟩ := decodeOne_unique hda hda
          split_ifs at hcmp
          · cases hcmp
          · rw [validate_of_decode hda]
            refine ih (a.drop na) (b.drop nb) ?_ hcmp
            have := List.length_pos_iff.mpr ha
            simp only [List.length_drop]
            omega
        · cases hcmp
        · cases hcmp

theorem nameCmpLoop_order (n : Nat) : ∀ a b : List UInt8, a.length + b.length < n → owSutf8Validate a = true →
    owSutf8Validate b = true → (a < b → sutf8NameCmpLoop n a b < 0) ∧ (b < a → 0 < sutf8NameCmpLoop n a b) := by
  induction n with
  | zero => intro a b hn; exact absurd hn (Nat.not_lt_zero _)
  | succ n ih =>
      intro a b hn ha hb
      rcases validate_cases ha with rfl | ⟨cp, hcp, a, rfl, hta⟩
      · rcases validate_cases hb with rfl | ⟨cp', hcp', b, rfl, htb⟩
        · exact ⟨fun hlt => absurd hlt (List.not_lt_nil _), fun hlt => absurd hlt (List.not_lt_nil _)⟩
        · have hnil : sutf8NameCmpLoop (n + 1) [] (sutf8Encode cp' ++ b) = -1 := rfl
          rw [hnil]
          exact ⟨fun _ => by decide, fun hlt => absurd hlt (List.not_lt_nil _)⟩
      · rcases validate_cases hb with rfl | ⟨cp', hcp', b, rfl, htb⟩
        · have hnil : sutf8NameCmpLoop (n + 1) (sutf8Encode cp ++ a) [] = 1 := rfl
          rw [hnil]
          exact ⟨fun hlt => absurd hlt (List.not_lt_nil _), fun _ => by decide⟩
        · have hpos : 0 < (sutf8Encode cp).length := Nat.succ_pos _
          have hpos' : 0 < (sutf8Encode cp').length := Nat.succ_pos _
          have hrest := ih a b (by simp only [List.length_append] at hn; omega) hta htb
          unfold sutf8NameCmpLoop
          rw [if_neg (ne_nil_of_decode (decodeOne_encode hcp a)), if_neg (ne_nil_of_decode (decodeOne_encode hcp' b)),
            decodeOne_encode hcp, decodeOne_encode hcp']
          dsimp only
          rcases Nat.lt_trichotomy cp cp' with hlt | rfl | hgt
          · have hcode : UInt32.ofNat cp < UInt32.ofNat cp' := by
              rw [UInt32.lt_iff_toNat_lt, toNat_code hcp, toNat_code hcp']
              exact hlt
            have hne : (UInt32.ofNat cp != UInt32.ofNat cp') = true := bne_iff_ne.mpr (UInt32.ne_of_lt hcode)
            rw [if_pos hne, if_pos hcode]
            exact ⟨fun _ => by decide, fun hba => absurd hba (List.lt_asymm (encode_order hcp hcp' hlt))⟩
          · have hsame : ¬ (UInt32.ofNat cp != UInt32.ofNat cp) = true := by simp
            rw [if_neg hsame, List.drop_left, List.drop_left, append_lt_append_iff, append_lt_append_iff]
            exact hrest
          · have hcode : UInt32.ofNat cp' < UInt32.ofNat cp := by
              rw [UInt32.lt_iff_toNat_lt, toNat_code hcp, toNat_code hcp']
              exact hgt
            have hne : (UInt32.ofNat cp != UInt32.ofNat cp') = true := bne_iff_ne.mpr (UInt32.ne_of_lt hcode).symm
            rw [if_pos hne, if_neg (UInt32.lt_asymm hcode)]
            exact ⟨fun hab => absurd hab (List.lt_asymm (encode_order hcp' hcp hgt)), fun _ => by decide⟩

/-- 正しい名前どうしの比較の符号は、バイトの辞書の順で決まる。 -/
theorem nameCmp_sign (ha : owSutf8Validate a = true) (hb : owSutf8Validate b = true) :
    (owSutf8NameCmp a b < 0 ↔ a < b) ∧ (0 < owSutf8NameCmp a b ↔ b < a) := by
  obtain ⟨hless, hmore⟩ := nameCmpLoop_order _ a b (Nat.lt_succ_self _) ha hb
  by_cases hlt : a < b
  · have hneg : owSutf8NameCmp a b < 0 := hless hlt
    exact ⟨iff_of_true hneg hlt, iff_of_false (by omega) (List.lt_asymm hlt)⟩
  · by_cases hgt : b < a
    · have hpos : 0 < owSutf8NameCmp a b := hmore hgt
      exact ⟨iff_of_false (by omega) hlt, iff_of_true hpos hgt⟩
    · obtain rfl : a = b := List.le_antisymm (List.not_lt.mp hgt) (List.not_lt.mp hlt)
      rw [owSutf8NameCmp_self ha]
      exact ⟨iff_of_false (lt_irrefl _) hlt, iff_of_false (lt_irrefl _) hgt⟩

theorem nameCmp_le_iff (ha : owSutf8Validate a = true) (hb : owSutf8Validate b = true) :
    owSutf8NameCmp a b ≤ 0 ↔ a ≤ b := by
  rw [← List.not_lt, ← (nameCmp_sign ha hb).2, not_lt]

/-! ## 検査と比較の定める列 -/

/-- 検査は、運べる符号の列の綴りだけを受け付ける。その列は一つに決まる。 -/
theorem owSutf8Validate_accepts (s : List UInt8) : (owSutf8Validate s = true ↔ ∃ cps, SpellsText cps s) ∧
    ∀ cps cps', SpellsText cps s → SpellsText cps' s → cps = cps' :=
  ⟨validate_iff_spells s, fun _ _ h h' => h.unique h'⟩

example : sutf8Encode 0x7FFFFFEF = [0xFD, 0xBF, 0xBF, 0xBF, 0xBF, 0xAF] ∧ sutf8Encode 0xE9 = [0xC3, 0xA9] := by decide

/-- 比較が 0 になるのは、同じ正しい列どうしに限る。正しい列どうしでは、符号がバイトの辞書の順に一致する。 -/
theorem owSutf8NameCmp_orders : (∀ a b, owSutf8NameCmp a b = 0 ↔ a = b ∧ owSutf8Validate a = true) ∧
    (∀ a b, owSutf8Validate a = true → owSutf8Validate b = true →
      (owSutf8NameCmp a b < 0 ↔ a < b) ∧ (0 < owSutf8NameCmp a b ↔ b < a)) ∧
    IsLinearOrder {a : List UInt8 // owSutf8Validate a = true} fun a b => owSutf8NameCmp a b ≤ 0 := by
  refine ⟨fun a b => ⟨fun h => ⟨owSutf8NameCmp_eq h, nameCmpLoop_valid _ a b (Nat.lt_succ_self _) h⟩, ?_⟩,
    fun a b ha hb => nameCmp_sign ha hb, ?_⟩
  · rintro ⟨rfl, ha⟩
    exact owSutf8NameCmp_self ha
  · have hle : ∀ a b : {a : List UInt8 // owSutf8Validate a = true}, owSutf8NameCmp a b ≤ 0 ↔ a.val ≤ b.val :=
      fun a b => nameCmp_le_iff a.property b.property
    have hrefl : ∀ a : {a : List UInt8 // owSutf8Validate a = true}, owSutf8NameCmp a a ≤ 0 :=
      fun a => (hle a a).mpr (List.le_refl _)
    have htrans : ∀ a b c : {a : List UInt8 // owSutf8Validate a = true}, owSutf8NameCmp a b ≤ 0 →
        owSutf8NameCmp b c ≤ 0 → owSutf8NameCmp a c ≤ 0 :=
      fun a b c hab hbc => (hle a c).mpr (List.le_trans ((hle a b).mp hab) ((hle b c).mp hbc))
    have hantisymm : ∀ a b : {a : List UInt8 // owSutf8Validate a = true}, owSutf8NameCmp a b ≤ 0 →
        owSutf8NameCmp b a ≤ 0 → a = b :=
      fun a b hab hba => Subtype.ext (List.le_antisymm ((hle a b).mp hab) ((hle b a).mp hba))
    have htotal : ∀ a b : {a : List UInt8 // owSutf8Validate a = true}, owSutf8NameCmp a b ≤ 0 ∨
        owSutf8NameCmp b a ≤ 0 :=
      fun a b => (List.le_total a.val b.val).imp (hle a b).mpr (hle b a).mpr
    exact { refl := hrefl, trans := htrans, antisymm := hantisymm, total := htotal }

end

/-- 二バイトの文字は、どの一バイトの文字より後にある。 -/
theorem nameCmp_accent_after_z : owSutf8NameCmp [0x7A] [0xC3, 0xA9] < 0 :=
  (owSutf8NameCmp_orders.2.1 [0x7A] [0xC3, 0xA9] (by decide) (by decide)).1.mpr (by decide)

end OwStorage
