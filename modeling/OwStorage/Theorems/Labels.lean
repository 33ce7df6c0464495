import OwStorage.Common.Lemmas.Sutf8
import OwStorage.Owfs.Lemmas.Reach
import OwStorage.Owfs.Lemmas.Spend
import OwStorage.Usfs.Lemmas.Extent

/-!
# ラベルの切り詰め

`ow_sutf8_name_copy` は、収まらない文字列をバイトの位置で切る。切れ目が文字の途中に来ると、書かれたラベルは SUTF-8 でなくなる。
-/

namespace OwStorage

open Lib Prog

/-! ## 切れ目 -/

section

variable {s t : List UInt8} {cp k : Nat}

theorem isCont_eq_false_of_lead {u : UInt8} {bs : List UInt8} {c : UInt32} (h : Spelled u bs c) : isCont u = false := by
  by_contra hno
  have hu := cont_toNat (Bool.of_not_eq_false hno)
  have hbits := contBits_lt u
  obtain ⟨hlo, hhi⟩ := h.lead_range
  have hsize := h.size
  generalize bs.length = k at hlo hhi hsize
  interval_cases k <;> simp only [leadMark, leadEnd] at hlo hhi <;> omega

/-- 文字の境目は、続きのバイトでないバイトの前である。 -/
theorem sutf8Encode_cont (h : cp ≤ lastCode) {i : Nat} {b : UInt8} (hb : (sutf8Encode cp)[i]? = some b) :
    isCont b = false ↔ i = 0 := by
  cases i with
  | zero =>
      obtain rfl : leadByte cp = b := Option.some.inj hb
      exact iff_of_true (isCont_eq_false_of_lead (spelled_encode h)) rfl
  | succ i =>
      have hmem : b ∈ contBytes (contCount cp) cp := List.mem_of_getElem? hb
      rw [isCont_of_mem_contBytes hmem]
      exact iff_of_false (by decide) (Nat.succ_ne_zero i)

theorem validate_append (hs : owSutf8Validate s = true) : owSutf8Validate (s ++ t) = owSutf8Validate t := by
  obtain ⟨cps, hcps, rfl⟩ := (validate_iff_spells s).mp hs
  clear hs
  induction cps with
  | nil => rfl
  | cons cp cps ih =>
      rw [List.flatMap_cons, List.append_assoc, validate_encode_append (hcps cp List.mem_cons_self)]
      exact ih fun c hc => hcps c (List.mem_cons_of_mem _ hc)

/-- 先頭の `k` バイトが正しければ、その次は文字の先頭である。 -/
theorem isCont_after_text (hs : owSutf8Validate s = true) (htake : owSutf8Validate (s.take k) = true) {b : UInt8}
    (hb : s[k]? = some b) : isCont b = false := by
  rw [← List.take_append_drop k s, validate_append htake] at hs
  have hget : (s.drop k)[0]? = some b := by
    rw [List.getElem?_drop]
    exact hb
  rcases validate_cases hs with hnil | ⟨cp, hcp, tail, heq, _⟩
  · rw [hnil] at hget
    cases hget
  · rw [heq] at hget
    exact (sutf8Encode_cont hcp (i := 0) hget).mpr rfl

/-- 正しい列の先頭の `k` バイトが正しいのは、次のバイトが続きのバイトでないときに限る。 -/
theorem validate_take_iff (hs : owSutf8Validate s = true) :
    owSutf8Validate (s.take k) = true ↔ ∀ b, s[k]? = some b → isCont b = false := by
  refine ⟨fun htake b hb => isCont_after_text hs htake hb, ?_⟩
  induction hn : s.length using Nat.strong_induction_on generalizing s k with
  | _ n ih =>
      intro hnext
      rcases validate_cases hs with rfl | ⟨cp, hcp, tail, rfl, htail⟩
      · rw [List.take_nil]
        rfl
      · rcases Nat.lt_or_ge k (sutf8Encode cp).length with hlt | hge
        · have hk : (sutf8Encode cp ++ tail)[k]? = (sutf8Encode cp)[k]? := List.getElem?_append_left hlt
          rw [hk] at hnext
          obtain rfl := (sutf8Encode_cont hcp (List.getElem?_eq_getElem hlt)).mp
            (hnext _ (List.getElem?_eq_getElem hlt))
          rfl
        · have hpos : 0 < (sutf8Encode cp).length := Nat.succ_pos _
          rw [List.getElem?_append_right hge] at hnext
          rw [List.take_append, List.take_of_length_le hge, validate_encode_append hcp]
          refine ih tail.length ?_ htail rfl hnext
          rw [← hn, List.length_append]
          omega

end

/-! ## 写し -/

/-- 写したうちの、終端の前までのバイト。 -/
def copiedText {n : Nat} (dest : Bytes n) (src : List UInt8) : List UInt8 :=
  (owSutf8NameCopy dest src).1.slice 0 (owSutf8NameCopy dest src).2

/-- 元の列の先頭の部分で、SUTF-8 として正しい。 -/
def TextKept (src text : List UInt8) : Prop := text <+: src ∧ owSutf8Validate text = true

/-- 大きさ `n` に写すときに落ちる最初のバイトが、続きのバイトでない。 -/
def CutBetween (n : Nat) (src : List UInt8) : Prop := ∀ b, src[n - 1]? = some b → isCont b = false

/-- ラベルの欄の、終端の前までのバイト。 -/
def labelText (field : Bytes 64) (label : List UInt8) : List UInt8 := field.slice 0 (min label.length 63)

section

variable {src : List UInt8} {n : Nat}

theorem copiedText_eq (dest : Bytes n) (src : List UInt8) : copiedText dest src = src.take (n - 1) := by
  unfold copiedText owSutf8NameCopy
  rcases Nat.eq_zero_or_pos n with rfl | hpos
  · rw [if_pos rfl]
    exact List.take_zero
  · rw [if_neg (by omega)]
    dsimp only
    have hlen : ∀ k, k ≤ src.length → k < n →
        ((dest.patch 0 (src.take k)).patch k [0]).slice 0 k = src.take k := by
      intro k hk hkn
      have hsize : (src.take k).length = k := by
        rw [List.length_take]
        omega
      rw [Bytes.slice_patch_disjoint (.inl (Nat.zero_add k).le)]
      have hsame := Bytes.slice_patch_same (v := dest) (k := 0) (w := src.take k) (by omega)
      rwa [hsize] at hsame
    split
    · rw [hlen _ le_rfl ‹_›, List.take_of_length_le le_rfl, List.take_of_length_le (by omega)]
    · exact hlen _ (by omega) (by omega)

theorem textKept_take_iff (hs : owSutf8Validate src = true) : TextKept src (src.take (n - 1)) ↔ CutBetween n src :=
  ⟨fun h => (validate_take_iff hs).mp h.2, fun h => ⟨List.take_prefix _ _, (validate_take_iff hs).mpr h⟩⟩

/-- フォーマットの書くラベルの欄から読めるバイト。 -/
theorem labelText_stored (src : List UInt8) :
    labelText (if src.length > 0 then (owSutf8NameCopy (Bytes.zero 64) src).1 else Bytes.zero 64) src =
      src.take 63 := by
  unfold labelText
  split
  · have hcopied := copiedText_eq (Bytes.zero 64) src
    unfold copiedText at hcopied
    have hlen : (owSutf8NameCopy (Bytes.zero 64) src).2 = min src.length 63 := by
      change (if src.length < 64 then src.length else 63) = _
      split <;> omega
    rwa [hlen] at hcopied
  · rename_i hnil
    obtain rfl : src = [] := List.length_eq_zero_iff.mp (by omega)
    rfl

end

/-! ## フォーマットの書くラベル -/

namespace Owfs

/-- ラベルの欄が変わらない。 -/
abbrev SameLabel : Vol → Vol → Prop := Order.Preimage (fun v => v.sb.volumeLabel) Eq

theorem Spends.label {v v' : Vol} (h : Spends v v') : SameLabel v v' := by
  obtain ⟨k, hk⟩ := h
  change v.sb.volumeLabel = v'.sb.volumeLabel
  rw [hk]

theorem housekeeping_label : Housekeeping SameLabel where
  still h := h.spends.label
  clerical h := by
    obtain ⟨_, _, _, _, _, _, _, rfl⟩ := h
    rfl
  saved v := wp_superblockWrite (fun _ _ => rfl) (fun _ _ _ _ => rfl)

theorem label_of_spends {α : Type} {p : OwfsM α} (h : Preserves Spends p) : Preserves SameLabel p := fun v =>
  (h v).mono (fun _ _ hs => hs.label) (fun _ _ hs => hs.label)

theorem spends_formatRoot : Preserves Spends formatRoot := by
  unfold formatRoot
  refine .bind spends_bitmapAlloc fun b => .bind (spends_zeroBlk b).attempt fun r => .bind ?_ fun _ =>
    .bind ?_ fun _ => .pure _
  · cases r with
    | ok _ => exact .pure _
    | error e => exact .bind (spends_bitmapFree b).attempt fun _ => .throw _
  · intro v
    rw [wp_withInode]
    exact spends_inodeWrite 0 ⟨v, _⟩

theorem spends_bitmapInit : Preserves Spends bitmapInit := by
  unfold bitmapInit
  exact .bind .get fun v => .bind (.failIf _ _) fun _ => .forUpto fun i => .bind (.failIf _ _) fun _ =>
    spends_writeBlk _ _

/-- フォーマットの本体は、ラベルの欄を変えない。 -/
theorem label_formatBody : Preserves SameLabel formatBody :=
  .bind (label_of_spends spends_bitmapInit) fun _ => .bind .get fun _ =>
    .bind (.forUpto fun _ => label_of_spends (spends_writeBlk _ _)) fun _ =>
    .bind (label_of_spends spends_formatRoot) fun _ => housekeeping_label.syncChanges

/-- フォーマットしたディスクのラベルは、作り始めのスーパーブロックのラベルである。 -/
theorem label_of_formatVolume {totalBlocks : UInt32} {label : Option (List UInt8)} {d d' : HtlDevice}
    (h : formatVolume totalBlocks label d = (.ok (), d')) : ∃ nonce,
      (Superblock.ofBlock (d'.disk superblockBlock)).volumeLabel =
      (freshSuperblock totalBlocks label nonce).volumeLabel := by
  have hwp : wp (formatVolume totalBlocks label) (fun _ d' => ∃ nonce,
      (Superblock.ofBlock (d'.disk superblockBlock)).volumeLabel =
        (freshSuperblock totalBlocks label nonce).volumeLabel)
      (fun _ _ => True) d := by
    unfold formatVolume
    simp only [wp_bind, wp_get, wp_failIf, wp_attempt, wp_withSuperblock]
    refine ⟨fun _ => trivial, fun hsize => ⟨fun _ => trivial, fun hcap => ⟨fun _ => trivial, fun hmin =>
      ⟨fun _ => trivial, fun hfit => ?_⟩⟩⟩⟩
    have hbody : ∀ nonce, wp formatBody (fun _ v => ∃ nonce, (diskSb v).volumeLabel =
        (freshSuperblock totalBlocks label nonce).volumeLabel) (fun _ _ => True)
        ⟨d, freshSuperblock totalBlocks label nonce⟩ := fun nonce =>
      ((formatBody_spec (not_not.mp hsize) hcap hmin hfit).and (label_formatBody _)).mono
        (fun _ v hv => ⟨nonce, by rw [hv.1.1.disk]; exact hv.2.symm⟩) (fun _ _ _ => trivial)
    exact wp_htlGetEntropy (fun nonce => hbody nonce) (fun _ => hbody _)
  exact hwp.ok h

end Owfs

section

variable {src : List UInt8}

theorem Owfs.labelText_of_formatVolume {totalBlocks : UInt32} {d d' : HtlDevice}
    (h : Owfs.formatVolume totalBlocks (some src) d = (.ok (), d')) :
    labelText (Owfs.Superblock.ofBlock (d'.disk Owfs.superblockBlock)).volumeLabel src = src.take 63 := by
  obtain ⟨nonce, hlabel⟩ := Owfs.label_of_formatVolume h
  rw [hlabel]
  exact labelText_stored src

theorem Usfs.labelText_of_formatVolume {who : OwIdentity} {totalBlocks : UInt32} {d d' : HtlDevice}
    (h : Usfs.formatVolume who totalBlocks (some src) d = (.ok (), d')) :
    labelText (Usfs.Superblock.ofBlock (d'.disk 0)).volumeLabel src = src.take 63 := by
  obtain ⟨_, hlabel, _⟩ := Usfs.formatVolume_records.ok h
  rw [hlabel]
  exact labelText_stored src

/-- 写した列もフォーマットしたラベルも、切れ目が文字の境目に来るときに、そのときに限って正しい。 -/
theorem stored_text_valid_iff (hs : owSutf8Validate src = true) :
    (∀ (n : Nat) (dest : Bytes n), TextKept src (copiedText dest src) ↔ CutBetween n src) ∧
    (∀ (totalBlocks : UInt32) (d d' : HtlDevice), Owfs.formatVolume totalBlocks (some src) d = (.ok (), d') →
      (TextKept src (labelText (Owfs.Superblock.ofBlock (d'.disk Owfs.superblockBlock)).volumeLabel src) ↔
        CutBetween 64 src)) ∧
    ∀ (who : OwIdentity) (totalBlocks : UInt32) (d d' : HtlDevice),
      Usfs.formatVolume who totalBlocks (some src) d = (.ok (), d') →
      (TextKept src (labelText (Usfs.Superblock.ofBlock (d'.disk 0)).volumeLabel src) ↔ CutBetween 64 src) := by
  refine ⟨fun n dest => ?_, fun _ _ _ h => ?_, fun _ _ _ _ h => ?_⟩
  · rw [copiedText_eq]
    exact textKept_take_iff hs
  · rw [Owfs.labelText_of_formatVolume h]
    exact textKept_take_iff (n := 64) hs
  · rw [Usfs.labelText_of_formatVolume h]
    exact textKept_take_iff (n := 64) hs

end

/-- 「aé」を大きさ 2 の欄に写すと、文字の境目で切れる。 -/
theorem short_copy_valid : TextKept [0x61, 0xC3, 0xA9] (copiedText (Bytes.zero 2) [0x61, 0xC3, 0xA9]) :=
  ((stored_text_valid_iff (show owSutf8Validate [0x61, 0xC3, 0xA9] = true by decide)).1 2 (Bytes.zero 2)).mpr (by
    intro b hb
    obtain rfl : 0xC3 = b := Option.some.inj hb
    decide)

/-- 二バイトの文字を大きさ 2 の欄に写すと、一バイト目だけが残る。 -/
theorem cut_copy_invalid : ¬ ∀ (n : Nat) (dest : Bytes n) (src : List UInt8), owSutf8Validate src = true →
    TextKept src (copiedText dest src) := by
  intro hclaim
  have hkept := (hclaim 2 (Bytes.zero 2) [0xC3, 0xA9] (by decide)).2
  rw [copiedText_eq] at hkept
  exact absurd hkept (by decide)

end OwStorage
