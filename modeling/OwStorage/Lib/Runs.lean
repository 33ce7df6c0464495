import OwStorage.Lib.Count

/-!
# 空きの並び

`f r` は番号 `r` が使用中であることを表す。決まった長さの空きの並びを前から探す走査の不変条件と、範囲をまとめて
書き換えたときの空きの個数である。
-/

namespace OwStorage.Lib

/-- `s` から `len` 個がどれも空いている。 -/
def Vacant (f : Nat → Bool) (s len : Nat) : Prop := ∀ i, i < len → f (s + i) = false

/-- `n` 個の中で、長さ `len` の空きの並びのうち先頭が最も小さいもの。 -/
structure FirstFit (f : Nat → Bool) (n len s : Nat) : Prop where
  fits : s + len ≤ n
  vacant : Vacant f s len
  least : ∀ s', s' < s → ¬ Vacant f s' len

/-- `i` の手前まで調べた走査。`k` は `i` の直前に続く空きの個数である。 -/
structure Scanned (f : Nat → Bool) (len i k : Nat) : Prop where
  short : k < len
  reach : k ≤ i
  vacant : Vacant f (i - k) k
  stopped : k < i → f (i - k - 1) = true
  notYet : ∀ s, s + len ≤ i → ¬ Vacant f s len

section

variable {f : Nat → Bool} {n len i k s : Nat}

theorem Scanned.init (h : 0 < len) : Scanned f len 0 0 where
  short := h
  reach := le_rfl
  vacant := fun _ hi => absurd hi (Nat.not_lt_zero _)
  stopped := fun hi => absurd hi (Nat.not_lt_zero _)
  notYet := by
    intro s hs
    omega

/-- 使用中の番号で、続く空きの個数は 0 に戻る。 -/
theorem Scanned.reset (h : Scanned f len i k) (hf : f i = true) : Scanned f len (i + 1) 0 where
  short := by
    have := h.short
    omega
  reach := Nat.zero_le _
  vacant := fun _ hi => absurd hi (Nat.not_lt_zero _)
  stopped := fun _ => hf
  notYet := by
    intro s hs hv
    by_cases hsi : s + len ≤ i
    · exact h.notYet s hsi hv
    · have hshort := h.short
      have hlast := hv (len - 1) (by omega)
      rw [show s + (len - 1) = i by omega, hf] at hlast
      cases hlast

theorem Scanned.vacant_succ (h : Scanned f len i k) (hf : f i = false) : Vacant f (i - k) (k + 1) := by
  intro j hj
  have := h.reach
  by_cases hjk : j < k
  · exact h.vacant j hjk
  · rw [show i - k + j = i by omega]
    exact hf

/-- 空いている番号で、続く空きの個数は一つ増える。 -/
theorem Scanned.extend (h : Scanned f len i k) (hf : f i = false) (hk : k + 1 ≠ len) :
    Scanned f len (i + 1) (k + 1) where
  short := by
    have := h.short
    omega
  reach := Nat.succ_le_succ h.reach
  vacant := by
    rw [show i + 1 - (k + 1) = i - k by omega]
    exact h.vacant_succ hf
  stopped := by
    intro hi
    rw [show i + 1 - (k + 1) - 1 = i - k - 1 by omega]
    exact h.stopped (by omega)
  notYet := by
    intro s hs hv
    have hshort := h.short
    by_cases hsi : s + len ≤ i
    · exact h.notYet s hsi hv
    · have hstop := hv (i - k - 1 - s) (by omega)
      rw [show s + (i - k - 1 - s) = i - k - 1 by omega, h.stopped (by omega)] at hstop
      cases hstop

/-- 続く空きが求める長さに届いた所が、最初の空きの並びである。 -/
theorem Scanned.found (h : Scanned f len i k) (hf : f i = false) (hk : k + 1 = len) (hn : i < n) :
    FirstFit f n len (i - k) where
  fits := by
    have := h.reach
    omega
  vacant := by
    rw [← hk]
    exact h.vacant_succ hf
  least := by
    intro s hs
    exact h.notYet s (by omega)

/-- 終わりまで調べて届かなければ、空きの並びはない。 -/
theorem Scanned.none (h : Scanned f len n k) : ¬ ∃ s, FirstFit f n len s :=
  fun ⟨s, hs⟩ => h.notYet s hs.fits hs.vacant

/-- 空きの並びがあれば、先頭の最も小さいものがある。 -/
theorem FirstFit.of_vacant (hfit : s + len ≤ n) (hv : Vacant f s len) : ∃ s, FirstFit f n len s := by
  classical
  have hex : ∃ s, s + len ≤ n ∧ Vacant f s len := ⟨s, hfit, hv⟩
  obtain ⟨hfit', hv'⟩ := Nat.find_spec hex
  refine ⟨Nat.find hex, hfit', hv', fun s' hs' hv'' => ?_⟩
  exact Nat.find_min hex hs' ⟨by omega, hv''⟩

/-- 先頭の最も小さい空きの並びは、`n` 個の印だけで決まる。 -/
theorem FirstFit.congr {g : Nat → Bool} (h : ∀ r, r < n → f r = g r) : FirstFit f n len s ↔ FirstFit g n len s := by
  have hvac : ∀ s', s' + len ≤ n → (Vacant f s' len ↔ Vacant g s' len) := fun s' hs' =>
    forall₂_congr fun i hi => by rw [h (s' + i) (by omega)]
  constructor
  · intro hs
    have hfits := hs.fits
    exact ⟨hfits, (hvac s hfits).mp hs.vacant, fun s' hlt hv => hs.least s' hlt ((hvac s' (by omega)).mpr hv)⟩
  · intro hs
    have hfits := hs.fits
    exact ⟨hfits, (hvac s hfits).mpr hs.vacant, fun s' hlt hv => hs.least s' hlt ((hvac s' (by omega)).mp hv)⟩

theorem FirstFit.unique {s' : Nat} (h : FirstFit f n len s) (h' : FirstFit f n len s') : s = s' := by
  rcases Nat.lt_trichotomy s s' with hlt | heq | hgt
  · exact absurd h.vacant (h'.least s hlt)
  · exact heq
  · exact absurd h'.vacant (h.least s' hgt)

end

/-! ## 範囲の書き換え -/

/-- `s` から `len` 個を `used` にする。 -/
def fill (f : Nat → Bool) (s len : Nat) (used : Bool) (r : Nat) : Bool :=
  if s ≤ r ∧ r < s + len then used else f r

/-- `s` から `len` 個のうち、空いているものの個数。 -/
def vacancies (f : Nat → Bool) (s len : Nat) : Nat := Nat.count (fun i => f (s + i) = false) len

section

variable {f : Nat → Bool} {n len s r : Nat} {used : Bool}

theorem fill_of_mem (h : s ≤ r ∧ r < s + len) : fill f s len used r = used := if_pos h

theorem fill_of_notMem (h : ¬ (s ≤ r ∧ r < s + len)) : fill f s len used r = f r := if_neg h

@[simp] theorem fill_zero : fill f s 0 used = f := by
  funext r
  exact fill_of_notMem (by omega)

theorem fill_true_iff : fill f s len true r = true ↔ f r = true ∨ (s ≤ r ∧ r < s + len) := by
  unfold fill
  split <;> simp_all

theorem fill_false_iff : fill f s len false r = true ↔ f r = true ∧ ¬ (s ≤ r ∧ r < s + len) := by
  unfold fill
  split <;> simp_all

theorem vacancies_le : vacancies f s len ≤ len := Nat.count_le _

theorem vacancies_congr {g : Nat → Bool} (h : ∀ i, i < len → g (s + i) = f (s + i)) :
    vacancies g s len = vacancies f s len := count_congr fun i hi => by rw [h i hi]

theorem Vacant.vacancies (h : Vacant f s len) : vacancies f s len = len :=
  Nat.count_iff_forall.mpr fun i hi => h i hi

theorem vacancies_eq_zero : vacancies f s len = 0 ↔ ∀ i, i < len → f (s + i) = true := by
  unfold vacancies
  rw [count_eq_zero_iff]
  exact forall₂_congr fun i _ => by rw [Bool.not_eq_false]

/-- 続く二つの範囲は、分けて数えてよい。 -/
theorem vacancies_add (m : Nat) : vacancies f s (len + m) = vacancies f s len + vacancies f (s + len) m := by
  unfold vacancies
  rw [Nat.count_add]
  congr 1
  exact count_congr fun i _ => by rw [Nat.add_assoc]

theorem vacancies_fill_self : vacancies (fill f s len used) s len = if used then 0 else len := by
  have hin : ∀ i, i < len → fill f s len used (s + i) = used := fun i hi => fill_of_mem (by omega)
  cases used with
  | true => exact vacancies_eq_zero.mpr hin
  | false => exact Vacant.vacancies hin

/-- 範囲を `used` にしたときの、全体の空きの個数の変わり方。 -/
theorem vacancies_fill (h : s + len ≤ n) :
    vacancies (fill f s len used) 0 n + vacancies f s len =
      vacancies f 0 n + (if used then 0 else len) := by
  obtain ⟨m, rfl⟩ := Nat.exists_eq_add_of_le h
  have hlow : vacancies (fill f s len used) 0 s = vacancies f 0 s :=
    vacancies_congr fun i hi => fill_of_notMem (by omega)
  have hhigh : vacancies (fill f s len used) (s + len) m = vacancies f (s + len) m :=
    vacancies_congr fun i _ => fill_of_notMem (by omega)
  have hself : vacancies (fill f s len used) s len = if used then 0 else len := vacancies_fill_self
  simp only [vacancies_add, Nat.zero_add]
  rw [hlow, hhigh, hself]
  omega

/-- 空いた範囲の個数は、全体の空きの個数を越えない。 -/
theorem vacancies_le_total (h : s + len ≤ n) : vacancies f s len ≤ vacancies f 0 n := by
  obtain ⟨m, rfl⟩ := Nat.exists_eq_add_of_le h
  simp only [vacancies_add, Nat.zero_add]
  omega

/-- 塞がった範囲を除いても、空きの個数は変わらない。 -/
theorem vacancies_add_used (h : s + len ≤ n) (hused : ∀ i, i < len → f (s + i) = true) : vacancies f 0 n + len ≤ n := by
  obtain ⟨m, rfl⟩ := Nat.exists_eq_add_of_le h
  have hlow : vacancies f 0 s ≤ s := vacancies_le
  have hhigh : vacancies f (s + len) m ≤ m := vacancies_le
  simp only [vacancies_add, Nat.zero_add]
  rw [vacancies_eq_zero.mpr hused]
  omega

end

end OwStorage.Lib
