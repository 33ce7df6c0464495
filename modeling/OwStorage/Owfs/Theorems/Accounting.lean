import OwStorage.Owfs.Lemmas.Format

/-!
# 空きブロックの勘定

フォーマットしたボリュームに、どんな引数の割り当てと解放の列を行っても、装置の失敗があっても、空きの数の欄は
空きブロックの数に等しい。
-/

namespace OwStorage.Owfs

open Lib Prog

/-- 失敗のない問い合わせの答え。 -/
def isUsedNow (v : Vol) (b : UInt32) : Bool :=
  match (bitmapIsUsed b v.faultless).1 with
  | .ok used => used
  | .error _ => false

/-- 「使っていない」と答えられるデータブロックの数。 -/
def unusedCount (v : Vol) : Nat :=
  Nat.count (fun r => isUsedNow v (v.sb.dataRegionStart + UInt32.ofNat r) = false) v.sb.dataCount

/-- 一つの状態での勘定。 -/
structure Accounted (v : Vol) : Prop where
  freeBlocks : v.sb.freeBlocks.toNat = unusedCount v
  counted : (bitmapCountFree v.faultless).1 = .ok v.sb.freeBlocks
  full : (bitmapAlloc v.faultless).1 = .error .noFreeBlocks ↔ ∀ b, v.sb.IsData b → isUsedNow v b = true

/-- 一回の割り当てと解放の働き。 -/
structure StepExact (e : Event Vol BitmapOp (Except OwfsErr (Option UInt32))) : Prop where
  alloc : ∀ b, e.op = .alloc → e.result = .ok (some b) →
    e.before.sb.IsData b ∧ isUsedNow e.before b = false ∧
      (∀ b', e.before.sb.IsData b' → b'.toNat < b.toNat → isUsedNow e.before b' = true) ∧
      ∀ b', isUsedNow e.after b' = if b' = b then true else isUsedNow e.before b'
  free : ∀ b, e.op = .free b → e.result = .ok none →
    ∀ b', isUsedNow e.after b' = if b' = b then false else isUsedNow e.before b'

/-- 割り当てと解放が保つ条件。 -/
structure Ledgered (v : Vol) : Prop where
  layout : Layout v.sb
  exact : FreeExact v.dev.disk v.sb
  serves : Serves v.dev.toHtlConfig v.sb

section

variable {v v' : Vol} {b : UInt32}

theorem serves_faultless (h : Serves v.dev.toHtlConfig v.sb) : Serves v.faultless.dev.toHtlConfig v.sb :=
  ⟨fun b hb => writes_faultless (h.writes b hb), h.wholeBlocks⟩

theorem Ledgered.isUsedNow_iff (h : Ledgered v) : isUsedNow v b = true ↔ b ∈ usedSet v.dev.disk v.sb := by
  obtain ⟨used, v', hrun, hused, _⟩ :=
    (bitmapIsUsed_spec (v := v.faultless) h.layout b faultFree_faultless (serves_faultless h.serves)).exists_ok
  unfold isUsedNow
  rw [hrun]
  exact hused

theorem Ledgered.isUsedNow_eq (h : Ledgered v) (h' : Ledgered v') {x y : UInt32}
    (he : x ∈ usedSet v.dev.disk v.sb ↔ y ∈ usedSet v'.dev.disk v'.sb) : isUsedNow v x = isUsedNow v' y := by
  rw [Bool.eq_iff_iff, h.isUsedNow_iff, h'.isUsedNow_iff]
  exact he

theorem Ledgered.still (h : Ledgered v) (hs : Still v v') : Ledgered v' := by
  obtain ⟨c, rfl⟩ := hs
  exact ⟨h.layout, h.exact, h.serves⟩

theorem Ledgered.flip (h : Ledgered v) {used : Bool} (hf : Flipped v v' b used) : Ledgered v' := by
  refine ⟨hf.sameShape.layout h.layout, hf.freeExact h.exact, ?_⟩
  rw [hf.dev.config]
  exact hf.sameShape.serves h.serves

/-- 変わったブロックのほかの答えは変わらない。 -/
theorem Ledgered.isUsedNow_flip (h : Ledgered v) {used : Bool} (hf : Flipped v v' b used) (x : UInt32) :
    isUsedNow v' x = if x = b then used else isUsedNow v x := by
  have h' := h.flip hf
  by_cases hx : v.sb.IsData x
  · have hmem := hf.mem_usedSet hx
    by_cases hxb : x = b
    · rw [if_pos hxb] at hmem ⊢
      rw [Bool.eq_iff_iff, h'.isUsedNow_iff, hmem]
    · rw [if_neg hxb] at hmem ⊢
      exact h'.isUsedNow_eq h hmem
  · have hxb : x ≠ b := by
      rintro rfl
      exact hx hf.isData
    rw [if_neg hxb]
    refine h'.isUsedNow_eq h ⟨fun hu => ?_, fun hu => absurd hu.1 hx⟩
    exact absurd (hf.sameShape.isData.mp hu.1) hx

/-- 印のないブロックの数は、答えから数えても同じである。 -/
theorem Ledgered.unusedCount_eq (h : Ledgered v) : unusedCount v = freeCount v.dev.disk v.sb := by
  have hne := h.layout.dataNonempty
  have hlt := v.sb.totalBlocks.toNat_lt
  unfold unusedCount freeCount Nat.count
  apply List.countP_congr
  intro r hr
  have hr : r < v.sb.totalBlocks.toNat - v.sb.dataRegionStart.toNat := List.mem_range.mp hr
  have hb : (v.sb.dataRegionStart + UInt32.ofNat r).toNat = v.sb.dataRegionStart.toNat + r := by
    rw [toNat_add_lt (by rw [toNat_ofNat_lt (by omega)]; omega), toNat_ofNat_lt (by omega)]
  have hd : v.sb.IsData (v.sb.dataRegionStart + UInt32.ofNat r) := ⟨by omega, by omega⟩
  have hrel : v.sb.relOf (v.sb.dataRegionStart + UInt32.ofNat r) = r := by
    unfold Superblock.relOf
    omega
  have hiff : isUsedNow v (v.sb.dataRegionStart + UInt32.ofNat r) = true ↔ bitOf v.dev.disk v.sb r = true := by
    rw [h.isUsedNow_iff]
    refine ⟨fun hu => ?_, fun hu => ⟨hd, ?_⟩⟩
    · rw [← hrel]
      exact hu.2
    · rw [hrel]
      exact hu
  simp only [decide_eq_true_eq, ← Bool.not_eq_true, hiff]

theorem Ledgered.accounted (h : Ledgered v) : Accounted v := by
  have hs := serves_faultless h.serves
  have hexact : v.sb.freeBlocks.toNat = freeCount v.dev.disk v.sb := h.exact
  refine ⟨hexact.trans h.unusedCount_eq.symm, ?_, ?_⟩
  · obtain ⟨n, v', hrun, rfl, _⟩ :=
      (bitmapCountFree_spec (v := v.faultless) h.layout faultFree_faultless hs).exists_ok
    rw [hrun]
    refine congrArg Except.ok (UInt32.toNat_inj.mp ?_)
    change (UInt32.ofNat (freeCount v.dev.disk v.sb)).toNat = _
    rw [← hexact, UInt32.ofNat_toNat]
  · have hspec := bitmapAlloc_spec (v := v.faultless) h.layout
    unfold wp at hspec
    rcases hrun : bitmapAlloc v.faultless with ⟨r, v'⟩
    rw [hrun] at hspec
    cases r with
    | ok b =>
        refine ⟨fun he => (by cases he), fun hall => ?_⟩
        have hu := (h.isUsedNow_iff.mp (hall b hspec.1.isData)).2
        have hwas := hspec.1.was
        change bitOf v.dev.disk v.sb (v.sb.relOf b) = _ at hwas
        rw [hu] at hwas
        cases hwas
    | error e =>
        rcases hspec.2 with ⟨rfl, hfull⟩ | ⟨_, hno⟩
        · refine ⟨fun _ b hb => h.isUsedNow_iff.mpr ?_, fun _ => rfl⟩
          rcases hfull with hz | hall
          · -- 空きの数が 0 なら、印のないブロックはない。
            have hcount : freeCount v.dev.disk v.sb = 0 := by
              rw [← hexact]
              exact congrArg UInt32.toNat hz
            have hbit := count_eq_zero_iff.mp hcount _ hb.relOf_lt
            exact ⟨hb, by rwa [Bool.not_eq_false] at hbit⟩
          · exact hall b hb
        · exact absurd ⟨faultFree_faultless, hs⟩ hno

/-- 割り当て一回。 -/
theorem Ledgered.alloc (h : Ledgered v) :
    wp (BitmapOp.run .alloc)
      (fun r v' => Ledgered v' ∧ ∀ b, r = some b → Flipped v v' b true ∧
        ∀ b', v.sb.IsData b' → b'.toNat < b.toNat → b' ∈ usedSet v.dev.disk v.sb)
      (fun _ v' => Ledgered v') v := by
  unfold BitmapOp.run
  rw [wp_bind]
  refine (bitmapAlloc_spec h.layout).mono ?_ (fun _ _ he => h.still he.1)
  rintro b v' hb
  refine ⟨h.flip hb.1, fun b' he => ?_⟩
  cases he
  exact hb

/-- 解放一回。二重の解放は何も変えない。 -/
theorem Ledgered.free (h : Ledgered v) (block : UInt32) :
    wp (BitmapOp.run (.free block))
      (fun _ v' => Ledgered v' ∧ ∀ b', isUsedNow v' b' = if b' = block then false else isUsedNow v b')
      (fun _ v' => Ledgered v') v := by
  unfold BitmapOp.run
  rw [wp_bind]
  refine (bitmapFree_spec h.layout block).mono ?_ (fun _ _ he => h.still he.1)
  rintro _ v' ⟨_, hf | ⟨hno, hs⟩⟩
  · exact ⟨h.flip hf, h.isUsedNow_flip hf⟩
  · have h' := h.still hs
    obtain ⟨c, rfl⟩ := hs
    refine ⟨h', fun b' => ?_⟩
    by_cases hb : b' = block
    · rw [if_pos hb, hb, ← Bool.not_eq_true, h'.isUsedNow_iff]
      exact hno
    · rw [if_neg hb]
      exact h'.isUsedNow_eq h Iff.rfl

theorem Ledgered.step (h : Ledgered v) (op : BitmapOp) :
    Ledgered (op.run v).2 ∧ StepExact (event BitmapOp.run op v) := by
  cases op with
  | alloc =>
      refine ⟨(h.alloc.mono (fun _ _ ha => ha.1) (fun _ _ ha => ha)).state, ⟨fun b _ hres => ?_, ?_⟩⟩
      · obtain ⟨_, hb⟩ := h.alloc.ok (run_eq hres)
        obtain ⟨hf, hlow⟩ := hb b rfl
        have hunused : isUsedNow v b = false := by
          rw [← Bool.not_eq_true, h.isUsedNow_iff]
          intro hu
          have hwas := hf.was
          rw [hu.2] at hwas
          cases hwas
        exact ⟨hf.isData, hunused, fun b' hb' hlt => h.isUsedNow_iff.mpr (hlow b' hb' hlt), h.isUsedNow_flip hf⟩
      · rintro b hop
        cases hop
  | free block =>
      refine ⟨((h.free block).mono (fun _ _ ha => ha.1) (fun _ _ ha => ha)).state, ⟨?_, fun b hop hres => ?_⟩⟩
      · rintro b hop
        cases hop
      · cases hop
        exact ((h.free block).ok (run_eq hres)).2

end

/-- フォーマットしたボリュームへの割り当てと解放の列は、装置の失敗があっても、勘定を合わせたまま進む。 -/
theorem free_accounting_exact {d₀ d : HtlDevice} {totalBlocks : UInt32} {label : Option (List UInt8)} {v : Vol}
    (hformat : formatVolume totalBlocks label d₀ = (.ok (), d)) (hopen : Opened d v) (ops : List BitmapOp) :
    Accounted (final BitmapOp.run ops v) ∧ ∀ e ∈ trace BitmapOp.run ops v, Accounted e.before ∧ StepExact e := by
  obtain ⟨hinv, hserves, _⟩ := volInv_of_opened hformat hopen
  have hstart : Ledgered v := ⟨hinv.sound.layout, hinv.exact, hserves⟩
  obtain ⟨hfin, hall⟩ := trace_invariant (I := Ledgered) (P := fun _ => True)
    (fun op _ h _ => (h.step op).1) ops v hstart fun _ _ => trivial
  refine ⟨hfin.accounted, fun e he => ?_⟩
  obtain ⟨hbefore, heq⟩ := hall e he
  refine ⟨hbefore.accounted, ?_⟩
  rw [heq]
  exact (hbefore.step e.op).2

/-- 二重の解放と、範囲の外の解放を含む例。 -/
theorem free_accounting_exact_on_blankDevice :
    ∃ v, Opened (formatVolume 280 none blankDevice).2 v ∧
      Accounted (final BitmapOp.run [.alloc, .free 275, .free 275, .free 0, .free 9999] v) := by
  rw [snd_format_blankDevice]
  obtain ⟨v, hopen⟩ := opened_of_formatVolume faultFree_blankDevice format_blankDevice
  exact ⟨v, hopen, (free_accounting_exact format_blankDevice hopen _).1⟩

end OwStorage.Owfs
