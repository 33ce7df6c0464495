import OwStorage.Common.Htl

/-!
# 装置の操作の規則

読み書きの結果を、状態の式と、失敗するための必要条件として一度だけ述べる。以後の証明は
`htlReadBlock` などの定義を開かない。
-/

namespace OwStorage

open Lib Prog

/-- どの呼び出しも失敗しない装置。 -/
def HtlConfig.FaultFree (c : HtlConfig) : Prop := ∀ k, c.fault k = none

/-- ドライバは、一回の呼び出しで 4096 バイトのブロックを丸ごと動かす。 -/
def HtlConfig.WholeBlocks (c : HtlConfig) : Prop := c.blockSize = 0x1000

instance (c : HtlConfig) : Decidable c.WholeBlocks := inferInstanceAs (Decidable (c.blockSize = 0x1000))

theorem HtlConfig.WholeBlocks.le {c : HtlConfig} (h : c.WholeBlocks) : c.blockSize ≤ 4096 := by
  rw [show c.blockSize = 0x1000 from h]
  decide

/-- どの呼び出しも失敗せず、ブロックを丸ごと動かす装置。 -/
structure HtlConfig.Reliable (c : HtlConfig) : Prop where
  faultFree : c.FaultFree
  wholeBlocks : c.WholeBlocks

/-- ブロック `b` を読める。 -/
structure HtlConfig.Reads (c : HtlConfig) (b : UInt32) : Prop where
  valid : ¬ c.blockSize < 0x200
  inRange : ¬ (c.totalBlocks > 0 ∧ b ≥ c.totalBlocks)

/-- ブロック `b` に書ける。 -/
structure HtlConfig.Writes (c : HtlConfig) (b : UInt32) : Prop extends c.Reads b where
  unprotected : c.writeProtect = 0

theorem HtlConfig.Writes.of_le {c : HtlConfig} {b b' : UInt32} (h : c.Writes b) (hle : b'.toNat ≤ b.toNat) :
    c.Writes b' :=
  ⟨⟨h.valid, fun hout =>
    h.inRange ⟨hout.1, UInt32.le_iff_toNat_le.mpr (le_trans (UInt32.le_iff_toNat_le.mp hout.2) hle)⟩⟩,
    h.unprotected⟩

def HtlDevice.atClock (d : HtlDevice) (c : Nat) : HtlDevice := { d with clock := c }

namespace HtlDevice

variable {d : HtlDevice} {b : UInt32} {blk : Block} {c : Nat}

@[simp] theorem disk_atClock : (d.atClock c).disk = d.disk := rfl
@[simp] theorem trail_atClock : (d.atClock c).trail = d.trail := rfl
@[simp] theorem config_atClock : (d.atClock c).toHtlConfig = d.toHtlConfig := rfl
@[simp] theorem disk_store : (d.store b blk).disk = Function.update d.disk b blk := rfl
@[simp] theorem trail_store : (d.store b blk).trail = Function.update d.disk b blk :: d.trail := rfl
@[simp] theorem config_store : (d.store b blk).toHtlConfig = d.toHtlConfig := rfl

end HtlDevice

section

variable {d : HtlDevice} {b : UInt32} {E : HtlErr → HtlDevice → Prop}

theorem htlDeviceValid_eq_false : (! htlDeviceValid d) = true ↔ d.blockSize < 0x200 := by
  simp [htlDeviceValid]

theorem wp_driverCall {α : Type} {act : HtlDevice → α × HtlDevice} {Q : α → HtlDevice → Prop}
    (hok : ∀ c, Q (act d).1 ((act d).2.atClock c))
    (herr : ∀ e c, ¬ d.FaultFree → E e (d.atClock c)) : wp (driverCall act) Q E d := by
  unfold wp driverCall
  cases hf : d.fault d.clock with
  | none => exact hok _
  | some e =>
      refine herr e _ fun hff => ?_
      rw [hff d.clock] at hf
      cases hf

theorem wp_htlReadBlock {Q : Block → HtlDevice → Prop}
    (hok : ∀ c, d.Reads b → Q (d.disk b) (d.atClock c))
    (herr : ∀ e c, ¬ (d.FaultFree ∧ d.Reads b) → E e (d.atClock c)) :
    wp (htlReadBlock b) Q E d := by
  unfold htlReadBlock
  simp only [wp_bind, wp_get, wp_failIf, htlDeviceValid_eq_false]
  refine ⟨fun hv => herr _ d.clock fun h => h.2.valid hv, fun hv => ⟨fun hr => ?_, fun hr => ?_⟩⟩
  · exact herr _ d.clock fun h => h.2.inRange hr
  · exact wp_driverCall (fun c => hok c ⟨hv, hr⟩) (fun e c hf => herr e c fun h => hf h.1)

theorem wp_htlWriteBlock {buf : Block} {Q : Unit → HtlDevice → Prop}
    (hok : ∀ c, d.Writes b → Q () ((d.store b buf).atClock c))
    (herr : ∀ e c, ¬ (d.FaultFree ∧ d.Writes b) → E e (d.atClock c)) :
    wp (htlWriteBlock b buf) Q E d := by
  unfold htlWriteBlock
  simp only [wp_bind, wp_get, wp_failIf, htlDeviceValid_eq_false]
  refine ⟨fun hv => herr _ d.clock fun h => h.2.valid hv,
    fun hv => ⟨fun hw => ?_, fun hw => ⟨fun hr => ?_, fun hr => ?_⟩⟩⟩
  · exact herr _ d.clock fun h => hw h.2.unprotected
  · exact herr _ d.clock fun h => h.2.inRange hr
  · exact wp_driverCall (fun c => hok c ⟨⟨hv, hr⟩, not_not.mp hw⟩) (fun e c hf => herr e c fun h => hf h.1)

theorem wp_htlZeroBlock {Q : Unit → HtlDevice → Prop}
    (hok : ∀ c, d.Writes b → Q () ((d.store b (Bytes.zero 4096)).atClock c))
    (herr : ∀ e c, ¬ (d.FaultFree ∧ d.Writes b ∧ d.blockSize ≤ 4096) → E e (d.atClock c)) :
    wp (htlZeroBlock b) Q E d := by
  unfold htlZeroBlock
  simp only [wp_bind, wp_get, wp_failIf, htlDeviceValid_eq_false]
  refine ⟨fun hv => herr _ d.clock fun h => h.2.1.valid hv, fun _ => ?_⟩
  rw [wp_ite]
  refine ⟨fun hs => ?_, fun hs => ?_⟩
  · exact wp_htlWriteBlock hok fun e c hn => herr e c fun h => hn ⟨h.1, h.2.1⟩
  · exact herr _ d.clock fun h => hs h.2.2

theorem wp_htlFlushCache {Q : Unit → HtlDevice → Prop} (hok : ∀ c, Q () (d.atClock c))
    (herr : ∀ e c, ¬ (d.FaultFree ∧ ¬ d.blockSize < 0x200) → E e (d.atClock c)) :
    wp htlFlushCache Q E d := by
  unfold htlFlushCache
  simp only [wp_bind, wp_get, wp_failIf, htlDeviceValid_eq_false]
  refine ⟨fun hv => herr _ d.clock fun h => h.2 hv, fun hv => ?_⟩
  rw [wp_ite]
  refine ⟨fun _ => ?_, fun _ => ?_⟩
  · exact wp_driverCall hok fun e c hf => herr e c fun h => hf h.1
  · exact hok d.clock

theorem wp_htlGetEntropy {n : Nat} {Q : Bytes n → HtlDevice → Prop}
    (hok : ∀ a, Q a d) (herr : ∀ e, E e d) : wp (htlGetEntropy n) Q E d := by
  unfold htlGetEntropy
  simp only [wp_bind, wp_get, wp_failIf]
  refine ⟨fun _ => herr _, fun _ => ?_⟩
  split
  · exact herr _
  · rw [wp_ofExcept]
    exact ⟨fun a _ => hok a, fun e _ => herr e⟩

end

/-! ## 失敗のない装置の実行 -/

section

variable {d : HtlDevice} {b : UInt32}

theorem driverCall_faultFree {α : Type} {act : HtlDevice → α × HtlDevice} (hff : d.FaultFree) :
    driverCall act d = (.ok (act d).1, (act d).2.atClock (d.clock + 1)) := by
  unfold driverCall
  rw [hff d.clock]
  rfl

theorem htlReadBlock_faultFree (hff : d.FaultFree) (hr : d.Reads b) :
    htlReadBlock b d = (.ok (d.disk b), d.atClock (d.clock + 1)) := by
  unfold htlReadBlock
  refine run_bind rfl (run_bind (run_failIf ?_) (run_bind (run_failIf hr.inRange) (driverCall_faultFree hff)))
  rw [htlDeviceValid_eq_false]
  exact hr.valid

theorem htlWriteBlock_faultFree {buf : Block} (hff : d.FaultFree) (hw : d.Writes b) :
    htlWriteBlock b buf d = (.ok (), (d.store b buf).atClock (d.clock + 1)) := by
  unfold htlWriteBlock
  refine run_bind rfl (run_bind (run_failIf ?_) (run_bind (run_failIf (not_not.mpr hw.unprotected))
    (run_bind (run_failIf hw.inRange) (driverCall_faultFree hff))))
  rw [htlDeviceValid_eq_false]
  exact hw.valid

end

/-! ## 呼び出しの番号 -/

/-- 次の `n` 回の呼び出しは失敗しない。 -/
def HtlDevice.Calm (d : HtlDevice) (n : Nat) : Prop := ∀ k, k < n → d.fault (d.clock + k) = none

section

variable {d : HtlDevice} {b : UInt32} {n : Nat} {E : HtlErr → HtlDevice → Prop}

theorem HtlDevice.Calm.mono {m : Nat} (h : d.Calm n) (hm : m ≤ n) : d.Calm m := fun k hk => h k (by omega)

theorem HtlDevice.calm_zero : d.Calm 0 := fun _ hk => absurd hk (Nat.not_lt_zero _)

theorem HtlDevice.Calm.succ (h : d.Calm n) (hn : d.fault (d.clock + n) = none) : d.Calm (n + 1) := by
  intro k hk
  by_cases hkn : k = n
  · rw [hkn]
    exact hn
  · exact h k (by omega)

theorem wp_driverCall_clock {α : Type} {act : HtlDevice → α × HtlDevice} {Q : α → HtlDevice → Prop}
    (hok : d.fault d.clock = none → Q (act d).1 ((act d).2.atClock (d.clock + 1)))
    (herr : ∀ e, d.fault d.clock = some e → E e (d.atClock (d.clock + 1))) : wp (driverCall act) Q E d := by
  unfold wp driverCall
  cases hf : d.fault d.clock with
  | none => exact hok hf
  | some e => exact herr e hf

theorem wp_htlReadBlock_clock {Q : Block → HtlDevice → Prop} (hr : d.Reads b)
    (hok : d.fault d.clock = none → Q (d.disk b) (d.atClock (d.clock + 1)))
    (herr : ∀ e, d.fault d.clock = some e → E e (d.atClock (d.clock + 1))) : wp (htlReadBlock b) Q E d := by
  unfold htlReadBlock
  simp only [wp_bind, wp_get, wp_failIf, htlDeviceValid_eq_false]
  exact ⟨fun hv => absurd hv hr.valid, fun _ => ⟨fun hb => absurd hb hr.inRange, fun _ => wp_driverCall_clock hok herr⟩⟩

theorem wp_htlWriteBlock_clock {buf : Block} {Q : Unit → HtlDevice → Prop} (hr : d.Reads b)
    (hprot : d.writeProtect ≠ 0 → E .writeProtect d)
    (hok : d.writeProtect = 0 → d.fault d.clock = none → Q () ((d.store b buf).atClock (d.clock + 1)))
    (herr : d.writeProtect = 0 → ∀ e, d.fault d.clock = some e → E e (d.atClock (d.clock + 1))) :
    wp (htlWriteBlock b buf) Q E d := by
  unfold htlWriteBlock
  simp only [wp_bind, wp_get, wp_failIf, htlDeviceValid_eq_false]
  refine ⟨fun hv => absurd hv hr.valid, fun _ => ⟨hprot, fun hw => ⟨fun hb => absurd hb hr.inRange, fun _ => ?_⟩⟩⟩
  exact wp_driverCall_clock (hok (not_not.mp hw)) (herr (not_not.mp hw))

end

/-! ## 書いた範囲 -/

/-- 装置が `d` から `d'` へ、`S` の中のブロックだけを書いて移った。途中の書き込みの記録も含む。 -/
structure HtlDevice.Evolves (S : Set UInt32) (d d' : HtlDevice) : Prop where
  config : d'.toHtlConfig = d.toHtlConfig
  disk : ∀ b, b ∉ S → d'.disk b = d.disk b
  trail : ∃ new, d'.trail = new ++ d.trail ∧ ∀ k ∈ new, ∀ b, b ∉ S → k b = d.disk b

namespace HtlDevice.Evolves

variable {S T : Set UInt32} {d d' d'' : HtlDevice}

theorem refl (S : Set UInt32) (d : HtlDevice) : Evolves S d d :=
  ⟨rfl, fun _ _ => rfl, [], rfl, fun _ h => absurd h List.not_mem_nil⟩

theorem atClock {c : Nat} : Evolves S d (d.atClock c) :=
  ⟨rfl, fun _ _ => rfl, [], rfl, fun _ h => absurd h List.not_mem_nil⟩

theorem store {b : UInt32} {blk : Block} {c : Nat} (hb : b ∈ S) : Evolves S d ((d.store b blk).atClock c) := by
  have hout : ∀ b', b' ∉ S → Function.update d.disk b blk b' = d.disk b' := by
    intro b' hb'
    exact Function.update_of_ne (fun h : b' = b => hb' (h ▸ hb)) _ _
  refine ⟨rfl, hout, [Function.update d.disk b blk], rfl, ?_⟩
  intro k hk
  rw [List.mem_singleton.mp hk]
  exact hout

theorem trans (h : Evolves S d d') (h' : Evolves S d' d'') : Evolves S d d'' := by
  obtain ⟨new, htrail, hnew⟩ := h.trail
  obtain ⟨new', htrail', hnew'⟩ := h'.trail
  refine ⟨h'.config.trans h.config, fun b hb => (h'.disk b hb).trans (h.disk b hb), new' ++ new, ?_, ?_⟩
  · rw [htrail', htrail, List.append_assoc]
  · intro k hk b hb
    rcases List.mem_append.mp hk with hk | hk
    · rw [hnew' k hk b hb, h.disk b hb]
    · exact hnew k hk b hb

theorem mono (h : Evolves S d d') (hST : S ⊆ T) : Evolves T d d' := by
  obtain ⟨new, htrail, hnew⟩ := h.trail
  exact ⟨h.config, fun b hb => h.disk b fun hs => hb (hST hs), new, htrail,
    fun k hk b hb => hnew k hk b fun hs => hb (hST hs)⟩

theorem faultFree (h : Evolves S d d') (hf : d.FaultFree) : d'.FaultFree := by
  unfold HtlConfig.FaultFree at hf ⊢
  rw [h.config]
  exact hf

end HtlDevice.Evolves

end OwStorage
