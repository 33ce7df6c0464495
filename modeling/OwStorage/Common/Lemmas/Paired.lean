import OwStorage.Common.Lemmas.Htl
import OwStorage.Lib.Coupled
import OwStorage.Lib.Words

/-!
# 中身だけが違う二つの装置

同じ設定と同じ時刻を持ち、ディスクの中身だけが違う二つの装置を、同じ呼び出しで並べて動かす。書いたブロックは揃い、
揃ったブロックから読んだ内容も揃う。
-/

namespace OwStorage

open Lib Prog

/-- 中身を `disk` に替えた装置。 -/
def HtlDevice.holding (d : HtlDevice) (disk : Disk) : HtlDevice := { d with disk := disk }

/-- 二つのディスクがブロック `b` で揃うか、どちらも始めのままである。 -/
def SameOrKept (disk disk' now now' : Disk) (b : UInt32) : Prop := now' b = now b ∨ now b = disk b ∧ now' b = disk' b

/-- 中身が `disk` と `disk'` の装置から並んで進んだ二つの装置。`A` のブロックは揃っている。 -/
structure Paired (disk disk' : Disk) (A : Set UInt32) (d d' : HtlDevice) : Prop where
  config : d'.toHtlConfig = d.toHtlConfig
  clock : d'.clock = d.clock
  agree : ∀ b ∈ A, d'.disk b = d.disk b
  rest : ∀ b, SameOrKept disk disk' d.disk d'.disk b

section

variable {disk disk' : Disk} {A B : Set UInt32} {d d' : HtlDevice} {b : UInt32} {buf : Block}

theorem paired_holding : Paired d.disk disk' ∅ d (d.holding disk') :=
  ⟨rfl, rfl, fun _ hno => hno.elim, fun _ => .inr ⟨rfl, rfl⟩⟩

theorem Paired.mono (h : Paired disk disk' A d d') (hB : B ⊆ A) : Paired disk disk' B d d' :=
  ⟨h.config, h.clock, fun b hb => h.agree b (hB hb), h.rest⟩

theorem Paired.tick (h : Paired disk disk' A d d') (c : Nat) : Paired disk disk' A (d.atClock c) (d'.atClock c) :=
  ⟨h.config, rfl, h.agree, h.rest⟩

theorem Paired.valid (h : Paired disk disk' A d d') : htlDeviceValid d = htlDeviceValid d' := by
  unfold htlDeviceValid
  rw [h.config]

theorem Paired.store (h : Paired disk disk' A d d') :
    Paired disk disk' (insert b A) (d.store b buf) (d'.store b buf) := by
  refine ⟨h.config, h.clock, fun c hc => ?_, fun c => ?_⟩
  · simp only [HtlDevice.disk_store]
    by_cases hcb : c = b
    · rw [hcb, Function.update_self, Function.update_self]
    · rw [Function.update_of_ne hcb, Function.update_of_ne hcb]
      exact h.agree c (hc.resolve_left hcb)
  · unfold SameOrKept
    simp only [HtlDevice.disk_store]
    by_cases hcb : c = b
    · rw [hcb, Function.update_self, Function.update_self]
      exact .inl rfl
    · rw [Function.update_of_ne hcb, Function.update_of_ne hcb]
      exact h.rest c

theorem coupled_driverCall {α : Type} {R : α → α → Prop} {act act' : HtlDevice → α × HtlDevice}
    (h : ∀ d d', Paired disk disk' A d d' → R (act d).1 (act' d').1 ∧ Paired disk disk' B (act d).2 (act' d').2) :
    Coupled (Paired disk disk' A) (Paired disk disk' B) (Paired disk disk' A) R (driverCall act) (driverCall act') := by
  intro d d' hd
  unfold driverCall
  have hfault : d'.fault d'.clock = d.fault d.clock := by rw [hd.config, hd.clock]
  rw [hfault, hd.clock]
  cases d.fault d.clock with
  | none => exact .ok (h d d' hd).1 ((h d d' hd).2.tick (d.clock + 1))
  | some e => exact .error e (hd.tick (d.clock + 1))

theorem coupled_htlReadBlock (hb : b ∈ A) :
    Coupled (Paired disk disk' A) (Paired disk disk' A) (Paired disk disk' A)
      (fun blk blk' => blk = blk') (htlReadBlock b) (htlReadBlock b) := by
  unfold htlReadBlock
  refine Coupled.get_bind fun d d' hd => ?_
  rw [hd.config, ← hd.valid]
  refine Coupled.failIf Iff.rfl (fun _ _ h => h) fun _ => Coupled.failIf Iff.rfl (fun _ _ h => h) fun _ => ?_
  exact coupled_driverCall fun d d' hd => ⟨(hd.agree b hb).symm, hd⟩

theorem coupled_htlWriteBlock :
    Coupled (Paired disk disk' A) (Paired disk disk' (insert b A)) (Paired disk disk' A) Eq
      (htlWriteBlock b buf) (htlWriteBlock b buf) := by
  unfold htlWriteBlock
  refine Coupled.get_bind fun d d' hd => ?_
  rw [hd.config, ← hd.valid]
  refine Coupled.failIf Iff.rfl (fun _ _ h => h) fun _ => Coupled.failIf Iff.rfl (fun _ _ h => h) fun _ =>
    Coupled.failIf Iff.rfl (fun _ _ h => h) fun _ => ?_
  exact coupled_driverCall fun d d' hd => ⟨rfl, hd.store⟩

theorem coupled_htlZeroBlock :
    Coupled (Paired disk disk' A) (Paired disk disk' (insert b A)) (Paired disk disk' A) Eq
      (htlZeroBlock b) (htlZeroBlock b) := by
  unfold htlZeroBlock
  refine Coupled.get_bind fun d d' hd => ?_
  rw [hd.config, ← hd.valid]
  refine Coupled.failIf Iff.rfl (fun _ _ h => h) fun _ => ?_
  by_cases hsize : d.blockSize ≤ 4096
  · rw [if_pos hsize]
    exact coupled_htlWriteBlock
  · rw [if_neg hsize]
    exact Coupled.throw _

theorem coupled_htlFlushCache :
    Coupled (Paired disk disk' A) (Paired disk disk' A) (Paired disk disk' A) Eq htlFlushCache htlFlushCache := by
  unfold htlFlushCache
  refine Coupled.get_bind fun d d' hd => ?_
  rw [hd.config, ← hd.valid]
  refine Coupled.failIf Iff.rfl (fun _ _ h => h) fun _ => ?_
  by_cases hflush : d.hasFlush = true
  · rw [if_pos hflush]
    exact coupled_driverCall fun d d' hd => ⟨rfl, hd⟩
  · rw [if_neg hflush]
    exact Coupled.pure rfl

theorem coupled_htlGetEntropy (n : Nat) :
    Coupled (Paired disk disk' A) (Paired disk disk' A) (Paired disk disk' A) Eq
      (htlGetEntropy n) (htlGetEntropy n) := by
  unfold htlGetEntropy
  refine Coupled.get_bind fun d d' hd => ?_
  rw [hd.config, ← hd.valid]
  refine Coupled.failIf Iff.rfl (fun _ _ h => h) fun _ => ?_
  cases d.entropy with
  | none => exact Coupled.throw _
  | some f => exact (Twin.ofExcept (f n)).coupled

theorem Paired.trans {e e' : HtlDevice} (h : Paired disk disk' A d d') (h' : Paired d.disk d'.disk B e e') :
    Paired disk disk' (A ∪ B) e e' := by
  refine ⟨h'.config, h'.clock, ?_, fun b => ?_⟩
  · rintro b (hb | hb)
    · rcases h'.rest b with hsame | ⟨hkept, hkept'⟩
      · exact hsame
      · rw [hkept, hkept']
        exact h.agree b hb
    · exact h'.agree b hb
  · rcases h'.rest b with hsame | ⟨hkept, hkept'⟩
    · exact .inl hsame
    · unfold SameOrKept
      rw [hkept, hkept']
      exact h.rest b

/-- どの中身からも `B` を揃える計算は、すでに揃ったブロックを揃えたままにする。 -/
theorem coupled_frame {ε α : Type} {R : α → α → Prop} {p : Prog HtlDevice ε α}
    (h : ∀ disk disk', Coupled (Paired disk disk' ∅) (Paired disk disk' B) (Paired disk disk' ∅) R p p) :
    Coupled (Paired disk disk' A) (Paired disk disk' (A ∪ B)) (Paired disk disk' A) R p p := by
  intro d d' hd
  have hout := h d.disk d'.disk d d' ⟨hd.config, hd.clock, fun _ hno => hno.elim, fun _ => .inr ⟨rfl, rfl⟩⟩
  generalize p d = r at hout ⊢
  generalize p d' = r' at hout ⊢
  cases hout with
  | ok hab he => exact .ok hab (hd.trans he)
  | error e he => exact .error e ((hd.trans he).mono Set.subset_union_left)

/-! ## 前の中身に依らない計算 -/

/-- ディスクの前の中身に依らない計算。結果は同じで、どのブロックも、同じ内容になるか、元のままである。値を返せば、`A` の
ブロックは同じ内容になる。 -/
structure Oblivious {ε : Type} (p : Prog HtlDevice ε Unit) (A : Set UInt32) : Prop where
  result : ∀ (d : HtlDevice) (disk' : Disk), (p (d.holding disk')).1 = (p d).1
  rest : ∀ (d : HtlDevice) (disk' : Disk) (b : UInt32),
    SameOrKept d.disk disk' (p d).2.disk (p (d.holding disk')).2.disk b
  settled : ∀ (d : HtlDevice) (disk' : Disk), (p d).1 = .ok () →
    ∀ b ∈ A, (p (d.holding disk')).2.disk b = (p d).2.disk b

theorem oblivious_of_coupled {ε : Type} {p : Prog HtlDevice ε Unit}
    (h : ∀ disk disk', Coupled (Paired disk disk' ∅) (Paired disk disk' A) (Paired disk disk' ∅) Eq p p) :
    Oblivious p A := by
  have hweak : ∀ (d : HtlDevice) (disk' : Disk), Paired d.disk disk' ∅ (p d).2 (p (d.holding disk')).2 := fun d disk' =>
    (((h d.disk disk').mono (fun _ _ hd => hd) (fun _ _ hd => hd.mono (Set.empty_subset A)) (fun _ _ hd => hd)
      fun _ _ h => h) d (d.holding disk') paired_holding).state
  refine ⟨fun d disk' => ?_, fun d disk' => (hweak d disk').rest, fun d disk' hok => ?_⟩
  · exact (h d.disk disk' d (d.holding disk') paired_holding).matched.eq.symm
  · have hout := h d.disk disk' d (d.holding disk') paired_holding
    generalize p d = r at hout hok ⊢
    generalize p (d.holding disk') = r' at hout ⊢
    cases hout with
    | ok _ he => exact he.agree
    | error _ _ => cases hok

/-! ## 並んだブロックを埋める -/

/-- 番号が `m` 以上 `n` 未満のブロック。 -/
def blocksIn (m n : Nat) : Set UInt32 := { b | m ≤ b.toNat ∧ b.toNat < n }

theorem blocksIn_succ_subset {m n : Nat} {c : UInt32} (hc : c.toNat = n) :
    blocksIn m (n + 1) ⊆ insert c (blocksIn m n) := by
  rintro b ⟨hm, hn⟩
  by_cases hb : b.toNat = n
  · exact .inl (UInt32.toNat_inj.mp (by rw [hb, hc]))
  · exact .inr ⟨hm, by omega⟩

theorem union_blocksIn_succ_subset (A : Set UInt32) {first : UInt32} {i : Nat} (hi : first.toNat + i < 2 ^ 32) :
    A ∪ blocksIn first.toNat (first.toNat + (i + 1)) ⊆
      insert (first + UInt32.ofNat i) (A ∪ blocksIn first.toNat (first.toNat + i)) := by
  have hat : (first + UInt32.ofNat i).toNat = first.toNat + i := by
    rw [toNat_add_lt (by rw [toNat_ofNat_lt (by omega)]; omega), toNat_ofNat_lt (by omega)]
  rw [← Set.union_insert]
  exact Set.union_subset_union_right A (blocksIn_succ_subset hat)

theorem coupled_wipe {ε : Type} {mapErr : HtlErr → ε} {n : Nat} (hn : n ≤ 2 ^ 32) :
    Coupled (Paired disk disk' (blocksIn 0 0)) (Paired disk disk' (blocksIn 0 n)) (Paired disk disk' ∅) Eq
      (Prog.forUpto n fun b => do
        match ← Prog.attempt (htlZeroBlock (UInt32.ofNat b)) with
        | .ok _ => pure ()
        | .error e => Prog.throw (mapErr e))
      (Prog.forUpto n fun b => do
        match ← Prog.attempt (htlZeroBlock (UInt32.ofNat b)) with
        | .ok _ => pure ()
        | .error e => Prog.throw (mapErr e)) := by
  apply @Coupled.forUpto _ _ _ _ (fun i => Paired disk disk' (blocksIn 0 i))
  intro i hi
  have hzero : (UInt32.ofNat i).toNat = i := toNat_ofNat_lt (by omega)
  refine Coupled.attempt_bind coupled_htlZeroBlock (fun _ _ _ => ?_) fun e => ?_
  · exact (Coupled.pure rfl).mono (fun _ _ hd => hd.mono (blocksIn_succ_subset hzero)) (fun _ _ hd => hd)
      (fun _ _ hd => hd) fun _ _ h => h
  · exact (Coupled.throw (mapErr e)).mono (fun _ _ hd => hd.mono (Set.empty_subset _)) (fun _ _ hd => hd)
      (fun _ _ hd => hd) fun _ _ h => h

end

end OwStorage
