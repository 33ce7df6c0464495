import OwStorage.Owfs.Theorems.ObjectStore

/-!
# ファイルの中身の再現

ファイルの中身は、そのファイルへの通った書き込みと切り詰めを順に当てはめたものに等しい。間に挟まったほかの呼び出しは、失敗したものも
含めて、何も加えない。
-/

namespace OwStorage.Owfs

open Lib Prog

/-- ファイル `n` の中身に、一回の呼び出しを当てはめる。 -/
def replay (n : UInt32) (old : List UInt8) : ApiOp × Except OwfsErr Unit → List UInt8
  | (.data (.fileWrite _ m buf offset len _), .ok _) =>
      if m = n then splice old offset.toNat (buf.take len.toNat) else old
  | (.data (.fileTruncate _ m newSize), .ok _) => if m = n then old.take newSize.toNat else old
  | _ => old

/-- ファイル `n` を追える呼び出し。終わりを越えた所には書かず、`n` を消さず、鍵も変えない。 -/
def ApiOp.Follows (n : UInt32) (s : Objects) : ApiOp → Prop
  | data (.fileWrite _ m _ offset _ _) => m = n → ∀ old, s n = some (.file old) → offset.toNat ≤ old.length
  | data (.inodeFree _ m) => m ≠ n
  | cryptoSetKey _ => False
  | cryptoPurge => False
  | _ => True

section

variable {s s' : Objects} {n c : UInt32} {old : List UInt8} {l : ApiOp × Except OwfsErr Unit}

theorem replay_error (op : ApiOp) (err : OwfsErr) : replay n old (op, .error err) = old := by
  cases op with
  | data op => cases op <;> rfl
  | life op => rfl
  | cryptoSetKey key => rfl
  | cryptoPurge => rfl

theorem replay_observed {op : ApiOp} (hop : op.Observes) : replay n old (op, .ok ()) = old := by
  cases op with
  | data op =>
      cases op with
      | fileWrite => exact hop.elim
      | fileTruncate => exact hop.elim
      | _ => rfl
  | life op => rfl
  | cryptoSetKey key => rfl
  | cryptoPurge => rfl

theorem replay_write {who : OwIdentity} {m : UInt32} {buf : List UInt8} {offset len : UInt32}
    {fits : len.toNat ≤ buf.length} : replay n old (.data (.fileWrite who m buf offset len fits), .ok ()) =
      if m = n then splice old offset.toNat (buf.take len.toNat) else old := rfl

theorem replay_cut {who : OwIdentity} {m newSize : UInt32} :
    replay n old (.data (.fileTruncate who m newSize), .ok ()) = if m = n then old.take newSize.toNat else old := rfl

theorem replay_make (op : MakeOp) (who : OwIdentity) (parent : UInt32) (name : Option (List UInt8)) (nameLen : Nat)
    (r : Except OwfsErr Unit) : replay n old (.data (op.data who parent name nameLen), r) = old := by
  cases op <;> rfl

/-- つながりを加えても、ファイルは変わらない。 -/
theorem Objects.enter_file (hold : s n = some (.file old)) (k : Link) : s.enter c k n = some (.file old) := by
  unfold Objects.enter
  cases hc : s c with
  | none => exact hold
  | some o =>
      cases o with
      | file bytes => exact hold
      | catalog ls =>
          refine (Function.update_of_ne ?_ _ _).trans hold
          rintro rfl
          rw [hold] at hc
          cases hc

/-- 一歩は、追っているファイルの中身を、呼び出しの通りに動かす。 -/
theorem ObjectStep.replays (h : ObjectStep s l s') (hop : l.1.Follows n s) (hold : s n = some (.file old)) :
    s' n = some (.file (replay n old l)) := by
  have hfresh : ∀ {m o}, s m = none → Function.update s m o n = some (.file old) := by
    intro m o hnew
    refine (Function.update_of_ne ?_ _ _).trans hold
    rintro rfl
    rw [hold] at hnew
    cases hnew
  have hother : ∀ {m o}, m ≠ n → Function.update s m o n = some (.file old) := fun hm =>
    (Function.update_of_ne hm.symm _ _).trans hold
  cases h with
  | failed op err => rw [replay_error, hold]
  | orphaned hwho hnew => rw [replay_make, hfresh hnew]
  | observed hobs => rw [replay_observed hobs, hold]
  | allocated hnew => exact hfresh hnew
  | made hnew => rw [replay_make, Objects.enter_file (hfresh hnew)]
  | freed => exact hother hop
  | inserted => exact Objects.enter_file hold _
  | @removed _ c _ _ _ _ hcat _ =>
      refine hother ?_
      rintro rfl
      rw [hold] at hcat
      cases hcat
  | removedDead _ => exact hold
  | @written _ m buf offset len _ was new hwas hidle hnew =>
      rw [replay_write]
      by_cases hm : m = n
      · subst hm
        obtain rfl : was = old := by
          rw [hold] at hwas
          cases hwas
          rfl
        rw [Function.update_self, if_pos rfl]
        by_cases hlen : len = 0
        · rw [hidle hlen, hlen]
          exact congrArg (fun bytes => some (Object.file bytes)) (splice_nil was offset.toNat).symm
        · rw [(hnew hlen).eq_splice (hop rfl was hold)]
      · rw [if_neg hm]
        exact hother hm
  | @writtenDead _ m _ _ _ _ hdead =>
      rw [replay_write, if_neg, hold]
      rintro rfl
      rw [hold] at hdead
      cases hdead
  | @truncated _ m newSize was hwas =>
      rw [replay_cut]
      by_cases hm : m = n
      · subst hm
        obtain rfl : was = old := by
          rw [hold] at hwas
          cases hwas
          rfl
        rw [Function.update_self, if_pos rfl]
      · rw [if_neg hm]
        exact hother hm
  | @truncatedDead _ m _ hdead =>
      rw [replay_cut, if_neg, hold]
      rintro rfl
      rw [hold] at hdead
      cases hdead
  | @rekeyed op _ _ hkey _ =>
      cases op with
      | data op => exact hkey.elim
      | life op => exact hkey.elim
      | cryptoSetKey key => exact hop.elim
      | cryptoPurge => exact hop.elim

end

section

variable {d₀ d : HtlDevice} {totalBlocks n : UInt32} {label : Option (List UInt8)} {v : Vol} {old : List UInt8}

/-- どの実行の後のどのファイルも、以後の中身は、そのファイルへの通った書き込みと切り詰めを順に当てはめたものである。 -/
theorem file_replayed (hff : d₀.FaultFree) (hformat : formatVolume totalBlocks label d₀ = (.ok (), d))
    (hopen : Opened d v) (before ops : List ApiOp)
    (hbefore : ∀ e ∈ trace ApiOp.run before v, Flushed e ∧ e.op.Holds)
    (hold : objects (final ApiOp.run before v) n = some (.file old))
    (hops : ∀ e ∈ trace ApiOp.run ops (final ApiOp.run before v),
      Flushed e ∧ e.op.Holds ∧ e.op.Follows n (objects e.before)) :
    objects (final ApiOp.run ops (final ApiOp.run before v)) n =
      some (.file (((trace ApiOp.run ops (final ApiOp.run before v)).map fun e => (e.op, e.result)).foldl
        (replay n) old)) := by
  have hstart : Intact v ∧ WellNamed v :=
    ⟨intact_of_opened hff hformat hopen, (objects_of_opened hformat hopen).2⟩
  have hkeep : ∀ (op : ApiOp) (v : Vol), Intact v ∧ WellNamed v → Flushed (event ApiOp.run op v) → op.Holds →
      (Intact (op.run v).2 ∧ WellNamed (op.run v).2) ∧
        ObjectStep (objects v) (op, (op.run v).1) (objects (op.run v).2) :=
    fun op v h hflushed hholds => by
      obtain ⟨hl, hstep⟩ := h.1.stepped h.2 op hflushed hholds
      exact ⟨⟨h.1.step op hflushed, hl⟩, hstep⟩
  have hreach := (trace_invariant (I := fun v => Intact v ∧ WellNamed v) (P := fun e => Flushed e ∧ e.op.Holds)
    (fun op v h hP => (hkeep op v h hP.1 hP.2).1) before v hstart hbefore).1
  have hruns := @trace_runs _ _ _ _ _ ApiOp.run (fun v => Intact v ∧ WellNamed v)
    (fun e => Flushed e ∧ e.op.Holds ∧ e.op.Follows n (objects e.before))
    (fun s l s' => ObjectStep s l s' ∧ l.1.Follows n s) objects (fun e => (e.op, e.result))
    (fun op v h hP => ⟨(hkeep op v h hP.1 hP.2.1).1, (hkeep op v h hP.1 hP.2.1).2, hP.2.2⟩) ops _ hreach hops
  exact Runs.replays (P := fun s bytes => s n = some (.file bytes))
    (fun _ _ _ _ h hs => h.1.replays h.2 hs) hruns.2 hold

end

/-! ## 小さなボリュームの例 -/

def allocOps : List ApiOp := [.data (.inodeAlloc ⟨0, 0⟩ entryFile none 0 0)]

/-- 二バイトを書き、検査をして、一バイトに切り詰める。 -/
def editOps : List ApiOp :=
  [.data (.fileWrite ⟨0, 0⟩ 1 [7, 9] 0 2 two_bytes_fit), .life .consistencyCheck, .data (.fileTruncate ⟨0, 0⟩ 1 1)]

theorem objects_allocOps : objects (final ApiOp.run allocOps mountedVolume) 1 = some (.file []) := by
  have hstate : (fun v : Vol => (1 : UInt32).toNat < v.sb.totalInodes.toNat ∧
      (inodeAt v.dev.disk v.sb 1).entryType = entryFile ∧ (inodeAt v.dev.disk v.sb 1).sizeBytes = 0)
      (final ApiOp.run allocOps mountedVolume) := by decide +kernel
  obtain ⟨hn, htype, hsize⟩ := hstate
  rw [objects_file hn htype]
  unfold fileContent
  rw [hsize]
  exact congrArg (fun bytes => some (Object.file bytes))
    (List.length_eq_zero_iff.mp (length_pages (Nat.zero_le _)))

theorem file_replayed_on_mountedVolume :
    objects (final ApiOp.run editOps (final ApiOp.run allocOps mountedVolume)) 1 =
      some (.file (((trace ApiOp.run editOps (final ApiOp.run allocOps mountedVolume)).map fun e =>
        (e.op, e.result)).foldl (replay 1) [])) := by
  refine file_replayed faultFree_blankDevice format_blankDevice
    (.mount (mount_formattedVolume Superblock.zero)) allocOps
    editOps (fun e he => ?_) objects_allocOps fun e he => ?_
  · have hop := op_mem_of_mem_trace he
    unfold allocOps at hop
    unfold Flushed
    rw [List.mem_singleton.mp hop]
    exact ⟨(fun hno => by cases hno), trivial⟩
  · have hop := op_mem_of_mem_trace he
    unfold editOps at hop
    simp only [List.mem_cons, List.not_mem_nil, or_false] at hop
    unfold Flushed
    rcases hop with hop | hop | hop <;> rw [hop]
    · exact ⟨(fun hno => by cases hno), trivial, fun _ _ _ => Nat.zero_le _⟩
    · exact ⟨(fun hno => by cases hno), trivial, trivial⟩
    · exact ⟨(fun hno => by cases hno), trivial, trivial⟩

end OwStorage.Owfs
