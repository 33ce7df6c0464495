import OwStorage.Owfs.Theorems.Protection
import OwStorage.Owfs.Lemmas.Reach

/-!
# 消された inode への操作

解放は、種類の欄に消された印を加えるだけで、種類のほかのビットを残す。ファイルの読み書きとカタログの操作は、自分の種類の
ビットだけを調べるので、消された inode を通してしまう。その検査を通る操作がないかぎり、消された inode への操作はどれも誤りを
返し、ブロックを割り当てない。
-/

namespace OwStorage.Owfs

open Lib Prog

/-! ## 消された番号 -/

/-- 解放が成功した番号。 -/
def freedNumber (who : OwIdentity) (n : UInt32) (v : Vol) : Option UInt32 :=
  if (inodeFree who n v).1.isOk then some n else none

/-- 作成の後始末の解放が成功した番号。 -/
def undoneNumber (who : OwIdentity) (entryType : UInt8) (parent : UInt32) (name : Option (List UInt8)) (nameLen : Nat)
    (v : Vol) : Option UInt32 :=
  match inodeAlloc who entryType name nameLen parent v with
  | (.error _, _) => none
  | (.ok n, v₁) =>
      match catalogInsert who parent name nameLen n entryType v₁ with
      | (.ok _, _) => none
      | (.error _, v₂) => freedNumber who n v₂

/-- 操作の間に、割り当てが渡した番号。 -/
def DataOp.handsOut (v : Vol) : DataOp → Option UInt32
  | inodeAlloc who entryType name nameLen parent => (Owfs.inodeAlloc who entryType name nameLen parent v).1.toOption
  | catalogCreate who parent name nameLen => (Owfs.inodeAlloc who entryFile name nameLen parent v).1.toOption
  | catalogMkdir who parent name nameLen => (Owfs.inodeAlloc who entryCatalog name nameLen parent v).1.toOption
  | _ => none

/-- 操作の間に、解放が成功した番号。 -/
def DataOp.frees (v : Vol) : DataOp → Option UInt32
  | inodeFree who n => freedNumber who n v
  | catalogCreate who parent name nameLen => undoneNumber who entryFile parent name nameLen v
  | catalogMkdir who parent name nameLen => undoneNumber who entryCatalog parent name nameLen v
  | _ => none

/-- 呼び出しの間に、割り当てが渡した番号。 -/
def ApiOp.handsOut (v : Vol) : ApiOp → Option UInt32
  | data op => op.handsOut v
  | _ => none

/-- 呼び出しの間に、解放が成功した番号。 -/
def ApiOp.frees (v : Vol) : ApiOp → Option UInt32
  | data op => op.frees v
  | _ => none

/-- 解放が成功し、その後に割り当てが渡していない番号を、並べて持つ実行。 -/
def ApiOp.step (op : ApiOp) (s : Vol × Finset UInt32) : Except OwfsErr Unit × (Vol × Finset UInt32) :=
  ((op.run s.1).1, (op.run s.1).2, s.2 \ (op.handsOut s.1).toFinset ∪ (op.frees s.1).toFinset)

/-- 番号 `n` の inode を使う、ファイルの読み書きとカタログの操作。長さ 0 の書き込みは除く。 -/
def DataOp.Uses (n : UInt32) : DataOp → Prop
  | fileRead _ m _ _ => m = n
  | fileWrite _ m _ _ len _ => m = n ∧ len ≠ 0
  | fileTruncate _ m _ => m = n
  | catalogLookup _ m _ _ => m = n
  | catalogInsert _ m _ _ _ _ => m = n
  | catalogRemove _ m _ _ => m = n
  | catalogList _ m _ => m = n
  | _ => False

def ApiOp.Uses (n : UInt32) : ApiOp → Prop
  | data op => op.Uses n
  | _ => False

/-- 誤りを返し、ブロックを割り当てない。 -/
def Rebuffed (e : Event (Vol × Finset UInt32) ApiOp (Except OwfsErr Unit)) : Prop :=
  (∃ err, e.result = .error err) ∧
    usedSet e.after.1.dev.disk e.after.1.sb ⊆ usedSet e.before.1.dev.disk e.before.1.sb

/-- 消された印のある inode。 -/
def Dead (v : Vol) (n : UInt32) : Prop :=
  n.toNat < v.sb.totalInodes.toNat ∧ (inodeAt v.dev.disk v.sb n).entryType &&& entryDeleted ≠ 0

/-- 消された印のある inode を使い、種類と権限の検査を通る操作。作成では、渡される番号が親でないものに限る。 -/
def DataOp.Hits (v : Vol) : DataOp → Prop
  | fileRead who n _ _ => Dead v n ∧ (inodeAt v.dev.disk v.sb n).entryType &&& entryFile ≠ 0 ∧
      inodeAccessCheck who (inodeAt v.dev.disk v.sb n) accessRead = .ok ()
  | fileWrite who n _ offset len _ => Dead v n ∧ len ≠ 0 ∧ (inodeAt v.dev.disk v.sb n).entryType &&& entryFile ≠ 0 ∧
      volumeWritable v.sb = .ok () ∧ ¬ Owfs.Fenced who (inodeAt v.dev.disk v.sb n) ∧
      offset.toNat + len.toNat ≤ 1034 * 4096
  | fileTruncate who n _ => Dead v n ∧ (inodeAt v.dev.disk v.sb n).entryType &&& entryFile ≠ 0 ∧
      volumeWritable v.sb = .ok () ∧ ¬ Owfs.Fenced who (inodeAt v.dev.disk v.sb n)
  | catalogInsert who n name nameLen _ entryType =>
      Dead v n ∧ Admissible v name nameLen entryType ∧ Opens who accessWrite v n
  | catalogCreate who n name nameLen => Dead v n ∧ (∃ m : UInt32, m.toNat < n.toNat ∧
      slotVacant (inodeAt v.dev.disk v.sb m) = true) ∧ Admissible v name nameLen entryFile ∧ Opens who accessWrite v n
  | catalogMkdir who n name nameLen => Dead v n ∧ (∃ m : UInt32, m.toNat < n.toNat ∧
      slotVacant (inodeAt v.dev.disk v.sb m) = true) ∧ Admissible v name nameLen entryCatalog ∧
        Opens who accessWrite v n
  | catalogList who n maxEntries => Dead v n ∧ maxEntries ≠ 0 ∧ Opens who accessRead v n
  | _ => False

def ApiOp.Hits (v : Vol) : ApiOp → Prop
  | data op => op.Hits v
  | _ => False

/-! ## 保たれる条件 -/

/-- 消された印のある inode は、ブロックを持たない。 -/
structure Barren (v : Vol) : Prop where
  ready : Ready v
  sums : Summed v
  empty : ∀ n, Dead v n → (inodeAt v.dev.disk v.sb n).blockCount = 0

/-- 条件を保ち、`X` の外の消された inode を消されたままにする。 -/
structure Lays (X : Set UInt32) (v v' : Vol) : Prop where
  barren : Barren v'
  dead : ∀ n, n ∉ X → Dead v n → Dead v' n

section

variable {v v' v₁ : Vol} {c n : UInt32} {who : OwIdentity} {name : Option (List UInt8)} {nameLen : Nat}
  {target parent : UInt32} {entryType : UInt8} {X : Set UInt32}

theorem Lays.trans (h : Lays X v v₁) (h' : Lays ∅ v₁ v') : Lays X v v' :=
  ⟨h'.barren, fun n hn hd => h'.dead n (Set.notMem_empty n) (h.dead n hn hd)⟩

theorem Barren.still (h : Barren v) (hs : Still v v') : Lays X v v' := by
  have hm := hs.upholds (T := ∅) h.ready
  obtain ⟨k, rfl⟩ := hs
  exact ⟨⟨hm.ready, hm.carry.sums h.sums, h.empty⟩, fun _ _ hd => hd⟩

/-- `c` だけを書き換える移動では、`c` のほかの消された inode は変わらない。 -/
theorem Moved.dead_iff (hm : Moved {c} v v') (hn : n ≠ c) : Dead v' n ↔ Dead v n := by
  unfold Dead
  rw [hm.carry.shape.totalInodes]
  refine and_congr_right fun ht => ?_
  rw [hm.spares.record n ht hn]

theorem Barren.moved (h : Barren v) (hm : Moved {c} v v')
    (hc : Dead v' c → (inodeAt v'.dev.disk v'.sb c).blockCount = 0) : Barren v' := by
  refine ⟨hm.ready, hm.carry.sums h.sums, fun n hd => ?_⟩
  by_cases hnc : n = c
  · rw [hnc] at hd ⊢
    exact hc hd
  · have hv := (hm.dead_iff hnc).mp hd
    rw [hm.spares.record n hv.1 hnc]
    exact h.empty n hv

/-- 生きている inode `c` を、種類を変えずに書き換える。 -/
theorem Barren.reworked (h : Barren v) (hw : Reworked c v v') (hc : ¬ Dead v c) : Lays X v v' := by
  have hsame : ¬ Dead v' c := by
    rintro ⟨ht, hd⟩
    rw [hw.moved.carry.shape.totalInodes] at ht
    rw [hw.type ht] at hd
    exact hc ⟨ht, hd⟩
  refine ⟨h.moved hw.moved fun hd => absurd hd hsame, fun n _ hd => (hw.moved.dead_iff ?_).mpr hd⟩
  rintro rfl
  exact hc hd

theorem Barren.freed (h : Barren v) (hf : Freed v v' n) : Lays X v v' ∧ Dead v' n := by
  have hn : n.toNat < v'.sb.totalInodes.toNat := by
    rw [hf.moved.carry.shape.totalInodes]
    exact hf.inTable
  have hdead : Dead v' n := ⟨hn, hf.deleted⟩
  refine ⟨?_, hdead⟩
  rcases hf.emptied with hz | hs
  · refine ⟨h.moved hf.moved fun _ => hz, fun m _ hd => ?_⟩
    by_cases hmn : m = n
    · rwa [hmn]
    · exact (hf.moved.dead_iff hmn).mpr hd
  · exact h.still hs

theorem Barren.allocated (h : Barren v) (ha : Allocated who entryType name nameLen parent v v' n) :
    Lays {n} v v' ∧ ¬ Dead v' n := by
  have hlive : ¬ Dead v' n := by
    rintro ⟨_, hd⟩
    rw [ha.record] at hd
    rcases ha.type with rfl | rfl
    · exact hd (by change entryFile &&& entryDeleted = 0; decide)
    · exact hd (by change entryCatalog &&& entryDeleted = 0; decide)
  exact ⟨⟨h.moved ha.moved fun hd => absurd hd hlive, fun m hm hd => (ha.moved.dead_iff hm).mpr hd⟩, hlive⟩

end

/-! ## 断られる操作 -/

/-- 何も変えずに誤りを返す。 -/
def Turned {α : Type} (v : Vol) (p : OwfsM α) : Prop := wp p (fun _ _ => False) (fun _ v' => Still v v') v

section

variable {v : Vol} {n : UInt32} {who : OwIdentity} {name : Option (List UInt8)} {nameLen : Nat} {α : Type}

theorem Turned.run {p : OwfsM α} (h : Turned v p) : ∃ e, (p v).1 = .error e := by
  unfold Turned wp at h
  rcases hp : p v with ⟨r, v'⟩
  rw [hp] at h
  cases r with
  | ok _ => exact h.elim
  | error e => exact ⟨e, rfl⟩

theorem Turned.state {p : OwfsM α} (h : Turned v p) : Still v (p v).2 :=
  wp.state (I := fun v' => Still v v') (wp.mono h (fun _ _ hno => hno.elim) (fun _ _ hs => hs))

theorem Turned.discard {p : OwfsM α} (h : Turned v p) : Turned v (discard p) := by
  unfold Turned Owfs.discard
  rw [wp_bind]
  exact wp.mono h (fun _ _ hno => hno.elim) (fun _ _ hs => hs)

/-- 読み直した inode への操作が、何も変えずに断られる。 -/
theorem turned_withFresh (hr : Ready v) {q : FileM α}
    (h : n.toNat < v.sb.totalInodes.toNat → ∀ c, wp q (fun _ _ => False)
    (fun _ s' => s'.vol = v.atClock c) ⟨v.atClock c, inodeAt v.dev.disk v.sb n⟩) : Turned v (withFresh n q) := by
  unfold Turned withFresh Owfs.discard
  rw [wp_bind]
  refine (inodeRead_spec hr.sound.layout n).mono ?_ (fun _ _ he => he.1)
  rintro _ _ ⟨hn, rfl, _, c, rfl⟩
  simp only [wp_bind, wp_withInode]
  exact (h hn c).mono (fun _ _ hno => hno) (fun _ _ he => ⟨c, he⟩)

theorem turned_fileRead (hr : Ready v) (offset len : UInt32)
    (h : ¬ ((inodeAt v.dev.disk v.sb n).entryType &&& entryFile ≠ 0 ∧
      inodeAccessCheck who (inodeAt v.dev.disk v.sb n) accessRead = .ok ())) :
    Turned v (DataOp.fileRead who n offset len).run := by
  unfold Turned DataOp.run Owfs.discard
  simp only [wp_bind]
  refine (inodeRead_spec hr.sound.layout n).mono ?_ (fun _ _ he => he.1)
  rintro _ _ ⟨_, rfl, _, c, rfl⟩
  unfold fileRead
  simp only [wp_bind, wp_failIf, wp_ofExcept]
  refine ⟨fun _ => ⟨c, rfl⟩, fun htype => ⟨fun _ hacc => absurd ⟨htype, hacc⟩ h, fun _ _ => ⟨c, rfl⟩⟩⟩

theorem turned_fileWrite (hr : Ready v) (buf : List UInt8) {offset len : UInt32} (hlen : len ≠ 0)
    (h : ¬ ((inodeAt v.dev.disk v.sb n).entryType &&& entryFile ≠ 0 ∧ volumeWritable v.sb = .ok () ∧
      ¬ Fenced who (inodeAt v.dev.disk v.sb n) ∧ offset.toNat + len.toNat ≤ 1034 * 4096)) :
    Turned v (withFresh n (fileWrite who n buf offset len)) := by
  refine turned_withFresh hr fun _ c => ?_
  unfold fileWrite
  simp only [wp_bind, wp_get, wp_failIf, wp_ite, wp_ofExcept]
  refine ⟨fun _ => trivial, fun htype => ⟨fun hz => absurd hz hlen, fun _ => ⟨fun _ hw => ⟨fun _ => trivial, fun hro =>
    ⟨fun _ hacc => ⟨fun _ => trivial, fun hmax => absurd ⟨htype, hw, ?_, Nat.le_of_not_lt hmax⟩ h⟩,
      fun _ _ => trivial⟩⟩,
    fun _ _ => trivial⟩⟩⟩
  rintro (hf | hf)
  · exact hro hf
  · exact hf hacc

theorem turned_fileTruncate (hr : Ready v) (newSize : UInt32)
    (h : ¬ ((inodeAt v.dev.disk v.sb n).entryType &&& entryFile ≠ 0 ∧ volumeWritable v.sb = .ok () ∧
      ¬ Fenced who (inodeAt v.dev.disk v.sb n))) : Turned v (withFresh n (fileTruncate who n newSize)) := by
  refine turned_withFresh hr fun _ c => ?_
  unfold fileTruncate
  simp only [wp_bind, wp_get, wp_failIf, wp_ofExcept]
  refine ⟨fun _ => trivial, fun htype => ⟨fun _ hw => ⟨fun _ => trivial, fun hro =>
    ⟨fun _ hacc => absurd ⟨htype, hw, ?_⟩ h, fun _ _ => trivial⟩⟩, fun _ _ => trivial⟩⟩
  rintro (hf | hf)
  · exact hro hf
  · exact hf hacc

theorem turned_catalogInsert (hr : Ready v) (target : UInt32) {entryType : UInt8}
    (h : ¬ (Admissible v name nameLen entryType ∧ Opens who accessWrite v n)) :
    Turned v (catalogInsert who n name nameLen target entryType) := by
  have hstill := still_catalogInsert hr target h
  refine ((catalogInsert_spec hr who n name nameLen target entryType).and wp_run).mono ?_ ?_
  · rintro _ v' ⟨hins, _⟩
    exact h ⟨hins.admissible, hins.opens⟩
  · rintro _ v' ⟨_, hrun⟩
    rwa [hrun] at hstill

theorem turned_catalogList (hr : Ready v) {maxEntries : UInt32} (h : ¬ (maxEntries ≠ 0 ∧ Opens who accessRead v n)) :
    Turned v (catalogList who n maxEntries) :=
  (catalogList_spec hr who n maxEntries).mono (fun _ _ hl => h hl.2) (fun _ _ he => he.1)

theorem turned_catalogLookup (hr : Ready v) (h : contents v n = []) : Turned v (catalogLookup who n name nameLen) := by
  refine (catalogLookup_spec hr who n name nameLen).mono ?_ (fun _ _ he => he.1)
  rintro i v' ⟨_, _, _, hfound⟩
  rw [h] at hfound
  obtain ⟨a, ha, _⟩ := hfound fun _ ha => absurd ha List.not_mem_nil
  exact List.not_mem_nil ha

theorem turned_catalogRemove (hr : Ready v) (h : contents v n = []) : Turned v (catalogRemove who n name nameLen) := by
  refine (catalogRemove_spec hr who n name nameLen).mono ?_ (fun _ _ he => he.1)
  intro _ v' hrem
  obtain ⟨a, hperm, _⟩ := hrem.erased
  rw [h] at hperm
  exact absurd hperm.length_eq.symm (Nat.succ_ne_zero _)

end

/-! ## 一回の操作 -/

section

variable {v v' : Vol} {c n : UInt32} {who : OwIdentity} {name : Option (List UInt8)} {nameLen : Nat}
  {entryType : UInt8}

theorem insert_lays (h : Barren v)
    (hno : ¬ (Dead v c ∧ Admissible v name nameLen entryType ∧ Opens who accessWrite v c))
    (target : UInt32) : wp (catalogInsert who c name nameLen target entryType) (fun _ v' => Lays ∅ v v')
      (fun _ v' => Lays ∅ v v') v := by
  by_cases hd : Dead v c
  · exact (turned_catalogInsert h.ready target fun hok => hno ⟨hd, hok⟩).mono (fun _ _ hf => hf.elim)
      (fun _ _ hs => h.still hs)
  · refine (catalogInsert_spec h.ready who c name nameLen target entryType).mono ?_ ?_
    · intro _ v' hins
      exact h.reworked ⟨hins.listed.moved, fun _ => hins.listed.type⟩ hd
    · intro _ v' href
      exact h.reworked ⟨href.unlisted.moved, fun _ => congrArg Inode.entryType href.unlisted.record⟩ hd

theorem free_lays (h : Barren v) (who : OwIdentity) (n : UInt32) :
    Lays ∅ v (inodeFree who n v).2 ∧ ∀ m, freedNumber who n v = some m → Dead (inodeFree who n v).2 m := by
  have hspec := inodeFree_spec h.ready who n
  unfold freedNumber
  rcases hrun : inodeFree who n v with ⟨r, v'⟩
  cases r with
  | ok _ =>
      obtain ⟨hlays, hdead⟩ := h.freed (X := ∅) (hspec.ok hrun)
      refine ⟨hlays, ?_⟩
      rintro m ⟨⟩
      exact hdead
  | error e =>
      unfold wp at hspec
      rw [hrun] at hspec
      refine ⟨h.still hspec, ?_⟩
      rintro m ⟨⟩

/-- 作成は、渡した番号のほかの消された inode を消されたままにする。後始末が解放した番号も消されている。 -/
theorem make_lays (h : Barren v) (hno : ¬ (Dead v c ∧ (∃ m : UInt32, m.toNat < c.toNat ∧
      slotVacant (inodeAt v.dev.disk v.sb m) = true) ∧ Admissible v name nameLen entryType ∧
        Opens who accessWrite v c)) :
    Lays {n | (inodeAlloc who entryType name nameLen c v).1.toOption = some n} v
        (catalogMake who entryType c name nameLen v).2 ∧
      ∀ m, undoneNumber who entryType c name nameLen v = some m →
        Dead (catalogMake who entryType c name nameLen v).2 m := by
  have halloc := inodeAlloc_spec h.ready who entryType name nameLen c
  unfold undoneNumber
  rcases ha : inodeAlloc who entryType name nameLen c v with ⟨r, v₁⟩
  cases r with
  | error e =>
      unfold wp at halloc
      rw [ha] at halloc
      have hrun : catalogMake who entryType c name nameLen v = (.error e, v₁) := run_bind_error ha
      rw [hrun]
      refine ⟨h.still halloc, ?_⟩
      rintro m ⟨⟩
  | ok n =>
      have halloc := halloc.ok ha
      obtain ⟨hfirst, hlive⟩ := h.allocated halloc
      have hset : {m | (Except.ok n : Except OwfsErr UInt32).toOption = some m} = {n} := by
        ext m
        exact ⟨fun he => (Option.some.inj he).symm, fun he => congrArg some he.symm⟩
      rw [hset]
      have hno₁ : ¬ (Dead v₁ c ∧ Admissible v₁ name nameLen entryType ∧ Opens who accessWrite v₁ c) := by
        rintro ⟨hd, hadm, ho⟩
        have hcn : c ≠ n := by
          rintro rfl
          exact hlive hd
        have hdv := (halloc.moved.dead_iff hcn).mp hd
        have hrec := halloc.moved.spares.record c hdv.1 hcn
        refine hno ⟨hdv, ⟨n, ?_, halloc.vacant⟩, ⟨hadm.proper, hadm.type, hadm.valid, halloc.writable⟩,
          hdv.1, ?_, ?_, ?_⟩
        · -- 親も空いているので、渡される番号は親より小さい。
          by_contra hle
          have hlt : c.toNat < n.toNat := by
            have hne : c.toNat ≠ n.toNat := fun he => hcn (UInt32.toNat_inj.mp he)
            omega
          have hlive := halloc.first c hlt
          unfold slotVacant at hlive
          rw [Bool.or_eq_false_iff] at hlive
          exact hdv.2 (by simpa using hlive.2)
        · rw [← hrec]
          exact ho.sum
        · rw [← hrec]
          exact ho.catalog
        · rw [← hrec]
          exact ho.access
      have hins := insert_lays hfirst.barren hno₁ n
      rcases hi : catalogInsert who c name nameLen n entryType v₁ with ⟨r₂, v₂⟩
      unfold wp at hins
      rw [hi] at hins
      cases r₂ with
      | ok _ =>
          have hrun : catalogMake who entryType c name nameLen v = (.ok n, v₂) :=
            run_bind ha (run_bind (run_attempt hi) rfl)
          rw [hrun]
          refine ⟨hfirst.trans hins, fun m hm => ?_⟩
          dsimp only at hm
          rw [hi] at hm
          cases hm
      | error e =>
          have hfree : (attempt (inodeFree who n) : OwfsM _) v₂ = _ := run_attempt rfl
          have hrun : catalogMake who entryType c name nameLen v = (.error e, (inodeFree who n v₂).2) :=
            run_bind ha (run_bind (run_attempt hi) (run_bind hfree rfl))
          rw [hrun]
          obtain ⟨hlays, hdead⟩ := free_lays hins.barren who n
          refine ⟨(hfirst.trans hins).trans hlays, fun m hm => ?_⟩
          dsimp only at hm
          rw [hi] at hm
          exact hdead m hm

/-- 検査を通る操作がないかぎり、消された inode は、割り当てが渡すまで消されたままである。 -/
theorem Barren.step (h : Barren v) (op : DataOp) (hno : ¬ op.Hits v) :
    Lays {n | op.handsOut v = some n} v (op.run v).2 ∧ ∀ m, op.frees v = some m → Dead (op.run v).2 m := by
  -- 割り当てず解放しない操作では、条件を保つことだけを示せばよい。
  have hnone : Lays ∅ v (op.run v).2 → op.handsOut v = none → op.frees v = none →
      Lays {n | op.handsOut v = some n} v (op.run v).2 ∧ ∀ m, op.frees v = some m → Dead (op.run v).2 m := by
    intro hl _ hf
    refine ⟨⟨hl.barren, fun m _ => hl.dead m (Set.notMem_empty m)⟩, fun m hm => ?_⟩
    rw [hf] at hm
    cases hm
  have hreads : Preserves Still op.run → Lays ∅ v (op.run v).2 := fun hs =>
    h.still ((hs v).state (I := fun v' => Still v v'))
  have hfile : ∀ {n : UInt32}, wp op.run (fun _ v' => Reworked n v v') (fun _ v' => Reworked n v v') v →
      (Dead v n → Still v (op.run v).2) → Lays ∅ v (op.run v).2 := by
    intro n hw hdead
    by_cases hd : Dead v n
    · exact h.still (hdead hd)
    · exact h.reworked (hw.state (I := fun v' => Reworked n v v')) hd
  cases op with
  | inodeAlloc who entryType name nameLen parent =>
      have hspec := inodeAlloc_spec h.ready who entryType name nameLen parent
      unfold DataOp.run
      rw [discard_state]
      change Lays {m | (Owfs.inodeAlloc who entryType name nameLen parent v).1.toOption = some m} v _ ∧ _
      rcases ha : Owfs.inodeAlloc who entryType name nameLen parent v with ⟨r, v₁⟩
      refine ⟨?_, fun m hm => by cases hm⟩
      cases r with
      | ok n =>
          obtain ⟨hfirst, _⟩ := h.allocated (hspec.ok ha)
          exact ⟨hfirst.barren, fun m hm => hfirst.dead m fun he => hm (congrArg some (show m = n from he).symm)⟩
      | error e =>
          unfold wp at hspec
          rw [ha] at hspec
          exact h.still hspec
  | inodeFree who n =>
      obtain ⟨hl, hd⟩ := free_lays h who n
      exact ⟨⟨hl.barren, fun m _ => hl.dead m (Set.notMem_empty m)⟩, hd⟩
  | catalogCreate who parent name nameLen =>
      have hm := make_lays h hno
      unfold DataOp.run
      rw [discard_state]
      exact hm
  | catalogMkdir who parent name nameLen =>
      have hm := make_lays h hno
      unfold DataOp.run
      rw [discard_state]
      exact hm
  | catalogInsert who catalog name nameLen target entryType =>
      exact hnone ((insert_lays h hno target).state (I := fun v' => Lays ∅ v v')) rfl rfl
  | catalogRemove who catalog name nameLen =>
      refine hnone (hfile (n := catalog) ?_ fun hd => ?_) rfl rfl
      · refine (catalogRemove_spec h.ready who catalog name nameLen).mono ?_ (fun _ _ hs => hs.1.reworked h.ready)
        intro _ v' hrem
        exact ⟨hrem.moved, fun _ => congrArg Inode.entryType hrem.record⟩
      · exact (turned_catalogRemove h.ready (entries_eq_nil (h.empty catalog hd))).state
  | inodeRead n => exact hnone (hreads ((still_inodeRead n).bind fun _ => .pure _)) rfl rfl
  | catalogLookup who catalog name nameLen =>
      exact hnone (hreads ((still_catalogLookup who catalog name nameLen).bind fun _ => .pure _)) rfl rfl
  | catalogList who catalog maxEntries =>
      exact hnone (hreads ((still_catalogList who catalog maxEntries).bind fun _ => .pure _)) rfl rfl
  | fileRead who n offset len =>
      exact hnone (hreads ((still_inodeRead n).bind fun ino =>
        (still_fileRead who ino offset len).bind fun _ => .pure _))
        rfl rfl
  | fileWrite who n buf offset len fits =>
      refine hnone (hfile (n := n) (fileWrite_reworks h.ready who n fits) fun hd => ?_) rfl rfl
      by_cases hlen : len = 0
      · refine still_withFresh h.ready fun c => .get_bind (.failIf_bind ?_)
        rw [if_pos hlen]
        exact .pure 0
      · exact (turned_fileWrite h.ready buf hlen fun hok => hno ⟨hd, hlen, hok⟩).state
  | fileTruncate who n newSize =>
      refine hnone (hfile (n := n) (fileTruncate_reworks h.ready who n newSize) fun hd => ?_) rfl rfl
      exact (turned_fileTruncate h.ready newSize fun hok => hno ⟨hd, hok⟩).state

/-- 検査を通らない、消された inode への操作は、何も変えずに誤りを返す。 -/
theorem Barren.turned (h : Barren v) (op : DataOp) (hno : ¬ op.Hits v) (hd : Dead v n) (huse : op.Uses n) :
    Turned v op.run := by
  have hnil : entries v.dev.disk (inodeAt v.dev.disk v.sb n) = [] := entries_eq_nil (h.empty n hd)
  cases op with
  | fileRead who m offset len =>
      obtain rfl : m = n := huse
      exact turned_fileRead h.ready offset len fun hok => hno ⟨hd, hok⟩
  | fileWrite who m buf offset len fits =>
      obtain ⟨rfl, hlen⟩ : m = n ∧ len ≠ 0 := huse
      exact turned_fileWrite h.ready buf hlen fun hok => hno ⟨hd, hlen, hok⟩
  | fileTruncate who m newSize =>
      obtain rfl : m = n := huse
      exact turned_fileTruncate h.ready newSize fun hok => hno ⟨hd, hok⟩
  | catalogLookup who m name nameLen =>
      obtain rfl : m = n := huse
      exact (turned_catalogLookup h.ready hnil).discard
  | catalogInsert who m name nameLen target entryType =>
      obtain rfl : m = n := huse
      exact turned_catalogInsert h.ready target fun hok => hno ⟨hd, hok⟩
  | catalogRemove who m name nameLen =>
      obtain rfl : m = n := huse
      exact turned_catalogRemove h.ready hnil
  | catalogList who m maxEntries =>
      obtain rfl : m = n := huse
      exact (turned_catalogList h.ready fun hok => hno ⟨hd, hok⟩).discard
  | inodeAlloc who entryType name nameLen parent => exact huse.elim
  | inodeFree who m => exact huse.elim
  | inodeRead m => exact huse.elim
  | catalogCreate who parent name nameLen => exact huse.elim
  | catalogMkdir who parent name nameLen => exact huse.elim

end

/-! ## 実行の全体 -/

section

variable {v v' : Vol}

theorem KeepsAnchored.dead_iff (h : KeepsAnchored v v') (ha : Anchored v) {n : UInt32} : Dead v' n ↔ Dead v n := by
  unfold Dead
  rw [h.totalInodes ha]
  refine and_congr_right fun hn => ?_
  rw [h.inodeAt_eq ha hn]

/-- スーパーブロックだけを書く呼び出しは、消された inode を変えない。 -/
theorem Barren.refiled (h : Barren v) (hk : KeepsAnchored v v') (ha : Anchored v) : Lays ∅ v v' := by
  obtain ⟨hr, hs⟩ := (hk.anchored ha).ready (hk.dev.faultFree h.ready.faultFree)
  refine ⟨⟨hr, hs, fun n hd => ?_⟩, fun n _ hd => (hk.dead_iff ha).mpr hd⟩
  have hold := (hk.dead_iff ha).mp hd
  rw [hk.inodeAt_eq ha hold.1]
  exact h.empty n hold

end

/-- 解放が成功し、その後に渡されていない番号の inode は、消されている。 -/
structure Laid (s : Vol × Finset UInt32) : Prop where
  anchored : Anchored s.1
  barren : Barren s.1
  dead : ∀ n ∈ s.2, Dead s.1 n

theorem Laid.step {s : Vol × Finset UInt32} (h : Laid s) (op : ApiOp) (hno : ¬ op.Hits s.1) : Laid (op.step s).2 := by
  have hanchored := (h.anchored.step h.barren.ready.faultFree op).1
  have hstep : Lays { n | op.handsOut s.1 = some n } s.1 (op.run s.1).2 ∧
      ∀ m, op.frees s.1 = some m → Dead (op.run s.1).2 m := by
    by_cases hop : ∀ o, op ≠ .data o
    · have hk := (keepsAnchored_of_not_data hop s.1).state (I := fun v' => KeepsAnchored s.1 v')
      have hlays := h.barren.refiled hk h.anchored
      refine ⟨⟨hlays.barren, fun n _ => hlays.dead n (Set.notMem_empty n)⟩, fun m hm => ?_⟩
      cases op with
      | data op => exact absurd rfl (hop op)
      | _ => cases hm
    · rw [not_forall] at hop
      obtain ⟨o, ho⟩ := hop
      obtain rfl := not_not.mp ho
      exact h.barren.step o hno
  obtain ⟨hlays, hfrees⟩ := hstep
  refine ⟨hanchored, hlays.barren, fun n hn => ?_⟩
  rcases Finset.mem_union.mp hn with hn | hn
  · obtain ⟨hold, hout⟩ := Finset.mem_sdiff.mp hn
    exact hlays.dead n (fun he => hout (Option.mem_toFinset.mpr he)) (h.dead n hold)
  · exact hfrees n (Option.mem_toFinset.mp hn)

theorem barren_of_opened {d₀ d : HtlDevice} {totalBlocks : UInt32} {label : Option (List UInt8)} {v : Vol}
    (hff : d₀.FaultFree) (hformat : formatVolume totalBlocks label d₀ = (.ok (), d))
    (hopen : Opened d v) : Barren v := by
  obtain ⟨hblank, hsums⟩ := blank_of_opened hformat hopen
  refine ⟨ready_of_opened hff hformat hopen, hsums, ?_⟩
  rintro n ⟨hn, hdel⟩
  have hroot := hblank.root
  obtain rfl : n = 0 := hblank.eq_root hn fun ht => hdel (by rw [ht]; rfl)
  unfold slotVacant at hroot
  rw [Bool.or_eq_false_iff] at hroot
  exact absurd (bne_eq_false_iff_eq.mp hroot.2) hdel

/-- 検査を通る操作が消された inode にないかぎり、消された inode への操作は誤りを返し、ブロックを割り当てない。同期やマウントや
鍵の呼び出しが間に挟まってもよい。 -/
theorem deleted_refuse_unless_hit {d₀ d : HtlDevice} {totalBlocks : UInt32} {label : Option (List UInt8)} {v : Vol}
    (hff : d₀.FaultFree) (hformat : formatVolume totalBlocks label d₀ = (.ok (), d)) (hopen : Opened d v)
    (ops : List ApiOp) (hno : ∀ e ∈ trace ApiOp.step ops (v, ∅), ¬ e.op.Hits e.before.1) :
    ∀ e ∈ trace ApiOp.step ops (v, ∅), ∀ n ∈ e.before.2, e.op.Uses n → Rebuffed e := by
  have hstart : Laid (v, ∅) := ⟨anchored_of_opened hformat hopen, barren_of_opened hff hformat hopen,
    fun n hn => absurd hn (Finset.notMem_empty n)⟩
  have hall := (trace_invariant (I := Laid) (P := fun e => ¬ e.op.Hits e.before.1) (fun op s h hop => h.step op hop) ops
    (v, ∅) hstart hno).2
  intro e he n hn huse
  obtain ⟨hlaid, heq⟩ := hall e he
  have hmiss := hno e he
  have hdead := hlaid.dead n hn
  rw [heq]
  generalize e.op = op at huse hmiss
  cases op with
  | data op =>
      have hturned := hlaid.barren.turned op hmiss hdead huse
      refine ⟨hturned.run, ?_⟩
      obtain ⟨c, hc⟩ := hturned.state
      change usedSet (op.run e.before.1).2.dev.disk (op.run e.before.1).2.sb ⊆ _
      rw [hc]
      exact Set.Subset.rfl
  | _ => exact huse.elim

/-! ## 小さなボリュームの例 -/

/-- 消したカタログを探し、同期してから、そこから抹消しようとする。 -/
def searchDeleted : List ApiOp :=
  [.data (.inodeAlloc ⟨0, 0⟩ entryCatalog none 0 0), .data (.inodeFree ⟨0, 0⟩ 1),
    .data (.catalogLookup ⟨0, 0⟩ 1 (some [0x61]) 1), .life .syncChanges,
    .data (.catalogRemove ⟨0, 0⟩ 1 (some [0x61]) 1)]

theorem deleted_catalog_refuses : ¬ ∃ e ∈ trace ApiOp.step searchDeleted (mountedVolume, ∅), ∃ n ∈ e.before.2,
    e.op.Uses n ∧ ¬ Rebuffed e := by
  rintro ⟨e, he, n, hn, huse, hno⟩
  refine hno (deleted_refuse_unless_hit faultFree_blankDevice format_blankDevice
    (.mount (mount_formattedVolume Superblock.zero)) searchDeleted ?_ e he n hn huse)
  intro e he
  have hop := op_mem_of_mem_trace he
  simp only [searchDeleted, List.mem_cons, List.not_mem_nil, or_false] at hop
  rcases hop with hop | hop | hop | hop | hop
  · rw [hop]
    exact id
  · rw [hop]
    exact id
  · rw [hop]
    exact id
  · rw [hop]
    exact id
  · rw [hop]
    exact id

/-- ファイルを作り、消して、読む。 -/
def readDeleted : List ApiOp :=
  [.data (.inodeAlloc ⟨0, 0⟩ entryFile none 0 0), .data (.inodeFree ⟨0, 0⟩ 1), .data (.fileRead ⟨0, 0⟩ 1 0 1)]

/-- 消したファイルの読み出しは、通る。 -/
theorem read_deleted {v v₁ v₂ : Vol} (hr : Ready v₂) (hs : Summed v₂)
    (halloc : inodeAlloc ⟨0, 0⟩ entryFile none 0 0 v = (.ok 1, v₁)) (hfree : inodeFree ⟨0, 0⟩ 1 v₁ = (.ok (), v₂))
    (hn : (1 : UInt32).toNat < v₂.sb.totalInodes.toNat)
    (htype : (inodeAt v₂.dev.disk v₂.sb 1).entryType &&& entryFile ≠ 0) :
    ∃ e ∈ trace ApiOp.step readDeleted (v, ∅), 1 ∈ e.before.2 ∧ e.op.Uses 1 ∧ ¬ Rebuffed e := by
  have hfirst : ((ApiOp.data (.inodeAlloc ⟨0, 0⟩ entryFile none 0 0)).step (v, ∅)).2 = (v₁, ∅) := by
    have hrun : (discard (inodeAlloc ⟨0, 0⟩ entryFile none 0 0) v).2 = v₁ := by
      rw [discard_state, halloc]
    exact Prod.ext hrun (by simp [ApiOp.step, ApiOp.frees, DataOp.frees])
  have hsecond : ((ApiOp.data (.inodeFree ⟨0, 0⟩ 1)).step (v₁, ∅)).2 = (v₂, {1}) := by
    refine Prod.ext (congrArg Prod.snd hfree) ?_
    simp [ApiOp.step, ApiOp.frees, ApiOp.handsOut, DataOp.frees, DataOp.handsOut, freedNumber, hfree,
      Except.isOk, Except.toBool]
  refine ⟨event ApiOp.step (.data (.fileRead ⟨0, 0⟩ 1 0 1)) (v₂, {1}), ?_, Finset.mem_singleton_self 1, rfl, ?_⟩
  · refine List.mem_cons_of_mem _ (List.mem_cons_of_mem _ (List.mem_singleton.mpr ?_))
    rw [hfirst, hsecond]
  · rintro ⟨⟨e, he⟩, _⟩
    have ht : (inodeAt v₂.dev.disk v₂.sb 1).entryType ≠ 0 := by
      intro hz
      rw [hz] at htype
      exact htype rfl
    have hread : wp ((DataOp.fileRead ⟨0, 0⟩ 1 0 1).run) (fun _ _ => True) (fun _ _ => False) v₂ := by
      unfold DataOp.run Owfs.discard
      simp only [wp_bind, wp_pure]
      refine ((inodeRead_spec hr.sound.layout 1).and wp_run).mono ?_ ?_
      · rintro _ _ ⟨⟨_, rfl, _, c, rfl⟩, _⟩
        refine (fileRead_spec (v := v₂.atClock c) (hr.sound.fresh ht) hn _ _ _).mono (fun _ _ _ => trivial) ?_
        rintro _ _ ⟨_, hno⟩
        rcases hno ⟨hr.faultFree, hr.serves.readsData⟩ with hno | hno
        · exact htype hno
        · exact hno (by simp [inodeAccessCheck, owSecAccess_superuser])
      · rintro _ _ ⟨_, hrun⟩
        rw [hr.inodeRead_eq hs hn] at hrun
        cases hrun
    obtain ⟨_, v', hrun, _⟩ := hread.exists_ok
    have he : ((DataOp.fileRead ⟨0, 0⟩ 1 0 1).run v₂).1 = .error e := he
    rw [hrun] at he
    cases he

/-- ファイルを作って消した後の、小さなボリューム。 -/
@[irreducible] def emptied (v : Vol) : Vol :=
  (freeRecord ⟨0, 0⟩ 1 (inodeAt v.dev.disk v.sb 1) (inodeLoad 1 v).2).2

@[irreducible] def created (v : Vol) : Vol := (inodeAlloc ⟨0, 0⟩ entryFile none 0 0 v).2

theorem created_mountedVolume :
    inodeAlloc ⟨0, 0⟩ entryFile none 0 0 mountedVolume = (.ok 1, created mountedVolume) := by
  unfold created
  exact run_eq (by decide +kernel)

theorem ready_created : Ready (created mountedVolume) ∧ Summed (created mountedVolume) := by
  obtain ⟨hr, hc, _⟩ := inSession_mountedVolume.toReady.after (upholds_inodeAlloc ⟨0, 0⟩ entryFile none 0 0)
  rw [created_mountedVolume] at hr hc
  exact ⟨hr, hc.sums inSession_mountedVolume.sums⟩

theorem emptied_created :
    inodeFree ⟨0, 0⟩ 1 (created mountedVolume) = (.ok (), emptied (created mountedVolume)) := by
  obtain ⟨hr, hs⟩ := ready_created
  rw [inodeFree_eq hr hs (by decide +kernel) (by decide +kernel)]
  unfold emptied
  exact run_eq (by decide +kernel)

theorem ready_emptied : Ready (emptied (created mountedVolume)) ∧ Summed (emptied (created mountedVolume)) := by
  obtain ⟨hr, hs⟩ := ready_created
  obtain ⟨hr₂, hc, _⟩ := hr.after (upholds_inodeFree ⟨0, 0⟩ 1)
  rw [emptied_created] at hr₂ hc
  exact ⟨hr₂, hc.sums hs⟩

/-- 消したファイルを読む操作は、誤りを返さない。 -/
theorem deleted_file_read :
    ¬ ∀ (d₀ d : HtlDevice) (totalBlocks : UInt32) (label : Option (List UInt8)) (v : Vol) (ops : List ApiOp),
      d₀.FaultFree → formatVolume totalBlocks label d₀ = (.ok (), d) → Opened d v →
      ∀ e ∈ trace ApiOp.step ops (v, ∅), ∀ n ∈ e.before.2, e.op.Uses n → Rebuffed e := by
  intro hclaim
  obtain ⟨e, he, hn, huse, hno⟩ := read_deleted ready_emptied.1 ready_emptied.2 created_mountedVolume emptied_created
    (by decide +kernel) (by decide +kernel)
  exact hno (hclaim _ _ _ _ _ readDeleted faultFree_blankDevice format_blankDevice
    (.mount (mount_formattedVolume Superblock.zero)) e he 1 hn huse)

end OwStorage.Owfs
