import OwStorage.Lib.Store
import OwStorage.Usfs.Theorems.ReadBack
import OwStorage.Usfs.Theorems.SpaceAccounting

/-!
# ファイルの保管庫

USFS のボリュームは、項目の番号からバイト列への部分写像を表す。割り当て、解放、書き込み、切り詰めの一回は、この写像の一つの番号だけを
動かす。失敗した呼び出しは、どのファイルの内容も変えない。
-/

namespace OwStorage.Usfs

open Lib Prog

/-- ボリュームの表す保管庫。 -/
def contents (v : Vol) : Store UInt32 := fun idx =>
  if ((viewOf v).table idx).entryType = entryFile then
    some (fileContent v.dev.disk v.sb ((viewOf v).table idx))
  else none

/-- 保管庫の一歩。書き込みは、書いた終わりでファイルを切る。終わりが 2^32 に届く書き込みの中身は決めない。 -/
inductive StoreStep (s : Store UInt32) : EntryOp × Except UsfsErr Unit → Store UInt32 → Prop
  | failed (op : EntryOp) (err : UsfsErr) : StoreStep s (op, .error err) s
  | created {who : OwIdentity} {entryType : UInt8} {name : Option (List UInt8)} {nameLen : Nat} {parent idx : UInt32}
      {hname : ∀ t, name = some t → nameLen ≤ t.length} (hnew : s idx = none) :
      StoreStep s (.alloc who entryType name nameLen parent hname, .ok ())
        (Function.update s idx (if entryType = entryFile then some [] else none))
  | freed {who : OwIdentity} {idx : UInt32} : StoreStep s (.free who idx, .ok ()) (Function.update s idx none)
  | written {who : OwIdentity} {idx : UInt32} {held : Entry} {buf : List UInt8} {offset len : UInt32}
      {hbuf : len.toNat ≤ buf.length} {old new : List UInt8} (hold : s idx = some old) (hidle : len = 0 → new = old)
      (hnew : len ≠ 0 → offset.toNat + len.toNat < 2 ^ 32 → Cut old offset.toNat (buf.take len.toNat) new) :
      StoreStep s (.write who idx held buf offset len hbuf, .ok ()) (Function.update s idx (some new))
  | truncated {who : OwIdentity} {idx : UInt32} {held : Entry} {size : UInt32} {old new : List UInt8}
      (hold : s idx = some old) (hnew : Cut old size.toNat [] new) :
      StoreStep s (.truncate who idx held size, .ok ()) (Function.update s idx (some new))

/-- 釣り合っていて、データ領域の全体に書けるボリューム。 -/
structure Sturdy (v : Vol) : Prop where
  balanced : Balanced v
  kept : Kept v
  writes : ∀ b, v.sb.IsData b → v.dev.Writes b

section

variable {v v' v₁ : Vol} {T : Set UInt32} {w : View} {idx j : UInt32} {e e' : Entry}

theorem contents_file (h : ((viewOf v).table idx).entryType = entryFile) :
    contents v idx = some (fileContent v.dev.disk v.sb ((viewOf v).table idx)) := if_pos h

theorem contents_other (h : ((viewOf v).table idx).entryType ≠ entryFile) : contents v idx = none := if_neg h

theorem Sturdy.step (h : Sturdy v) (op : EntryOp) (hread : op.FreshlyRead v) : Sturdy (op.run v).2 := by
  have hs := h.kept.step op hread
  refine ⟨h.balanced.step op hread, hs.kept, fun b hb => ?_⟩
  rw [hs.config]
  exact h.writes b (hs.shape.isData.mp hb)

/-- 項目 `j` の記録と並びに触れない変化は、その内容を変えない。 -/
theorem Balanced.contents_eq (h : Balanced v) (hb : Becomes T v v' w) (hw : w.table j = (viewOf v).table j)
    (hT : ∀ b ∈ ((viewOf v).table j).run, b ∉ T) : contents v' j = contents v j := by
  have hsame := hb.sameFile hw (h.housed j) hT
  have htable : (viewOf v').table j = (viewOf v).table j := by rw [hb.view, hw]
  unfold contents
  rw [htable]
  congr 2
  unfold fileContent
  refine pages_congr fun i hi => ?_
  have hblock := hsame.content i hi
  rwa [htable] at hblock

/-- 項目 `idx` だけの変化。 -/
theorem Balanced.contents_update (h : Balanced v) (hb : Becomes T v v' w)
    (hw : ∀ j, j ≠ idx → w.table j = (viewOf v).table j)
    (hT : ∀ j, j ≠ idx → ∀ b ∈ ((viewOf v).table j).run, b ∉ T) :
    contents v' = Function.update (contents v) idx (contents v' idx) := by
  funext j
  by_cases hj : j = idx
  · rw [hj, Function.update_self]
  · rw [Function.update_of_ne hj]
    exact h.contents_eq hb (hw j hj) (hT j hj)

theorem contents_update_self (v : Vol) (idx : UInt32) :
    Function.update (contents v) idx (contents v idx) = contents v :=
  Function.update_eq_self idx _

/-- 空いたブロックへの書き込みは、どのファイルの内容も変えない。 -/
theorem Balanced.contents_vacant (h : Balanced v) (hb : Becomes (vacantSet v) v v' (viewOf v)) :
    contents v' = contents v := by
  funext j
  exact h.contents_eq hb rfl fun b hin => (h.occupies j).notMem_vacant (h.housed j) hin

/-- ほかの項目の並びは、`idx` の並びに重ならない。 -/
theorem Balanced.notMem_run (h : Balanced v) (hne : j ≠ idx) {b : UInt32} (hb : b ∈ ((viewOf v).table j).run) :
    b ∉ ((viewOf v).table idx).run := by
  intro hin
  have hdata := (h.housed j).isData hb
  exact hne (h.allotted.unique (((h.housed j).mem_run_iff hdata).mp hb) (((h.housed idx).mem_run_iff hdata).mp hin))

end

/-! ## 割り当てと解放 -/

section

variable {v v' : Vol} {who : OwIdentity} {idx : UInt32}

theorem FirstSlot.contents_none (h : FirstSlot v idx) : contents v idx = none := by
  refine contents_other fun hfile => ?_
  exact Entry.live_iff.mp (Entry.live_of_file hfile) h.vacant

/-- 作られた項目は、ファイルなら空である。 -/
theorem Balanced.contents_created (h : Balanced v) {entryType : UInt8} {name : Option (List UInt8)} {nameLen : Nat}
    {parent : UInt32} (hc : Created v v' who entryType name nameLen parent idx) :
    contents v' = Function.update (contents v) idx (if entryType = entryFile then some [] else none) := by
  obtain ⟨mode, first, count, s, hcase, hb⟩ := hc.effect
  have htable : (viewOf v').table idx = createdEntry who v.sb idx entryType mode name nameLen parent first count := by
    rw [hb.view]
    exact Function.update_self _ _ _
  have hself : contents v' idx = if entryType = entryFile then some [] else none := by
    unfold contents
    rw [htable]
    change (if entryType = entryFile then some (pages _ count.toNat 0) else none) = _
    simp [pages]
  rw [← hself]
  refine h.contents_update hb (fun j hj => Function.update_of_ne hj _ _) fun j hj b hin hT => ?_
  obtain ⟨hpos, rfl⟩ := hT
  rcases hcase with ⟨_, _, _, hz⟩ | ⟨_, _, _, hfirst, _, hfit, _⟩
  · exact hpos hz
  · have hused := (h.occupies j).used (h.housed j) hin
    have hrel : v.sb.relOf b = s := by
      unfold Superblock.relOf
      omega
    have hvac := hfit.vacant 0 (by decide)
    rw [Nat.add_zero, ← hrel, hused] at hvac
    cases hvac

theorem Balanced.contents_freed (h : Balanced v) (hf : Freed v v' who idx) :
    contents v' = Function.update (contents v) idx none := by
  have hb := hf.effect
  have hself : contents v' idx = none := by
    have htable : (viewOf v').table idx = (clearedEntry ((viewOf v).table idx)).sealed := by
      rw [hb.view]
      exact Function.update_self _ _ _
    refine contents_other ?_
    rw [htable]
    unfold clearedEntry
    split
    · exact (by decide : entryDeleted ≠ entryFile)
    · exact (by decide : entryDeleted ≠ entryFile)
  rw [← hself]
  exact h.contents_update hb (fun j hj => Function.update_of_ne hj _ _) fun _ _ _ _ => Set.notMem_empty _

end

/-! ## 書き込み -/

section

variable {v v' v₁ v₂ : Vol} {who : OwIdentity} {idx need offset len size : UInt32} {e e' e₁ : Entry} {buf : List UInt8}

/-- 大きさが並びに収まっていれば、並びを伸ばしても内容は同じである。 -/
theorem Balanced.contents_reached (h : Balanced v) (hg : Reached v v₁ idx ((viewOf v).table idx) e₁ need)
    (hfile : ((viewOf v).table idx).entryType = entryFile) : contents v₁ = contents v := by
  rcases hg with ⟨_, rfl, _⟩ | hg
  · rfl
  · have hlive := Entry.live_of_file hfile
    have htable := (h.grown hg hlive).2
    obtain ⟨s, hs, _, hfirst, hb⟩ := hg.moved
    have hself : contents v₁ idx = contents v idx := by
      have hentry := hg.entry
      have htype : e₁.entryType = entryFile := by
        rw [hentry]
        exact hfile
      have hsize : e₁.sizeBytes = ((viewOf v).table idx).sizeBytes := by
        rw [hentry]
        rfl
      have hshort := hg.short
      have hcap := h.sized idx hlive
      rw [contents_file hfile, contents_file (by rw [htable]; exact htype), htable]
      unfold fileContent
      rw [hg.blockCount, hsize]
      have hpre : pages (plainBlock v.dev.disk v.sb ((viewOf v).table idx)) ((viewOf v).table idx).blockCount.toNat
            ((viewOf v).table idx).sizeBytes.toNat =
          (pages (plainBlock v₁.dev.disk v₁.sb e₁) need.toNat ((viewOf v).table idx).sizeBytes.toNat).take
            ((viewOf v).table idx).sizeBytes.toNat := by
        apply pages_prefix (by decide) hshort.le le_rfl hcap
        exact fun i hi => (hg.content i hi).symm
      rw [hpre, List.take_of_length_le]
      exact (length_pages (hcap.trans (Nat.mul_le_mul_right 4096 hshort.le))).le
    have hall := h.contents_update hb (fun j hj => Function.update_of_ne hj _ _) fun j hj b hin hout =>
      (h.occupies j).notMem_vacant (h.housed j) hin (hg.run_vacant h.ready hout)
    rw [hall, hself, contents_update_self]

/-- 並びの長さと大きさだけを書き直す。 -/
theorem Balanced.contents_trimmed (h : Balanced v) {w : View} {keep : UInt32} (hb : Becomes ∅ v v' w)
    (hw : w.table = Function.update (viewOf v).table idx e')
    (hentry : e' = Entry.sealed { (viewOf v).table idx with blockCount := keep, sizeBytes := size })
    (hle : keep.toNat ≤ ((viewOf v).table idx).blockCount.toNat)
    (hfile : ((viewOf v).table idx).entryType = entryFile) :
    contents v' = Function.update (contents v) idx
      (some (pages (plainBlock v.dev.disk v.sb ((viewOf v).table idx)) keep.toNat size.toNat)) := by
  have htable : (viewOf v').table idx = e' := by
    rw [hb.view, hw, Function.update_self]
  have hself : contents v' idx =
      some (pages (plainBlock v.dev.disk v.sb ((viewOf v).table idx)) keep.toNat size.toNat) := by
    have htype : ((viewOf v').table idx).entryType = entryFile := by
      rw [htable, hentry]
      exact hfile
    rw [contents_file htype, htable, hentry]
    congr 1
    refine pages_congr fun i hi => ?_
    have hdata := (h.housed idx).isData ((h.housed idx).straight.block_mem (Nat.lt_of_lt_of_le hi hle))
    rw [hb.shape.plainBlock]
    unfold plainBlock
    change cryptoXform v.sb ((viewOf v).table idx) (v'.dev.disk (((viewOf v).table idx).block i)) _ = _
    rw [hb.data _ hdata (Set.notMem_empty _)]
    rfl
  rw [← hself]
  refine h.contents_update hb (fun j hj => ?_) fun _ _ _ _ => Set.notMem_empty _
  rw [hw, Function.update_of_ne hj]

/-- 大きさだけを書き直す。 -/
theorem Balanced.contents_resized (h : Balanced v) (hr : Resized v v' idx ((viewOf v).table idx) e' size)
    (hfile : ((viewOf v).table idx).entryType = entryFile) :
    contents v' = Function.update (contents v) idx (some (pages (plainBlock v.dev.disk v.sb ((viewOf v).table idx))
      ((viewOf v).table idx).blockCount.toNat size.toNat)) := h.contents_trimmed hr.effect rfl hr.entry le_rfl hfile

end

section

variable {v v' : Vol} {who : OwIdentity} {idx offset len size : UInt32} {e e' : Entry} {buf : List UInt8}

/-- 門を通らない書き込みは、何も変えずに断られる。 -/
theorem fileWrite_shut (h : ¬ Editable v who e) :
    wp (fileWrite who idx buf offset len) (fun _ _ => False) (fun _ s' => s' = ⟨v, e⟩) ⟨v, e⟩ := by
  unfold fileWrite
  simp only [wp_bind, wp_get, wp_failIf, wp_ofExcept, wp_ite]
  exact ⟨fun _ => trivial, fun htype => ⟨fun _ hw => ⟨fun _ => trivial, fun hro => ⟨fun _ hacc =>
    absurd ⟨not_not.mp htype, hw, not_not.mp hro, hacc⟩ h, fun _ _ => trivial⟩⟩, fun _ _ => trivial⟩⟩

/-- 伸ばせないのに伸びていることはない。 -/
theorem Reached.not_short {v₁ : Vol} {e₁ : Entry} {need : UInt32} (h : Reached v v₁ idx e e₁ need)
    (hshort : e.blockCount.toNat < need.toNat) (hno : NoRun v need) : False := by
  rcases h with ⟨hle, _⟩ | hg
  · omega
  · obtain ⟨s, hs, hroom, _⟩ := hg.moved
    rcases hno with hfew | hnone
    · omega
    · exact hnone ⟨s, hs⟩

/-- 通った書き込みは、書いた終わりでファイルを切り、失敗した書き込みは、何も変えない。 -/
theorem Sturdy.fileWrite (h : Sturdy v) (hidx : idx.toNat < v.sb.totalEntries.toNat) (who : OwIdentity)
    (hfile : ((viewOf v).table idx).entryType = entryFile) (hbuf : len.toNat ≤ buf.length) :
    wp (fileWrite who idx buf offset len)
      (fun _ s' => ∃ old new, contents v idx = some old ∧ (len = 0 → new = old) ∧
        (len ≠ 0 → offset.toNat + len.toNat < 2 ^ 32 → Cut old offset.toNat (buf.take len.toNat) new) ∧
        contents s'.vol = Function.update (contents v) idx (some new))
      (fun _ s' => contents s'.vol = contents v) ⟨v, (viewOf v).table idx⟩ := by
  have hb := h.balanced
  have hlive := Entry.live_of_file hfile
  have hold := contents_file hfile
  by_cases hedit : Editable v who ((viewOf v).table idx)
  · refine (fileWrite_ready hb.ready hidx (hb.housed idx) (hb.occupies idx) who hbuf).mono ?_ ?_
    · rintro _ ⟨v', e'⟩ ⟨_, _, ⟨hz, heq⟩ | ⟨hlen, v₁, e₁, v₂, hreach, hwrote, hres⟩⟩
      · cases heq
        refine ⟨_, _, hold, fun _ => rfl, fun hnz => absurd hz hnz, ?_⟩
        rw [← hold, contents_update_self]
      · obtain ⟨h₁, htable, _⟩ := hb.reached hreach hlive
        have hsame := hb.contents_reached hreach hfile
        have hhouse := hreach.houses hb.ready (hb.housed idx)
        have hdata := becomes_of_evolves h₁.ready.layout hwrote.sb hwrote.dev fun b hin => hhouse.isData hin
        have htable₂ : (viewOf v₂).table idx = e₁ := by rw [hdata.view, htable]
        have hfile₁ : e₁.entryType = entryFile := by
          by_contra hno
          have hnone : contents v₁ idx = none := contents_other (by rw [htable]; exact hno)
          rw [hsame, hold] at hnone
          cases hnone
        have hcontent₂ : contents v₂ = Function.update (contents v₁) idx (contents v₂ idx) :=
          h₁.contents_update hdata (fun _ _ => rfl) fun j hj b hin hout => by
            rw [← htable] at hout
            exact h₁.notMem_run hj hin hout
        rw [← htable₂] at hres
        have hcontent := (h₁.same hdata).contents_resized hres (by rw [htable₂]; exact hfile₁)
        rw [hcontent₂, Function.update_idem, hsame] at hcontent
        refine ⟨_, _, hold, fun hz => absurd hz hlen, fun _ hend => ?_, hcontent⟩
        have hold₁ : fileContent v.dev.disk v.sb ((viewOf v).table idx) = fileContent v₁.dev.disk v₁.sb e₁ := by
          have hone : contents v₁ idx = some (fileContent v₁.dev.disk v₁.sb ((viewOf v₁).table idx)) :=
            contents_file (by rw [htable]; exact hfile₁)
          rw [hsame, hold, htable] at hone
          exact Option.some.inj hone
        have hcount : (buf.take len.toNat).length = len.toNat := List.length_take_of_le hbuf
        have hroom := need_le_room hreach.enough
        have hsize : (UInt32.ofNat (offset.toNat + len.toNat)).toNat = offset.toNat + (buf.take len.toNat).length := by
          rw [hcount]
          exact toNat_ofNat_lt hend
        rw [hold₁, htable₂, hsize, hwrote.sb]
        refine cut_pages (by decide) (by rw [hcount]; exact hroom) fun p hp => ?_
        exact hwrote.bytes (by rw [hcount]; exact hend.le) p (by rw [hcount] at hp; omega)
    · rintro err ⟨v', e'⟩ ⟨⟨hsame, _⟩ | ⟨v₁, hreach, _⟩, hno⟩
      · exact hb.contents_vacant hsame
      · obtain ⟨hshort, hnone⟩ := hno hedit h.writes
        exact (hreach.not_short hshort hnone).elim
  · refine (fileWrite_shut hedit).mono (fun _ _ hno => hno.elim) ?_
    rintro _ _ rfl
    rfl

theorem fileTruncate_refused (h : e.entryType ≠ entryFile) :
    wp (fileTruncate who idx size) (fun _ _ => False) (fun _ _ => True) ⟨v, e⟩ := by
  unfold fileTruncate
  simp only [wp_bind, wp_get, wp_failIf]
  exact ⟨fun _ => trivial, fun hno => absurd h hno⟩

/-- 大きさを変えるだけなら、手前の部分は残る。 -/
theorem cut_resize {B : Nat → Block} {m m' s s' : Nat} (hm : s' ≤ m' * 4096) :
    Cut (pages B m s) s' [] (pages B m' s') := by
  refine cut_pages (by decide) hm fun p hp => ?_
  rw [if_neg (by simp)]

/-- 通った切り詰めは、大きさを変え、失敗した切り詰めは、何も変えない。 -/
theorem Sturdy.fileTruncate (h : Sturdy v) (hidx : idx.toNat < v.sb.totalEntries.toNat) (who : OwIdentity)
    (hfile : ((viewOf v).table idx).entryType = entryFile) (size : UInt32) :
    wp (fileTruncate who idx size)
      (fun _ s' => ∃ old new, contents v idx = some old ∧ Cut old size.toNat [] new ∧
        contents s'.vol = Function.update (contents v) idx (some new))
      (fun _ s' => contents s'.vol = contents v) ⟨v, (viewOf v).table idx⟩ := by
  have hb := h.balanced
  have hlive := Entry.live_of_file hfile
  have hold := contents_file hfile
  have hlt := size.toNat_lt
  have hneed : size.toNat ≤ (blocksFor size.toNat).toNat * 4096 := le_blocksFor (by omega)
  refine (fileTruncate_ready hb.ready hidx (hb.housed idx) (hb.occupies idx) who size).mono ?_
    fun _ _ hsame => hb.contents_vacant hsame.1
  rintro _ ⟨v', e'⟩ ⟨_, ht⟩
  cases ht with
  | same heq hv _ =>
      change v' = v at hv
      refine ⟨_, _, hold, ?_, by rw [hv, ← hold, contents_update_self]⟩
      unfold fileContent
      rw [← heq]
      exact cut_resize (by rw [heq]; exact hb.sized idx hlive)
  | @extended v₁ e₁ _ hreach hres =>
      obtain ⟨h₁, htable, _⟩ := hb.reached hreach hlive
      have hsame := hb.contents_reached hreach hfile
      have hroom := hneed.trans (Nat.mul_le_mul_right 4096 hreach.enough)
      have hfile₁ : ((viewOf v₁).table idx).entryType = entryFile := by
        by_contra hno
        have hnone : contents v₁ idx = none := contents_other hno
        rw [hsame, hold] at hnone
        cases hnone
      rw [← htable] at hres hroom
      have hcontent := h₁.contents_resized hres hfile₁
      rw [hsame] at hcontent
      refine ⟨_, _, hsame ▸ contents_file hfile₁, ?_, hcontent⟩
      exact cut_resize hroom
  | kept hless _ hres =>
      refine ⟨_, _, hold, ?_, hb.contents_resized hres hfile⟩
      exact cut_resize ((UInt32.lt_iff_toNat_lt.mp hless).le.trans (hb.sized idx hlive))
  | cut _ hs =>
      refine ⟨_, _, hold, ?_, hb.contents_trimmed hs.effect rfl hs.entry hs.less.le hfile⟩
      exact cut_resize hneed

end

/-! ## 一回の呼び出し -/

section

variable {v : Vol} {idx : UInt32}

/-- 読み直した項目でファイルへの操作を行う。ファイルでない項目への操作は断られる。 -/
theorem Sturdy.held (h : Sturdy v) {op : EntryOp} {α : Type} {p : EntryM α} {held : Entry}
    (hread : (entryRead idx v).1 = .ok held)
    (hshut : held.entryType ≠ entryFile → wp p (fun _ _ => False) (fun _ s' => contents s'.vol = contents v) ⟨v, held⟩)
    (hedit : idx.toNat < v.sb.totalEntries.toNat → ((viewOf v).table idx).entryType = entryFile →
      wp p (fun _ s' => StoreStep (contents v) (op, .ok ()) (contents s'.vol))
        (fun _ s' => contents s'.vol = contents v) ⟨v, (viewOf v).table idx⟩)
    (hrun : op.run = (do let _ ← withEntry held p; pure ())) :
    StoreStep (contents v) (op, (op.run v).1) (contents (op.run v).2) := by
  obtain ⟨hidx, rfl, _⟩ := entryRead_fresh h.balanced.ready.stable (run_eq hread)
  have hall : wp p (fun _ s' => StoreStep (contents v) (op, .ok ()) (contents s'.vol))
      (fun _ s' => contents s'.vol = contents v) ⟨v, (viewOf v).table idx⟩ := by
    by_cases hfile : ((viewOf v).table idx).entryType = entryFile
    · exact hedit hidx hfile
    · exact (hshut hfile).mono (fun _ _ hno => hno.elim) (fun _ _ hsame => hsame)
  refine wp.outcome (P := fun r v' => StoreStep (contents v) (op, r) (contents v')) ?_
  rw [hrun, wp_bind, wp_withEntry]
  refine hall.mono (fun _ _ hstep => hstep) fun err s' hsame => ?_
  simp only [hsame]
  exact .failed op err

/-- どの呼び出しも、保管庫の一歩である。 -/
theorem Sturdy.storeStep (h : Sturdy v) (op : EntryOp) (hread : op.FreshlyRead v) :
    StoreStep (contents v) (op, (op.run v).1) (contents (op.run v).2) := by
  have hb := h.balanced
  cases op with
  | alloc who entryType name nameLen parent hname =>
      refine wp.outcome (P := fun r v' => StoreStep (contents v) (_, r) (contents v')) ?_
      unfold EntryOp.run
      rw [wp_bind]
      refine (entryAlloc_ready hb.ready hb.summed who entryType name nameLen parent).mono ?_ ?_
      · intro idx v' hc
        rw [wp_pure, hb.contents_created hc]
        exact .created hc.slot.contents_none
      · intro err v' hsame
        have hcontents : contents v' = contents v :=
          hb.contents_vacant (hsame.1.mono (Set.empty_subset _))
        simp only [hcontents]
        exact .failed _ err
  | free who idx =>
      refine wp.outcome (P := fun r v' => StoreStep (contents v) (_, r) (contents v')) ?_
      refine (entryFree_ready hb.ready who (hb.summed idx)).mono ?_ ?_
      · intro _ v' hf
        simp only [hb.contents_freed hf]
        exact .freed
      · rintro err _ ⟨⟨c, rfl⟩, _⟩
        exact .failed _ err
  | write who idx held buf offset len hbuf =>
      refine h.held hread (fun hfile => ?_) ?_ rfl
      · refine (fileWrite_shut fun hedit => hfile hedit.file).mono (fun _ _ hno => hno) ?_
        rintro _ _ rfl
        rfl
      intro hidx hfile
      refine (h.fileWrite hidx who hfile hbuf).mono ?_ (fun _ _ hsame => hsame)
      rintro _ s' ⟨old, new, hold, hidle, hnew, hcontents⟩
      rw [hcontents]
      exact .written hold hidle hnew
  | truncate who idx held size =>
      refine h.held hread (fun hfile => ?_) ?_ rfl
      · exact ((fileTruncate_refused hfile).and (idle_fileTruncate_of_notFile hfile who idx size)).mono
          (fun _ _ hno => hno.1) fun _ _ hsame => by rw [hsame.2]
      · intro hidx hfile
        refine (h.fileTruncate hidx who hfile size).mono ?_ (fun _ _ hsame => hsame)
        rintro _ s' ⟨old, new, hold, hnew, hcontents⟩
        rw [hcontents]
        exact .truncated hold hnew

end

/-! ## 実行の全体 -/

/-- 読む権利があれば、読み取りは、保管庫の内容の一部を返す。 -/
def Answers (v : Vol) (s : Store UInt32) : Prop :=
  ∀ idx content, s idx = some content → ∃ e v₀, entryRead idx v = (.ok e, v₀) ∧
    ∀ who offset len, entryAccessCheck who e accessRead = .ok () →
      ∃ v', fileRead who e offset len v₀ = (.ok ((content.drop offset.toNat).take len.toNat), v')

/-- 番号 `idx` のファイルには、終わりへの書き込みだけを行う。 -/
def EntryOp.AppendsTo (idx : UInt32) (s : Store UInt32) : EntryOp → Prop
  | alloc .. => True
  | free _ i => i ≠ idx
  | write _ i _ _ offset len _ => i = idx →
      offset.toNat + len.toNat < 2 ^ 32 ∧ ∀ old, s idx = some old → offset.toNat = old.length
  | truncate _ i _ _ => i ≠ idx

/-- 番号 `idx` のファイルに足されたバイト。 -/
def appended (idx : UInt32) : EntryOp × Except UsfsErr Unit → List UInt8
  | (.write _ i _ buf _ len _, .ok _) => if i = idx then buf.take len.toNat else []
  | _ => []

section

variable {s s' : Store UInt32} {idx : UInt32} {l : EntryOp × Except UsfsErr Unit}

/-- 終わりへの書き込みだけなら、内容は足した分だけ伸びる。 -/
theorem StoreStep.appends (h : StoreStep s l s') (hap : l.1.AppendsTo idx s) {old : List UInt8}
    (hold : s idx = some old) :
    s' idx = some (old ++ appended idx l) := by
  cases h with
  | failed op err =>
      cases op <;> simpa [appended] using hold
  | @created _ _ _ _ _ i _ hnew =>
      have hne : idx ≠ i := by
        rintro rfl
        rw [hold] at hnew
        cases hnew
      simpa [appended, Function.update_of_ne hne] using hold
  | @freed _ i =>
      simpa [appended, Function.update_of_ne (Ne.symm hap)] using hold
  | @written _ i _ buf offset len _ old' new hold' hidle hnew =>
      by_cases hi : i = idx
      · subst hi
        obtain ⟨hend, hat⟩ := hap rfl
        obtain rfl : old' = old := Option.some.inj (hold'.symm.trans hold)
        rw [Function.update_self]
        simp only [appended, ↓reduceIte]
        by_cases hz : len = 0
        · simp [hz, hidle hz]
        · have hcut := hnew hz hend
          rw [hat old' hold'] at hcut
          rw [hcut.append]
      · simpa [appended, hi, Function.update_of_ne (Ne.symm hi)] using hold
  | @truncated _ i _ _ _ _ _ _ =>
      simpa [appended, Function.update_of_ne (Ne.symm hap)] using hold

end

section

variable {who : OwIdentity} {totalBlocks b : UInt32} {label : Option (List UInt8)} {d d' : HtlDevice} {v : Vol}

theorem Sturdy.answers (h : Sturdy v) : Answers v (contents v) := by
  intro idx content hcontent
  have hb := h.balanced
  have hfile : ((viewOf v).table idx).entryType = entryFile := by
    by_contra hno
    rw [contents_other hno] at hcontent
    cases hcontent
  have hlive := Entry.live_of_file hfile
  rw [contents_file hfile, Option.some.injEq] at hcontent
  subst hcontent
  obtain ⟨v₀, hread⟩ := entryRead_summed hb.ready.stable (live_inTable hlive) (hb.summed idx hlive.1)
  refine ⟨_, v₀, hread, fun who offset len hacc => ?_⟩
  obtain ⟨_, c, rfl⟩ := entryRead_table hread
  have hcap := hb.sized idx hlive
  have hspec := @fileRead_spec (v.atClock c) ((viewOf v).table idx) hcap who offset len
  obtain ⟨out, v', hrun, _, hout⟩ := hspec.exists_ok_of fun err _ hno => hno.2 hfile hacc
    ⟨hb.ready.faultFree, fun p _ _ hp => (h.writes _ ((hb.housed idx).isData ((hb.housed idx).straight.block_mem
      (Nat.div_lt_of_lt_mul (by omega))))).toReads⟩
  rw [hout] at hrun
  exact ⟨v', hrun⟩

/-- フォーマットしたボリュームには、まだファイルがない。 -/
theorem sturdy_of_format (hf : d.Reliable) (hlayout : layoutBitmapBlocks totalBlocks = some b)
    (hcovers : CoversData totalBlocks b) (hdev : d.totalBlocks = 0 ∨ totalBlocks.toNat ≤ d.totalBlocks.toNat)
    (hfmt : formatVolume who totalBlocks label d = (.ok (), d')) (hopen : Opened d' v) :
    Sturdy v ∧ contents v = fun _ => none := by
  obtain ⟨_, _, _, hunused, hfresh, hconfig⟩ := fresh_of_format hf (hcovers.fit hlayout) hfmt hopen
  have hfounded := founded_of_opened hf hfmt hopen
  refine ⟨⟨.of_fresh hunused hfresh, hfounded.kept, fun x hx => ?_⟩, funext fun idx => contents_other fun hfile => ?_⟩
  · have hfirst := hfresh.ready.serves.writes 0 (by
      have hl := hfresh.ready.layout.dataAfter
      have hm := hfresh.ready.layout.placed.bitmapAfter
      have ht := hfresh.ready.layout.placed.tableAfter
      change 0 < _
      omega)
    refine ⟨⟨hfirst.valid, fun hout => ?_⟩, hfirst.unprotected⟩
    rw [hconfig] at hout
    have hlow := UInt32.le_iff_toNat_le.mp hout.2
    have hpos := UInt32.lt_iff_toNat_lt.mp hout.1
    have hhigh := hx.2
    rw [hfresh.totalBlocks_eq] at hhigh
    change x.toNat < totalBlocks.toNat at hhigh
    rcases hdev with hz | hle
    · rw [hz] at hpos
      exact absurd hpos (Nat.lt_irrefl 0)
    · omega
  · have hnode := directory_live (Entry.live_of_file hfile)
    rw [hfounded.root] at hnode
    by_cases hz : idx = 0
    · rw [hz, Function.update_self, Option.some.injEq] at hnode
      have hkind := congrArg Node.kind hnode
      rw [hz] at hfile
      simp only [hfile] at hkind
      exact absurd hkind (by decide)
    · rw [Function.update_of_ne hz] at hnode
      cases hnode

/-- ボリュームは、どの呼び出しの列の間も、項目の番号からバイト列への部分写像を表す。書けた分だけが読める。 -/
theorem store_refined (hf : d.Reliable) (hlayout : layoutBitmapBlocks totalBlocks = some b)
    (hcovers : CoversData totalBlocks b) (hdev : d.totalBlocks = 0 ∨ totalBlocks.toNat ≤ d.totalBlocks.toNat)
    (hfmt : formatVolume who totalBlocks label d = (.ok (), d')) (hopen : Opened d' v) (ops : List EntryOp)
    (hread : ∀ e ∈ trace EntryOp.run ops v, e.op.FreshlyRead e.before) :
    Runs StoreStep (fun _ => none) ((trace EntryOp.run ops v).map fun e => (e.op, e.result))
        (contents (final EntryOp.run ops v)) ∧
      Answers (final EntryOp.run ops v) (contents (final EntryOp.run ops v)) := by
  obtain ⟨hsturdy, hempty⟩ := sturdy_of_format hf hlayout hcovers hdev hfmt hopen
  have hruns := @trace_runs _ _ _ _ _ EntryOp.run Sturdy (fun e => e.op.FreshlyRead e.before) StoreStep contents
    (fun e => (e.op, e.result)) (fun op _ h hP => ⟨h.step op hP, h.storeStep op hP⟩) ops v hsturdy hread
  rw [hempty] at hruns
  exact ⟨hruns.2, hruns.1.answers⟩

/-- 小さいボリュームに一つのファイルを作り、読み直す。 -/
theorem created_small : ∃ d' v held, formatVolume ⟨0, 0⟩ 64 none (zeroDevice 0) = (.ok (), d') ∧ Opened d' v ∧
    contents (final EntryOp.run [createFile 0x61 0] v) 1 = some [] ∧
    (entryRead 1 (final EntryOp.run [createFile 0x61 0] v)).1 = .ok held := by
  obtain ⟨d', v, hfmt, hopen⟩ := exists_opened_zeroDevice ⟨0, 0⟩ (n := 0) (.inl rfl)
  obtain ⟨v₁, hrun, hwork, _, _, htotal, _, _, _, htable⟩ := first_file hfmt hopen
  have hfinal : final EntryOp.run [createFile 0x61 0] v = v₁ := by
    change (EntryOp.run (createFile 0x61 0) v).2 = v₁
    rw [hrun]
  have hfile : ((viewOf v₁).table 1).entryType = entryFile := by
    rw [htable]
    rfl
  obtain ⟨v₀, hread⟩ := entryRead_summed hwork.ready.stable (by rw [htotal]; decide : (1 : UInt32).toNat < _)
    (hwork.kept.summed 1 (Entry.live_of_file hfile).1)
  refine ⟨d', v, (viewOf v₁).table 1, hfmt, hopen, ?_, ?_⟩
  · rw [hfinal, contents_file hfile, htable]
    rfl
  · rw [hfinal, hread]

theorem store_refined_small : ∃ d' v held, formatVolume ⟨0, 0⟩ 64 none (zeroDevice 0) = (.ok (), d') ∧ Opened d' v ∧
    Runs StoreStep (fun _ => none)
      ((trace EntryOp.run [createFile 0x61 0, writeByte held] v).map fun e => (e.op, e.result))
      (contents (final EntryOp.run [createFile 0x61 0, writeByte held] v)) := by
  obtain ⟨d', v, held, hfmt, hopen, _, hread⟩ := created_small
  refine ⟨d', v, held, hfmt, hopen, (store_refined (reliable_zeroDevice 0) layoutBitmapBlocks_small
    (.mk' (by decide) (by decide) (by decide)) (.inl rfl) hfmt hopen _ fun e he => ?_).1⟩
  rcases List.mem_cons.mp he with rfl | he
  · exact trivial
  · obtain rfl := List.mem_singleton.mp he
    exact hread

/-- 終わりへ書くだけのファイルは、通った書き込みを順につないだ記録になる。ほかの項目への呼び出しが間に挟まってもよい。 -/
theorem append_log (hf : d.Reliable) (hlayout : layoutBitmapBlocks totalBlocks = some b)
    (hcovers : CoversData totalBlocks b) (hdev : d.totalBlocks = 0 ∨ totalBlocks.toNat ≤ d.totalBlocks.toNat)
    (hfmt : formatVolume who totalBlocks label d = (.ok (), d')) (hopen : Opened d' v) (before ops : List EntryOp)
    (hbefore : ∀ e ∈ trace EntryOp.run before v, e.op.FreshlyRead e.before) {idx : UInt32} {old : List UInt8}
    (hold : contents (final EntryOp.run before v) idx = some old)
    (hread : ∀ e ∈ trace EntryOp.run ops (final EntryOp.run before v),
      e.op.FreshlyRead e.before ∧ e.op.AppendsTo idx (contents e.before)) :
    contents (final EntryOp.run ops (final EntryOp.run before v)) idx =
      some (old ++ ((trace EntryOp.run ops (final EntryOp.run before v)).map fun e => (e.op, e.result)).flatMap
        (appended idx)) := by
  obtain ⟨hsturdy, _⟩ := sturdy_of_format hf hlayout hcovers hdev hfmt hopen
  have hreach := (trace_invariant (I := Sturdy) (P := fun e => e.op.FreshlyRead e.before)
    (fun op _ h hP => h.step op hP) before v hsturdy hbefore).1
  have hruns := @trace_runs _ _ _ _ _ EntryOp.run Sturdy
    (fun e => e.op.FreshlyRead e.before ∧ e.op.AppendsTo idx (contents e.before))
    (fun s l s' => StoreStep s l s' ∧ l.1.AppendsTo idx s) contents (fun e => (e.op, e.result))
    (fun op _ h hP => ⟨h.step op hP.1, h.storeStep op hP.1, hP.2⟩) ops _ hreach hread
  exact @Runs.accumulates _ _ _ _ _ _ _ (fun s => s idx) (appended idx) (fun _ _ _ _ h hs => h.1.appends h.2 hs)
    hruns.2 _ hold

end

theorem append_log_small : ∃ d' v held, formatVolume ⟨0, 0⟩ 64 none (zeroDevice 0) = (.ok (), d') ∧ Opened d' v ∧
    contents (final EntryOp.run [writeByte held] (final EntryOp.run [createFile 0x61 0] v)) 1 =
      some ([] ++ ((trace EntryOp.run [writeByte held] (final EntryOp.run [createFile 0x61 0] v)).map
        fun e => (e.op, e.result)).flatMap (appended 1)) := by
  obtain ⟨d', v, held, hfmt, hopen, hnew, hread⟩ := created_small
  refine ⟨d', v, held, hfmt, hopen, append_log (reliable_zeroDevice 0) layoutBitmapBlocks_small
    (.mk' (by decide) (by decide) (by decide)) (.inl rfl) hfmt hopen [createFile 0x61 0] [writeByte held]
    (fun e he => ?_) hnew fun e he => ?_⟩
  · obtain rfl := List.mem_singleton.mp he
    exact trivial
  · obtain rfl := List.mem_singleton.mp he
    refine ⟨hread, fun _ => ⟨by decide, fun old hold => ?_⟩⟩
    obtain rfl : old = [] := Option.some.inj (hold.symm.trans hnew)
    rfl

end OwStorage.Usfs
