import OwStorage.Lib.Twin
import OwStorage.Common.Lemmas.String
import OwStorage.Owfs.Lemmas.Steady
import OwStorage.Usfs.Lemmas.Format

/-!
# 隠された物の見えなさ

隠された物を指す項目をすべて消しても、持ち主でも特権でもない主体の探索と一覧は変わらない。消す前のボリュームと
消した後のボリュームの上で、同じ計算を並べて動かす。
-/

namespace OwStorage

open Lib Prog

/-! ## ディスクだけが違う装置 -/

/-- ディスクだけを替えた装置。 -/
def HtlDevice.withDisk (d : HtlDevice) (disk : Disk) : HtlDevice := { d with disk := disk }

/-- `d` と、ディスクを `disk` に替えた装置から、時計だけが動いた状態の組。 -/
def HtlDevice.Beside (d : HtlDevice) (disk : Disk) (s t : HtlDevice) : Prop :=
  ∃ c c', s = d.atClock c ∧ t = (d.withDisk disk).atClock c'

theorem twin_htlReadBlock {d : HtlDevice} {disk : Disk} (hff : d.FaultFree) (b : UInt32) :
    Twin (d.Beside disk) (fun blk blk' => blk = d.disk b ∧ blk' = disk b) (htlReadBlock b) (htlReadBlock b) := by
  unfold htlReadBlock
  refine .bind .get fun s t hs => ?_
  obtain ⟨c, c', rfl, rfl⟩ := hs
  refine .failIf Iff.rfl fun _ => .failIf Iff.rfl fun _ => ?_
  rintro _ _ ⟨c, c', rfl, rfl⟩
  rw [driverCall_faultFree (d := d.atClock c) hff, driverCall_faultFree (d := (d.withDisk disk).atClock c') hff]
  exact ⟨.ok ⟨rfl, rfl⟩, _, _, rfl, rfl⟩

/-! ## OWFS のカタログ -/

namespace Owfs

/-- ディスクだけを替えたボリューム。 -/
def Vol.withDisk (v : Vol) (disk : Disk) : Vol := { v with dev := v.dev.withDisk disk }

/-- 生きている項目で、指す inode が正しく読めて、隠されており、`who` の物でもない。 -/
def HiddenEntry (who : OwIdentity) (v : Vol) (a : CatalogEntry) : Prop :=
  entryLive a = true ∧ ∃ ino, (inodeRead a.inodeNumber v).1 = .ok ino ∧ inodeIsHidden ino = true ∧
    who.uid ≠ ino.ownerUid.toUInt32

/-- カタログ `n` のデータブロックが、inode の表とも、そのカタログの間接ブロックとも重ならない。 -/
structure Detached (v : Vol) (n : UInt32) : Prop where
  table : ∀ i < (inodeAt v.dev.disk v.sb n).blockCount.toNat, ∀ m : UInt32, m.toNat < v.sb.totalInodes.toNat →
    mapBlock v.dev.disk (inodeAt v.dev.disk v.sb n) i ≠ inodeBlockOffset v.sb m
  indirect : ∀ i < (inodeAt v.dev.disk v.sb n).blockCount.toNat,
    10 < (inodeAt v.dev.disk v.sb n).blockCount.toNat →
    mapBlock v.dev.disk (inodeAt v.dev.disk v.sb n) i ≠ (inodeAt v.dev.disk v.sb n).indirectBlock

/-- `disk` は、カタログ `n` から `who` に隠された項目だけを消したディスクである。消し方は問わない。 -/
structure Erased (who : OwIdentity) (v : Vol) (n : UInt32) (disk : Disk) : Prop where
  elsewhere : ∀ b, (∀ i < (inodeAt v.dev.disk v.sb n).blockCount.toNat,
    b ≠ mapBlock v.dev.disk (inodeAt v.dev.disk v.sb n) i) → disk b = v.dev.disk b
  erased : ∀ i < (inodeAt v.dev.disk v.sb n).blockCount.toNat, ∀ e < 16,
    HiddenEntry who v (entryIn (blockOf v n i) e) →
      entryLive (entryIn (disk (mapBlock v.dev.disk (inodeAt v.dev.disk v.sb n) i)) e) = false
  kept : ∀ i < (inodeAt v.dev.disk v.sb n).blockCount.toNat, ∀ e < 16,
    ¬ HiddenEntry who v (entryIn (blockOf v n i) e) →
      (disk (mapBlock v.dev.disk (inodeAt v.dev.disk v.sb n) i)).slice (e * 256) 256 =
        (blockOf v n i).slice (e * 256) 256

/-- 二つのボリュームから、時計だけが動いた状態の組。 -/
def Beside (v w s t : Vol) : Prop := Still v s ∧ Still w t

section

variable {v : Vol} {who : OwIdentity} {n : UInt32} {disk : Disk}

/-! ### 枠の中身 -/

theorem entryIn_of_slice {blk blk' : Block} {e : Nat} (h : blk'.slice (e * 256) 256 = blk.slice (e * 256) 256) :
    entryIn blk' e = entryIn blk e := by
  unfold entryIn
  rw [h]

/-- 探される名前は、枠の中に収まる。 -/
theorem nameCmp_of_slice {blk blk' : Block} {e : Nat} {x : List UInt8} (he : e < 16) (hx : x.length < nameMaxBytes)
    (h : blk'.slice (e * 256) 256 = blk.slice (e * 256) 256) :
    (owSutf8NameCmp (entryName blk' e) x == 0) = (owSutf8NameCmp (entryName blk e) x == 0) := by
  have hent := entryIn_of_slice h
  by_cases hlen : (entryIn blk e).nameLength.toNat ≤ 250
  · have hname : entryName blk' e = entryName blk e := by
      apply List.ext_getElem?
      intro j
      unfold entryName
      rw [Bytes.getElem?_slice, Bytes.getElem?_slice, hent]
      by_cases hj : j < (entryIn blk e).nameLength.toNat
      · have hslot := congrArg (fun l => l[6 + j]?) h
        simp only [Bytes.getElem?_slice, show 6 + j < 256 by omega, ↓reduceIte, ← Nat.add_assoc] at hslot
        rw [if_pos hj, if_pos hj]
        exact hslot
      · rw [if_neg hj, if_neg hj]
    rw [hname]
  · -- 枠からはみ出る名前は、128 バイトより短い名前と等しくならない。
    have hlong : ∀ b : Block, entryIn b e = entryIn blk e → (owSutf8NameCmp (entryName b e) x == 0) = false := by
      intro b hb
      refine beq_eq_false_iff_ne.mpr fun hcmp => ?_
      have hsize := congrArg List.length (owSutf8NameCmp_eq hcmp)
      unfold entryName at hsize
      rw [Bytes.length_slice, hb] at hsize
      unfold nameMaxBytes at hx
      omega
    rw [hlong blk' hent, hlong blk rfl]

/-! ### 並んだ実行 -/

theorem twin_readBlk (hff : v.dev.FaultFree) (b : UInt32) :
    Twin (Beside v (v.withDisk disk)) (fun blk blk' => blk = v.dev.disk b ∧ blk' = disk b) (readBlk b) (readBlk b) := by
  refine (twin_htlReadBlock hff b).within ?_ ?_
  · rintro _ _ ⟨⟨c, rfl⟩, ⟨c', rfl⟩⟩
    exact ⟨c, c', rfl, rfl⟩
  · rintro _ _ _ _ ⟨⟨_, rfl⟩, ⟨_, rfl⟩⟩ ⟨c, c', rfl, rfl⟩
    exact ⟨⟨c, rfl⟩, ⟨c', rfl⟩⟩

/-- 変わらないブロックの読み取り。 -/
theorem twin_readBlk_same (hff : v.dev.FaultFree) {b : UInt32} (hb : disk b = v.dev.disk b) :
    Twin (Beside v (v.withDisk disk)) (fun blk blk' => blk = v.dev.disk b ∧ blk' = v.dev.disk b)
      (readBlk b) (readBlk b) :=
  (twin_readBlk hff b).mono fun _ _ h => ⟨h.1, h.2.trans hb⟩

theorem twin_inodeRead (hff : v.dev.FaultFree) (m : UInt32)
    (hm : m.toNat < v.sb.totalInodes.toNat → disk (inodeBlockOffset v.sb m) = v.dev.disk (inodeBlockOffset v.sb m)) :
    Twin (Beside v (v.withDisk disk)) (fun a a' => a = inodeAt v.dev.disk v.sb m ∧ a' = inodeAt v.dev.disk v.sb m)
      (inodeRead m) (inodeRead m) := by
  refine .bind (R := fun a a' => a = inodeAt v.dev.disk v.sb m ∧ a' = inodeAt v.dev.disk v.sb m)
    (.bind .get fun s t hs => ?_) fun a a' ha => ?_
  · obtain ⟨⟨c, rfl⟩, ⟨c', rfl⟩⟩ := hs
    refine .failIf Iff.rfl fun hin => ?_
    have hin : m.toNat < v.sb.totalInodes.toNat := by
      rw [ge_iff_le, UInt32.not_le] at hin
      exact UInt32.lt_iff_toNat_lt.mp hin
    refine .bind (twin_readBlk_same hff (hm hin)) fun blk blk' hblk => ?_
    obtain ⟨rfl, rfl⟩ := hblk
    exact .pure ⟨rfl, rfl⟩
  · rw [ha.1, ha.2]
    exact .failIf Iff.rfl fun _ => .pure ⟨rfl, rfl⟩

theorem twin_inodeHiddenFrom (hff : v.dev.FaultFree) (m : UInt32)
    (hm : m.toNat < v.sb.totalInodes.toNat → disk (inodeBlockOffset v.sb m) = v.dev.disk (inodeBlockOffset v.sb m)) :
    Twin (Beside v (v.withDisk disk)) Eq (inodeHiddenFrom who m) (inodeHiddenFrom who m) := by
  unfold inodeHiddenFrom
  refine .bind (twin_inodeRead hff m hm).attempt fun r r' hr => ?_
  cases hr with
  | ok h =>
      obtain ⟨rfl, rfl⟩ := h
      exact .pure rfl
  | error e => exact .pure rfl

section

variable (hff : v.dev.FaultFree) (hd : Detached v n) (he : Erased who v n disk)
include hff hd he

theorem twin_catalogRead :
    Twin (Beside v (v.withDisk disk)) (fun a a' => a = inodeAt v.dev.disk v.sb n ∧ a' = inodeAt v.dev.disk v.sb n)
      (catalogRead n) (catalogRead n) := by
  unfold catalogRead
  refine .bind (twin_inodeRead hff n fun hn => he.elsewhere _ fun i hi => (hd.table i hi n hn).symm) fun a a' ha => ?_
  rw [ha.1, ha.2]
  exact .failIf Iff.rfl fun _ => .pure ⟨rfl, rfl⟩

theorem twin_blockmapGet {i : Nat} (hi : i < (inodeAt v.dev.disk v.sb n).blockCount.toNat) :
    Twin (Beside v (v.withDisk disk))
      (fun b b' => b = mapBlock v.dev.disk (inodeAt v.dev.disk v.sb n) i ∧
        b' = mapBlock v.dev.disk (inodeAt v.dev.disk v.sb n) i)
      (blockmapGet (inodeAt v.dev.disk v.sb n) (UInt32.ofNat i))
      (blockmapGet (inodeAt v.dev.disk v.sb n) (UInt32.ofNat i)) := by
  have hlt := (inodeAt v.dev.disk v.sb n).blockCount.toNat_lt
  have hidx : (UInt32.ofNat i).toNat = i := toNat_ofNat_lt (by omega)
  unfold blockmapGet mapBlock
  refine .failIf Iff.rfl fun _ => ?_
  by_cases h : (UInt32.ofNat i).toNat < 10
  · rw [dif_pos h, if_pos (by omega)]
    refine .failIf Iff.rfl fun _ => .pure ?_
    have hget : (inodeAt v.dev.disk v.sb n).directBlocks[(UInt32.ofNat i).toNat] =
        (inodeAt v.dev.disk v.sb n).directBlocks[i]?.getD 0 := by
      rw [Vector.getElem?_eq_getElem (by omega : i < 10), Option.getD_some]
      simp only [hidx]
    exact ⟨hget, hget⟩
  · rw [dif_neg h, if_neg (by omega)]
    refine .failIf Iff.rfl fun _ => ?_
    have hsame : disk (inodeAt v.dev.disk v.sb n).indirectBlock =
      v.dev.disk (inodeAt v.dev.disk v.sb n).indirectBlock :=
      he.elsewhere _ fun j hj => (hd.indirect j hj (by omega)).symm
    have hoff : (UInt32.ofNat i - 10).toNat = i - 10 := by
      rw [toNat_sub_le (by rw [hidx]; change 10 ≤ i; omega), hidx]
      rfl
    refine .bind (twin_readBlk hff _) fun blk blk' hblk => ?_
    rw [hblk.1, hblk.2, hsame, hoff]
    exact .failIf Iff.rfl fun _ => .pure ⟨rfl, rfl⟩

theorem twin_inodeHiddenFrom_kept (m : UInt32) :
    Twin (Beside v (v.withDisk disk)) Eq (inodeHiddenFrom who m) (inodeHiddenFrom who m) :=
  twin_inodeHiddenFrom hff m fun hm => he.elsewhere _ fun i hi => (hd.table i hi m hm).symm

end

/-- 隠された物かどうかの検査は、消された項目では必ず当たる。 -/
theorem twin_hidden {a : CatalogEntry} {α : Type} {f : Bool → OwfsM α} {q : OwfsM α} (hff : v.dev.FaultFree)
    (hroot : owSecIsSuperuser who = false) (ha : HiddenEntry who v a)
    (hf : Twin (Beside v (v.withDisk disk)) Eq (f true) q) :
    Twin (Beside v (v.withDisk disk)) Eq (inodeHiddenFrom who a.inodeNumber >>= f) q := by
  obtain ⟨_, ino, hread, hhid, howner⟩ := ha
  have htrue : (inodeIsHidden ino && ! owSecIsSuperuser who && who.uid != ino.ownerUid.toUInt32) = true := by
    rw [hhid, hroot, bne_iff_ne.mpr howner]
    rfl
  rintro _ t ⟨⟨c, rfl⟩, ht⟩
  obtain ⟨c', hrun⟩ := Steady.inodeRead hff a.inodeNumber c
  rw [hread] at hrun
  have hmask : inodeHiddenFrom who a.inodeNumber (v.atClock c) = (.ok true, v.atClock c') := by
    refine run_bind (run_attempt hrun) ?_
    change (_, _) = _
    rw [htrue]
  rw [run_bind hmask rfl]
  exact hf _ t ⟨⟨c', rfl⟩, ht⟩

section

variable (hff : v.dev.FaultFree) (hroot : owSecIsSuperuser who = false) (hd : Detached v n) (he : Erased who v n disk)
include hff hroot hd he

theorem twin_catalogLookup (name : Option (List UInt8)) (nameLen : Nat) :
    Twin (Beside v (v.withDisk disk)) Eq (catalogLookup who n name nameLen) (catalogLookup who n name nameLen) := by
  unfold catalogLookup
  refine .failIf Iff.rfl fun _ => .failIf Iff.rfl fun hshort => .bind (twin_catalogRead hff hd he) fun _ _ hino => ?_
  rw [hino.1, hino.2]
  have hx : (nameBytes name nameLen).length < nameMaxBytes := by
    unfold nameBytes
    rw [List.length_take]
    omega
  refine .bind (.ofExcept _) fun _ _ _ => .bind (.loop fun i _ hi => ?_) fun r r' hr => ?_
  · refine .bind (twin_blockmapGet hff hd he hi) fun _ _ hb => ?_
    rw [hb.1, hb.2]
    refine .bind (twin_readBlk hff _) fun _ _ hblk => ?_
    rw [hblk.1, hblk.2]
    refine .loop fun e _ hlt => ?_
    by_cases hhid : HiddenEntry who v (entryIn (blockOf v n i) e)
    · -- 消した後は枠が死んでいて、消す前は検査に当たる。どちらも次へ進む。
      have hdead := he.erased i hi e hlt hhid
      simp only [hdead, Bool.false_and, Bool.false_eq_true, ↓reduceIte]
      split
      · exact twin_hidden hff hroot hhid (.pure rfl)
      · exact .pure rfl
    · have hslot := he.kept i hi e hlt hhid
      rw [entryIn_of_slice hslot, nameCmp_of_slice hlt hx hslot]
      dsimp only
      split
      · refine .bind (twin_inodeHiddenFrom_kept hff hd he _) fun _ _ hsame => ?_
        subst hsame
        split <;> exact .pure rfl
      · exact .pure rfl
  · subst hr
    cases r with
    | inl _ => exact .throw _
    | inr m => exact .pure rfl

theorem twin_catalogList (maxEntries : UInt32) :
    Twin (Beside v (v.withDisk disk)) Eq (catalogList who n maxEntries) (catalogList who n maxEntries) := by
  unfold catalogList
  refine .failIf Iff.rfl fun _ => .bind (twin_catalogRead hff hd he) fun _ _ hino => ?_
  rw [hino.1, hino.2]
  refine .bind (.ofExcept _) fun _ _ _ => .bind (.loop fun i acc hi => ?_) fun r r' hr => ?_
  · refine .bind (twin_blockmapGet hff hd he hi) fun _ _ hb => ?_
    rw [hb.1, hb.2]
    refine .bind (twin_readBlk hff _) fun _ _ hblk => ?_
    rw [hblk.1, hblk.2]
    refine .loop fun e acc hlt => ?_
    by_cases hhid : HiddenEntry who v (entryIn (blockOf v n i) e)
    · have hdead := he.erased i hi e hlt hhid
      simp only [hdead, Bool.false_and, Bool.false_eq_true, ↓reduceIte]
      split
      · exact twin_hidden hff hroot hhid (.pure rfl)
      · exact .pure rfl
    · rw [entryIn_of_slice (he.kept i hi e hlt hhid)]
      dsimp only
      split
      · refine .bind (twin_inodeHiddenFrom_kept hff hd he _) fun _ _ hsame => ?_
        subst hsame
        split <;> exact .pure rfl
      · exact .pure rfl
  · subst hr
    cases r with
    | inl _ => exact .pure rfl
    | inr x => exact x.elim

end

end

end Owfs

/-! ## USFS の項目の表 -/

namespace Usfs

/-- ディスクだけを替えたボリューム。 -/
def Vol.withDisk (v : Vol) (disk : Disk) : Vol := { v with dev := v.dev.withDisk disk }

/-- スロット `idx` に正しく読める生きた項目があり、隠されていて、`who` の物でもない。 -/
def HiddenEntry (who : OwIdentity) (v : Vol) (idx : UInt32) : Prop :=
  ∃ e, (entryRead idx v).1 = .ok e ∧ e.Live ∧ entryIsHidden e = true ∧ who.uid ≠ e.ownerUid.toUInt32

/-- `disk` は、表から `who` に隠された項目だけを消したディスクである。消し方は問わない。 -/
structure Erased (who : OwIdentity) (v : Vol) (disk : Disk) : Prop where
  erased : ∀ idx : UInt32, idx.toNat < v.sb.totalEntries.toNat → HiddenEntry who v idx →
    ¬ (entryAt disk v.sb idx).Live
  kept : ∀ idx : UInt32, idx.toNat < v.sb.totalEntries.toNat → ¬ HiddenEntry who v idx →
    entryAt disk v.sb idx = entryAt v.dev.disk v.sb idx

/-- 二つのボリュームから、時計だけが動いた状態の組。 -/
def Beside (v w s t : Vol) : Prop := Still v s ∧ Still w t

section

variable {v : Vol} {who : OwIdentity} {disk : Disk}

theorem twin_readBlk (hff : v.dev.FaultFree) (b : UInt32) :
    Twin (Beside v (v.withDisk disk)) (fun blk blk' => blk = v.dev.disk b ∧ blk' = disk b) (readBlk b) (readBlk b) := by
  refine (twin_htlReadBlock hff b).within ?_ ?_
  · rintro _ _ ⟨⟨c, rfl⟩, ⟨c', rfl⟩⟩
    exact ⟨c, c', rfl, rfl⟩
  · rintro _ _ _ _ ⟨⟨_, rfl⟩, ⟨_, rfl⟩⟩ ⟨c, c', rfl, rfl⟩
    exact ⟨⟨c, rfl⟩, ⟨c', rfl⟩⟩

/-- 記録の同じスロットの読み取り。 -/
theorem twin_entryRead (hff : v.dev.FaultFree) {idx : UInt32}
    (hsame : idx.toNat < v.sb.totalEntries.toNat → entryAt disk v.sb idx = entryAt v.dev.disk v.sb idx) :
    Twin (Beside v (v.withDisk disk)) Eq (entryRead idx) (entryRead idx) := by
  unfold entryRead
  refine .bind .get fun s t hs => ?_
  obtain ⟨⟨c, rfl⟩, ⟨c', rfl⟩⟩ := hs
  refine .failIf Iff.rfl fun hin => .bind (twin_readBlk hff _) fun blk blk' hblk => ?_
  have hin : idx.toNat < v.sb.totalEntries.toNat := by
    rw [ge_iff_le, UInt32.not_le] at hin
    exact UInt32.lt_iff_toNat_lt.mp hin
  have hentry : entryIn blk' idx = entryIn blk idx := by
    rw [hblk.1, hblk.2]
    exact hsame hin
  rw [hentry]
  exact .failIf Iff.rfl fun _ => .pure rfl

/-- 探索が項目 `e` を `who` から隠す。 -/
def entryHiddenFrom (who : OwIdentity) (e : Entry) : Bool :=
  entryIsHidden e && ! owSecIsSuperuser who && who.uid != e.ownerUid.toUInt32

/-- 探索が項目 `e` で止まる。 -/
def answers (who : OwIdentity) (parentIdx : UInt32) (x : List UInt8) (e : Entry) : Bool :=
  e.entryType != 0 && e.entryType &&& entryDeleted == 0 && e.parentEntry == parentIdx &&
    ! entryHiddenFrom who e && owSutf8NameCmp e.nameField x == 0

/-- 探索の繰り返しの一回。 -/
def lookupStep (who : OwIdentity) (parentIdx : UInt32) (x : List UInt8) (idx : UInt32) : UsfsM (Unit ⊕ UInt32) := do
  match ← Prog.attempt (ε := UsfsErr) (entryRead idx) with
  | .error _ => pure (.inl ())
  | .ok temp => if answers who parentIdx x temp then pure (.inr idx) else pure (.inl ())

theorem entryLookup_steps (who : OwIdentity) (parentIdx : UInt32) (name : Option (List UInt8)) (nameLen : Nat) :
    entryLookup who parentIdx name nameLen = (do
      Prog.failIf (name.isNone ∨ nameLen = 0) .invalidParam
      Prog.failIf (nameLen ≥ nameMaxBytes) .nameTooLong
      let v ← Prog.get
      let r ← Prog.loop v.sb.totalEntries.toNat () fun i _ =>
        lookupStep who parentIdx (nameBytes name nameLen) (UInt32.ofNat i)
      match r with
      | .inr i => pure i
      | .inl _ => Prog.throw .notFound) := rfl

theorem live_of_answers {parentIdx : UInt32} {x : List UInt8} {e : Entry} (h : answers who parentIdx x e = true) :
    e.Live := by
  unfold answers at h
  simp only [Bool.and_eq_true, bne_iff_ne, beq_iff_eq] at h
  exact ⟨h.1.1.1.1, h.1.1.1.2⟩

theorem answers_of_hidden {parentIdx : UInt32} {x : List UInt8} {e : Entry} (hroot : owSecIsSuperuser who = false)
    (hhid : entryIsHidden e = true) (howner : who.uid ≠ e.ownerUid.toUInt32) : answers who parentIdx x e = false := by
  unfold answers entryHiddenFrom
  rw [hhid, hroot, bne_iff_ne.mpr howner]
  simp

/-- 読めた記録は、表のそのスロットにある。 -/
theorem entryRead_value {u : Vol} {c : Nat} (idx : UInt32) :
    wp (entryRead idx)
      (fun e s => idx.toNat < u.sb.totalEntries.toNat ∧ e = entryAt u.dev.disk u.sb idx ∧ Still u s)
      (fun _ s => Still u s) (u.atClock c) := by
  unfold entryRead
  simp only [wp_bind, wp_get, wp_failIf]
  refine ⟨fun _ => ⟨c, rfl⟩, fun h => ?_⟩
  have hi : idx.toNat < u.sb.totalEntries.toNat := by
    rw [ge_iff_le, UInt32.not_le] at h
    exact UInt32.lt_iff_toNat_lt.mp h
  exact wp_readBlk (fun c' _ => ⟨fun _ => ⟨c', rfl⟩, fun _ => ⟨hi, rfl, c', rfl⟩⟩) (fun c' _ => ⟨c', rfl⟩)

theorem wp_lookupStep {u : Vol} {parentIdx : UInt32} {x : List UInt8} {idx : UInt32} {c : Nat}
    (h : wp (entryRead idx) (fun e s => answers who parentIdx x e = false ∧ Still u s) (fun _ s => Still u s)
    (u.atClock c)) :
    wp (lookupStep who parentIdx x idx) (fun r s => r = .inl () ∧ Still u s) (fun _ _ => False) (u.atClock c) := by
  unfold lookupStep
  rw [wp_bind, wp_attempt]
  refine h.mono ?_ (fun _ _ hs => ⟨rfl, hs⟩)
  rintro e s ⟨hno, hs⟩
  dsimp only
  rw [hno]
  exact ⟨rfl, hs⟩

theorem twin_lookupStep (hff : v.dev.FaultFree) (hroot : owSecIsSuperuser who = false) (he : Erased who v disk)
    (parentIdx : UInt32) (x : List UInt8) {idx : UInt32} :
    Twin (Beside v (v.withDisk disk)) Eq (lookupStep who parentIdx x idx) (lookupStep who parentIdx x idx) := by
  by_cases hhid : HiddenEntry who v idx
  · rintro _ _ ⟨⟨c, rfl⟩, ⟨c', rfl⟩⟩
    obtain ⟨e, hread, _, hmask, howner⟩ := id hhid
    have hself : Twin (Beside v (v.withDisk v.dev.disk)) Eq (entryRead idx) (entryRead idx) :=
      twin_entryRead hff fun _ => rfl
    obtain ⟨hsame, hstill, _⟩ := hself (v.atClock c) v ⟨⟨c, rfl⟩, refl_of Still v⟩
    have hrun := run_eq (hsame.eq.trans hread)
    have hl : wp (lookupStep who parentIdx x idx) (fun r s => r = .inl () ∧ Still v s) (fun _ _ => False)
      (v.atClock c) :=
      wp_lookupStep (wp_of_run hrun ⟨answers_of_hidden hroot hmask howner, hstill⟩)
    have hr : wp (lookupStep who parentIdx x idx) (fun r t => r = .inl () ∧ Still (v.withDisk disk) t)
        (fun _ _ => False) ((v.withDisk disk).atClock c') := by
      refine wp_lookupStep ((entryRead_value idx).mono (fun e t h => ?_) fun _ _ h => h)
      obtain ⟨hin, rfl, hstill⟩ := h
      exact ⟨Bool.eq_false_iff.mpr fun hyes => he.erased idx hin hhid (live_of_answers hyes), hstill⟩
    obtain ⟨r, s, hp, rfl, hs⟩ := hl.exists_ok
    obtain ⟨r', t, hq, rfl, ht⟩ := hr.exists_ok
    rw [hp, hq]
    exact ⟨.ok rfl, hs, ht⟩
  · unfold lookupStep
    refine .bind (twin_entryRead hff fun hin => he.kept idx hin hhid).attempt fun r r' hr => ?_
    rw [hr.eq]
    cases r' with
    | error e => exact .pure rfl
    | ok e =>
        dsimp only
        split <;> exact .pure rfl

theorem twin_entryLookup (hff : v.dev.FaultFree) (hroot : owSecIsSuperuser who = false) (he : Erased who v disk)
    (parentIdx : UInt32) (name : Option (List UInt8)) (nameLen : Nat) :
    Twin (Beside v (v.withDisk disk)) Eq (entryLookup who parentIdx name nameLen)
      (entryLookup who parentIdx name nameLen) := by
  rw [entryLookup_steps]
  refine .failIf Iff.rfl fun _ => .failIf Iff.rfl fun _ => .bind .get fun s t hs => ?_
  obtain ⟨⟨c, rfl⟩, ⟨c', rfl⟩⟩ := hs
  refine .bind (.loop fun _ _ _ => ?_) fun r r' hr => ?_
  · exact twin_lookupStep hff hroot he parentIdx (nameBytes name nameLen)
  · subst hr
    cases r with
    | inl _ => exact .throw _
    | inr m => exact .pure rfl

end

end Usfs

/-! ## 見えなさ -/

/-- 隠された項目を消しても、持ち主でも特権でもない主体の探索と一覧は、返すものが変わらない。 -/
theorem hidden_unobservable (who : OwIdentity) (hroot : owSecIsSuperuser who = false) :
    (∀ (v : Owfs.Vol) (n : UInt32) (disk : Disk), v.dev.FaultFree → Owfs.Detached v n → Owfs.Erased who v n disk →
      (∀ name nameLen, (Owfs.catalogLookup who n name nameLen (v.withDisk disk)).1 =
        (Owfs.catalogLookup who n name nameLen v).1) ∧
      ∀ maxEntries, (Owfs.catalogList who n maxEntries (v.withDisk disk)).1 = (Owfs.catalogList who n maxEntries v).1) ∧
    ∀ (v : Usfs.Vol) (disk : Disk), v.dev.FaultFree → Usfs.Erased who v disk →
      ∀ parentIdx name nameLen, (Usfs.entryLookup who parentIdx name nameLen (v.withDisk disk)).1 =
        (Usfs.entryLookup who parentIdx name nameLen v).1 := by
  refine ⟨fun v n disk hff hd he => ⟨fun name nameLen => ?_, fun maxEntries => ?_⟩,
    fun v disk hff he parentIdx name nameLen => ?_⟩
  · have htwin := Owfs.twin_catalogLookup hff hroot hd he name nameLen
    exact (htwin.result ⟨refl_of Owfs.Still v, refl_of Owfs.Still (v.withDisk disk)⟩).symm
  · have htwin := Owfs.twin_catalogList hff hroot hd he maxEntries
    exact (htwin.result ⟨refl_of Owfs.Still v, refl_of Owfs.Still (v.withDisk disk)⟩).symm
  · have htwin := Usfs.twin_entryLookup hff hroot he parentIdx name nameLen
    exact (htwin.result ⟨refl_of Usfs.Still v, refl_of Usfs.Still (v.withDisk disk)⟩).symm

/-! ## 隠された物の例 -/

namespace Owfs

/-- 主体 7 の隠されたカタログ。自分自身を指す項目を持つ。 -/
def veiledInode : Inode := Inode.sealed { Inode.zero with
  entryType := entryCatalog
  permissions := 0x1FF
  blockCount := 1
  directBlocks := Vector.replicate 10 2
  ownerUid := 7
  securityFlags := 4 }

/-- 項目のないディスク。 -/
def bareDisk : Disk := fun b =>
  if b = 1 then (Bytes.zero 4096).patch ((inodeEntryIndex 0).toNat * 256) (Inode.codec.enc veiledInode)
  else Bytes.zero 4096

def veiledEntry : CatalogEntry := freshEntry 0 entryFile (some [0x61]) 1

def veiledVolume : Vol :=
  ⟨(Usfs.zeroDevice 0).withDisk (Function.update bareDisk 2 (putEntry (Bytes.zero 4096) 0 veiledEntry)),
    { Superblock.zero with totalInodes := 1, inodeTableStart := 1 }⟩

theorem disk_veiled :
    veiledVolume.dev.disk = Function.update bareDisk 2 (putEntry (Bytes.zero 4096) 0 veiledEntry) := rfl

theorem inodeAt_veiled : inodeAt veiledVolume.dev.disk veiledVolume.sb 0 = veiledInode := inodeIn_patch_same _ 0 _

theorem read_veiled : (inodeRead 0 veiledVolume).1 = .ok veiledInode := by
  have hwp : wp (inodeRead 0) (fun ino _ => ino = veiledInode) (fun _ _ => False) veiledVolume := by
    unfold inodeRead inodeLoad
    simp only [wp_bind, wp_get, wp_failIf]
    refine ⟨fun h => absurd h (by decide), fun _ => wp_readBlk (fun c _ => ?_) (fun c hno => hno ⟨fun _ => rfl, ?_⟩)⟩
    · rw [wp_pure, wp_pure, show inodeIn (veiledVolume.dev.disk (inodeBlockOffset veiledVolume.sb 0)) 0 =
        veiledInode from
        inodeAt_veiled]
      have hsum : inodeVerifyChecksum veiledInode = true := verify_sealed _
      exact ⟨fun hbad => absurd hbad.2 (by rw [hsum]; decide), fun _ => rfl⟩
    · exact (Usfs.writes_zeroDevice (.inl rfl)).toReads
  obtain ⟨ino, v', hrun, rfl⟩ := hwp.exists_ok
  rw [hrun]

theorem hidden_veiled : HiddenEntry ⟨5, 5⟩ veiledVolume veiledEntry :=
  ⟨by decide, veiledInode, read_veiled, rfl, by decide⟩

theorem count_veiled : (inodeAt veiledVolume.dev.disk veiledVolume.sb 0).blockCount.toNat = 1 := by
  rw [inodeAt_veiled]
  rfl

theorem mapBlock_veiled : mapBlock veiledVolume.dev.disk (inodeAt veiledVolume.dev.disk veiledVolume.sb 0) 0 = 2 := by
  rw [inodeAt_veiled]
  rfl

theorem detached_veiled : Detached veiledVolume 0 := by
  refine ⟨fun i hi m hm => ?_, fun i _ hbig => ?_⟩
  · rw [count_veiled] at hi
    obtain rfl : i = 0 := by omega
    obtain rfl : m = 0 := UInt32.toNat_inj.mp (Nat.lt_one_iff.mp hm)
    rw [mapBlock_veiled]
    decide
  · rw [count_veiled] at hbig
    omega

theorem erased_veiled : Erased ⟨5, 5⟩ veiledVolume 0 bareDisk := by
  have hblock : blockOf veiledVolume 0 0 = putEntry (Bytes.zero 4096) 0 veiledEntry := by
    unfold blockOf
    rw [mapBlock_veiled, disk_veiled, Function.update_self]
  refine ⟨fun b hb => ?_, fun i hi e he hhid => ?_, fun i hi e he hno => ?_⟩
  · have hne : b ≠ 2 := by
      have h0 := hb 0 (by rw [count_veiled]; decide)
      rwa [mapBlock_veiled] at h0
    rw [disk_veiled, Function.update_of_ne hne]
  · rw [count_veiled] at hi
    obtain rfl : i = 0 := by omega
    rw [mapBlock_veiled]
    exact Bool.eq_false_iff.mpr fun hlive => by
      have hvacant : slotIn (bareDisk 2) e = none := slotIn_zero he
      rw [slotIn_of_live hlive] at hvacant
      cases hvacant
  · rw [count_veiled] at hi
    obtain rfl : i = 0 := by omega
    rw [hblock] at hno ⊢
    rw [mapBlock_veiled]
    by_cases h0 : e = 0
    · subst h0
      rw [entryIn_putEntry_same (by decide)] at hno
      exact absurd hidden_veiled hno
    · change (Bytes.zero 4096).slice (e * 256) 256 = _
      unfold putEntry
      rw [Bytes.slice_patch_disjoint (by rw [length_enc_entry]; omega)]

end Owfs

namespace Usfs

/-- 主体 7 の隠された項目。 -/
def veiledEntry : Entry := Entry.sealed { Entry.zero with
  entryType := entryFile
  securityFlags := 4
  ownerUid := 7 }

def veiledTable : Vol :=
  ⟨(zeroDevice 0).withDisk (Function.update (fun _ => Bytes.zero 4096) 1
      ((Bytes.zero 4096).patch ((entrySlotIndex 0).toNat * 256) (Entry.codec.enc veiledEntry))),
    { Superblock.zero with totalEntries := 1, entryTableStart := 1 }⟩

theorem hidden_veiledTable : HiddenEntry ⟨5, 5⟩ veiledTable 0 := by
  have hat : entryAt veiledTable.dev.disk veiledTable.sb 0 = veiledEntry := entryIn_patch_same _ 0 _
  have hwp : wp (entryRead 0) (fun e _ => e = veiledEntry) (fun _ _ => False) veiledTable := by
    unfold entryRead
    simp only [wp_bind, wp_get, wp_failIf]
    refine ⟨fun h => absurd h (by decide), fun _ => wp_readBlk (fun c _ => ?_) (fun c hno => hno ⟨fun _ => rfl, ?_⟩)⟩
    · rw [wp_pure, show entryIn (veiledTable.dev.disk (entryBlockOffset veiledTable.sb 0)) 0 = veiledEntry from hat]
      have hsum : entryVerifyChecksum veiledEntry = true := verify_sealed _
      exact ⟨fun hbad => absurd hbad.2 (by rw [hsum]; decide), fun _ => rfl⟩
    · exact (writes_zeroDevice (.inl rfl)).toReads
  obtain ⟨e, v', hrun, rfl⟩ := hwp.exists_ok
  exact ⟨veiledEntry, by rw [hrun], ⟨by decide, by decide⟩, rfl, by decide⟩

theorem erased_veiledTable : Erased ⟨5, 5⟩ veiledTable fun _ => Bytes.zero 4096 := by
  refine ⟨fun idx _ _ hlive => ?_, fun idx hi hno => ?_⟩
  · unfold entryAt at hlive
    rw [entryIn_zero] at hlive
    exact hlive.1 rfl
  · obtain rfl : idx = 0 := UInt32.toNat_inj.mp (Nat.lt_one_iff.mp hi)
    exact absurd hidden_veiledTable hno

end Usfs

theorem hidden_unobservable_when_veiled :
    (Owfs.catalogLookup ⟨5, 5⟩ 0 (some [0x61]) 1 (Owfs.veiledVolume.withDisk Owfs.bareDisk)).1 =
      (Owfs.catalogLookup ⟨5, 5⟩ 0 (some [0x61]) 1 Owfs.veiledVolume).1 ∧
    (Owfs.catalogList ⟨5, 5⟩ 0 8 (Owfs.veiledVolume.withDisk Owfs.bareDisk)).1 =
      (Owfs.catalogList ⟨5, 5⟩ 0 8 Owfs.veiledVolume).1 ∧
    (Usfs.entryLookup ⟨5, 5⟩ 0 (some [0x61]) 1 (Usfs.veiledTable.withDisk fun _ => Bytes.zero 4096)).1 =
      (Usfs.entryLookup ⟨5, 5⟩ 0 (some [0x61]) 1 Usfs.veiledTable).1 := by
  obtain ⟨howfs, husfs⟩ := hidden_unobservable ⟨5, 5⟩ (by decide)
  obtain ⟨hlookup, hlist⟩ := howfs Owfs.veiledVolume 0 Owfs.bareDisk (fun _ => rfl) Owfs.detached_veiled
    Owfs.erased_veiled
  exact ⟨hlookup _ _, hlist 8, husfs Usfs.veiledTable _ (fun _ => rfl) Usfs.erased_veiledTable 0 _ _⟩

end OwStorage
