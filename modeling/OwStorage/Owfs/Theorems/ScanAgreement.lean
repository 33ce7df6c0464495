import OwStorage.Common.Lemmas.String
import OwStorage.Owfs.Lemmas.Steady
import OwStorage.Owfs.Lemmas.Format

/-!
# 探索と抹消の食い違い

探索は、検査値の合わない項目と隠された項目を読み飛ばす。抹消は、名前の合う最初の項目だけを見て、検査値を確かめない。
-/

namespace OwStorage.Owfs

open Lib Prog

/-! ## 走査の見る枠 -/

/-- カタログの第 `k` ブロックの、番号と中身。 -/
def catalogChunk (v : Vol) (ino : Inode) (k : Nat) : Except OwfsErr (UInt32 × Block) :=
  ((do
    let bnum ← blockmapGet ino (UInt32.ofNat k)
    let blk ← readBlk bnum
    pure (bnum, blk) : OwfsM (UInt32 × Block)) v).1

/-- 主体から隠された inode。 -/
def Concealed (who : OwIdentity) (v : Vol) (n : UInt32) : Prop := (inodeHiddenFrom who n v).1 = .ok true

/-- 走査の第 `j` の枠は、ブロック `b` の中身 `blk` の `j % 16` 番目である。 -/
structure Scans (v : Vol) (ino : Inode) (j : Nat) (b : UInt32) (blk : Block) : Prop where
  inside : j < ino.blockCount.toNat * 16
  chunk : catalogChunk v ino (j / 16) = .ok (b, blk)
  reached : ∀ k < j / 16, ∃ p, catalogChunk v ino k = .ok p

/-- 生きていて、名前の合う枠。 -/
structure Named (v : Vol) (ino : Inode) (x : List UInt8) (j : Nat) (b : UInt32) (blk : Block) : Prop
    extends Scans v ino j b blk where
  live : entryLive (entryIn blk (j % 16)) = true
  name : owSutf8NameCmp (entryName blk (j % 16)) x = 0

/-- そのうち、検査値が合い、主体に見えるもの。 -/
structure Sighted (who : OwIdentity) (v : Vol) (ino : Inode) (x : List UInt8) (j : Nat) (b : UInt32)
    (blk : Block) : Prop
    extends Named v ino x j b blk where
  sum : catalogEntryVerifyChecksum (entryIn blk (j % 16)) = true
  visible : ¬ Concealed who v (entryIn blk (j % 16)).inodeNumber

/-- 第 `m` の枠より前に、`P` を満たす枠はない。 -/
def NoneBelow (P : Nat → UInt32 → Block → Prop) (m : Nat) : Prop := ∀ j < m, ∀ b blk, ¬ P j b blk

/-- `P` を満たす最初の枠。 -/
def Foremost (P : Nat → UInt32 → Block → Prop) (j : Nat) (b : UInt32) (blk : Block) : Prop := P j b blk ∧ NoneBelow P j

/-- 枠の項目に、消した印の付いたディスク。 -/
def markedDisk (v : Vol) (j : Nat) (b : UInt32) (blk : Block) : Disk :=
  Function.update v.dev.disk b (putEntry blk (j % 16) (deletedEntry (entryIn blk (j % 16))))

section

variable {v : Vol} {who : OwIdentity} {ino : Inode} {n : UInt32} {x : List UInt8} {j k c : Nat}
  {b : UInt32} {blk : Block}
  {α : Type} {E : OwfsErr → Vol → Prop} {P : Nat → UInt32 → Block → Prop}

theorem NoneBelow.succ (h : NoneBelow P j) (hno : ∀ b blk, ¬ P j b blk) : NoneBelow P (j + 1) := by
  intro i hi b blk hP
  rcases Nat.lt_succ_iff_lt_or_eq.mp hi with hlt | rfl
  · exact h i hlt b blk hP
  · exact hno b blk hP

theorem wp_concealed {Q : Bool → Vol → Prop} (hff : v.dev.FaultFree)
    (h : ∀ hidden c', (hidden = true ↔ Concealed who v n) → Q hidden (v.atClock c')) :
    wp (inodeHiddenFrom who n) Q E (v.atClock c) := by
  refine (Steady.inodeHiddenFrom hff who n).wp (fun hidden hr c' => h hidden c' ?_) (fun e hr _ => ?_)
  · unfold Concealed
    rw [hr]
    simp
  · have hok : wp (inodeHiddenFrom who n) (fun _ _ => True) (fun _ _ => False) v := by
      unfold inodeHiddenFrom
      rw [wp_bind, wp_attempt]
      exact wp_trivial.mono (fun _ _ _ => trivial) (fun _ _ _ => trivial)
    exact (hok.error (run_eq hr)).elim

theorem wp_catalogChunk {q : UInt32 → Block → OwfsM α} {Q : α → Vol → Prop} (hff : v.dev.FaultFree)
    (hok : ∀ b blk, catalogChunk v ino k = .ok (b, blk) → ∀ c', wp (q b blk) Q E (v.atClock c'))
    (herr : ∀ e, catalogChunk v ino k = .error e → ∀ c', E e (v.atClock c')) :
    wp (do
      let bnum ← blockmapGet ino (UInt32.ofNat k)
      let blk ← readBlk bnum
      q bnum blk) Q E (v.atClock c) := by
  have hsteady : Steady v (do
      let bnum ← blockmapGet ino (UInt32.ofNat k)
      let blk ← readBlk bnum
      pure (bnum, blk) : OwfsM (UInt32 × Block)) :=
    .bind (.blockmapGet hff _ _) fun _ => .bind (.readBlk hff _) fun _ => .pure _
  have hspec := hsteady.wp (c := c) (Q := fun p v' => wp (q p.1 p.2) Q E v') (E := E)
    (fun p hp c' => hok p.1 p.2 hp c') (fun e he c' => herr e he c')
  simpa only [wp_bind, wp_pure] using hspec

/-- 読めたブロックは、装置に届く。 -/
theorem catalogChunk_reads (h : catalogChunk v ino k = .ok (b, blk)) : v.dev.Reads b ∧ blk = v.dev.disk b := by
  have hspec : wp (do
      let bnum ← blockmapGet ino (UInt32.ofNat k)
      let blk ← readBlk bnum
      pure (bnum, blk) : OwfsM (UInt32 × Block))
      (fun p _ => v.dev.Reads p.1 ∧ p.2 = v.dev.disk p.1) (fun _ _ => True) v := by
    rw [wp_bind]
    refine (still_blockmapGet ino (UInt32.ofNat k) v).mono ?_ (fun _ _ _ => trivial)
    rintro bnum _ ⟨c, rfl⟩
    rw [wp_bind]
    exact wp_readBlk (fun _ hr => ⟨hr, rfl⟩) (fun _ _ => trivial)
  exact hspec.ok (run_eq h)

/-- 読めないブロックより後の枠は、走査に現れない。 -/
theorem Scans.before_error {e : OwfsErr} (h : Scans v ino j b blk) (herr : catalogChunk v ino k = .error e) :
    j < k * 16 := by
  by_contra hge
  have hk : k ≤ j / 16 := by omega
  rcases Nat.lt_or_eq_of_le hk with hlt | rfl
  · obtain ⟨p, hp⟩ := h.reached k hlt
    rw [hp] at herr
    cases herr
  · rw [h.chunk] at herr
    cases herr

theorem Scans.chunk_eq {e : Nat} {b' : UInt32} {blk' : Block} (h : Scans v ino (k * 16 + e) b blk) (he : e < 16)
    (hk : catalogChunk v ino k = .ok (b', blk')) : b = b' ∧ blk = blk' := by
  have hc := h.chunk
  rw [show (k * 16 + e) / 16 = k by omega, hk] at hc
  injection hc with hc
  injection hc with h₁ h₂
  exact ⟨h₁.symm, h₂.symm⟩

end

/-! ## 探索と抹消の結果 -/

section

variable {v : Vol} {who : OwIdentity} {ino : Inode} {n : UInt32} {name : Option (List UInt8)} {nameLen : Nat}

/-- 走査が第 `k` ブロックに届き、そこより前に `P` を満たす枠はない。 -/
structure Arrived (v : Vol) (ino : Inode) (P : Nat → UInt32 → Block → Prop) (k : Nat) : Prop where
  clear : NoneBelow P (k * 16)
  reached : ∀ i < k, ∃ p, catalogChunk v ino i = .ok p

theorem Arrived.zero {P : Nat → UInt32 → Block → Prop} : Arrived v ino P 0 := by
  constructor
  · intro j hj
    omega
  · intro i hi
    omega

theorem Arrived.next {P : Nat → UInt32 → Block → Prop} {k : Nat} {p : UInt32 × Block} (h : Arrived v ino P k)
    (hchunk : catalogChunk v ino k = .ok p) (hclear : NoneBelow P (k * 16 + 16)) : Arrived v ino P (k + 1) := by
  constructor
  · rw [Nat.succ_mul]
    exact hclear
  · intro i hi
    rcases Nat.lt_succ_iff_lt_or_eq.mp hi with hlt | rfl
    · exact h.reached i hlt
    · exact ⟨p, hchunk⟩

theorem Arrived.scans {P : Nat → UInt32 → Block → Prop} {k e : Nat} {b : UInt32} {blk : Block} (h : Arrived v ino P k)
    (hchunk : catalogChunk v ino k = .ok (b, blk)) (hk : k < ino.blockCount.toNat) (he : e < 16) :
    Scans v ino (k * 16 + e) b blk := by
  have hdiv : (k * 16 + e) / 16 = k := by omega
  exact ⟨by omega, by rw [hdiv]; exact hchunk, by rw [hdiv]; exact h.reached⟩

/-- 探索の、一ブロック分の走査。 -/
theorem wp_lookupBlock {k c : Nat} {b : UInt32} {blk : Block} {x : List UInt8} (hff : v.dev.FaultFree)
    (h : Arrived v ino (Sighted who v ino x) k) (hchunk : catalogChunk v ino k = .ok (b, blk))
    (hk : k < ino.blockCount.toNat) :
    wp (Prog.loop 16 () fun e _ => do
      let centry := entryIn blk e
      if entryLive centry && catalogEntryVerifyChecksum centry && owSutf8NameCmp (entryName blk e) x == 0 then do
        let hidden ← inodeHiddenFrom who centry.inodeNumber
        if hidden then pure (.inl ()) else pure (.inr centry.inodeNumber)
      else pure (.inl ()) : OwfsM (Unit ⊕ UInt32))
      (fun r v' => Still v v' ∧ (∀ u, r = .inl u → NoneBelow (Sighted who v ino x) (k * 16 + 16)) ∧
        ∀ i, r = .inr i → ∃ j b blk, Foremost (Sighted who v ino x) j b blk ∧ i = (entryIn blk (j % 16)).inodeNumber)
      (fun _ _ => False) (v.atClock c) := by
  refine wp_loop (fun e _ v' => Still v v' ∧ NoneBelow (Sighted who v ino x) (k * 16 + e)) ⟨⟨c, rfl⟩, h.clear⟩ ?_ ?_
  · rintro e _ _ he ⟨⟨c, rfl⟩, hclear⟩
    have hmod : (k * 16 + e) % 16 = e := by omega
    -- 枠が条件を満たさなければ、次の枠へ進む。
    have hskip : (∀ b' blk', ¬ Sighted who v ino x (k * 16 + e) b' blk') → ∀ c', Still v (v.atClock c') ∧
        NoneBelow (Sighted who v ino x) (k * 16 + (e + 1)) := fun hno c' => ⟨⟨c', rfl⟩, hclear.succ hno⟩
    simp only [wp_ite, Bool.and_eq_true, beq_iff_eq, wp_pure]
    refine ⟨fun hcond => ?_, fun hcond => hskip (fun b' blk' hs => hcond ?_) c⟩
    · rw [wp_bind]
      refine wp_concealed hff fun hidden c' hiff => ?_
      cases hidden with
      | true =>
          refine hskip (fun b' blk' hs => ?_) c'
          obtain ⟨rfl, rfl⟩ := hs.chunk_eq he hchunk
          have hvis := hs.visible
          rw [hmod] at hvis
          exact hvis (hiff.mp rfl)
      | false =>
          refine ⟨⟨c', rfl⟩, ?_, ?_⟩
          · intro u hr
            cases hr
          intro i hi
          have hsight : Sighted who v ino x (k * 16 + e) b blk := by
            refine ⟨⟨h.scans hchunk hk he, ?_, ?_⟩, ?_, ?_⟩ <;> rw [hmod]
            · exact hcond.1.1
            · exact hcond.2
            · exact hcond.1.2
            · exact fun hc => Bool.false_ne_true (hiff.mpr hc)
          refine ⟨k * 16 + e, b, blk, ⟨hsight, hclear⟩, ?_⟩
          rw [hmod]
          exact (Sum.inr.inj hi).symm
    · obtain ⟨rfl, rfl⟩ := hs.chunk_eq he hchunk
      have hlive := hs.live
      have hsum := hs.sum
      have hname := hs.name
      rw [hmod] at hlive hsum hname
      exact ⟨⟨hlive, hsum⟩, hname⟩
  · rintro _ _ ⟨hstill, hclear⟩
    exact ⟨hstill, fun _ _ => hclear, fun _ hr => by cases hr⟩

theorem catalogLookup_scans (hff : v.dev.FaultFree) (hcat : (catalogRead n v).1 = .ok ino)
    (hread : inodeAccessCheck who ino accessRead = .ok ()) :
    wp (catalogLookup who n name nameLen)
      (fun i _ => Proper name nameLen ∧ ∃ j b blk, Foremost (Sighted who v ino (nameBytes name nameLen)) j b blk ∧
        i = (entryIn blk (j % 16)).inodeNumber)
      (fun _ _ => Proper name nameLen → ∀ j b blk, ¬ Sighted who v ino (nameBytes name nameLen) j b blk) v := by
  unfold catalogLookup
  simp only [wp_bind, wp_failIf]
  refine ⟨fun h hp => absurd h hp.not_refused, fun h₁ => ⟨fun h hp => absurd hp.short (Nat.not_lt.mpr h), fun h₂ => ?_⟩⟩
  have hproper := Proper.of_guards h₁ h₂
  refine (Steady.catalogRead hff n).wp (c := v.dev.clock) (fun a ha c => ?_) (fun e he c => ?_)
  swap
  · rw [hcat] at he
    cases he
  rw [hcat] at ha
  cases ha
  rw [hread, wp_ofExcept]
  refine ⟨fun _ _ => ?_, fun e he => by cases he⟩
  refine wp_loop (fun k _ v' => Still v v' ∧ Arrived v ino (Sighted who v ino (nameBytes name nameLen)) k)
    ⟨⟨c, rfl⟩, .zero⟩ ?_ ?_
  · rintro k _ _ hk ⟨⟨c, rfl⟩, harr⟩
    refine wp_catalogChunk hff (fun b blk hchunk c₁ => ?_) (fun e herr c₁ _ j b blk hs =>
      harr.clear j (hs.before_error herr) b blk hs)
    refine (wp_lookupBlock hff harr hchunk hk).mono ?_ (fun _ _ hf => hf.elim)
    rintro r _ ⟨⟨c', rfl⟩, hgo, hhit⟩
    cases r with
    | inl u => exact ⟨⟨c', rfl⟩, harr.next hchunk (hgo u rfl)⟩
    | inr i => exact ⟨hproper, hhit i rfl⟩
  · rintro _ _ ⟨_, harr⟩ _ j b blk hs
    exact harr.clear j hs.inside b blk hs

theorem catalogRemove_scans (hff : v.dev.FaultFree) (hprot : v.dev.writeProtect = 0)
    (hw : volumeWritable v.sb = .ok ()) (hcat : (catalogRead n v).1 = .ok ino)
    (hwrite : inodeAccessCheck who ino accessWrite = .ok ()) :
    wp (catalogRemove who n name nameLen)
      (fun _ v' => Proper name nameLen ∧ ∃ j b blk, Foremost (Named v ino (nameBytes name nameLen)) j b blk ∧
        ¬ Concealed who v (entryIn blk (j % 16)).inodeNumber ∧ v'.dev.disk = markedDisk v j b blk)
      (fun _ _ => Proper name nameLen → (∀ j b blk, ¬ Named v ino (nameBytes name nameLen) j b blk) ∨
        ∃ j b blk, Foremost (Named v ino (nameBytes name nameLen)) j b blk ∧
          Concealed who v (entryIn blk (j % 16)).inodeNumber) v := by
  unfold catalogRemove
  simp only [wp_bind, wp_failIf]
  refine ⟨fun h hp => absurd h hp.not_refused, fun h₁ => ⟨fun h hp => absurd hp.short (Nat.not_lt.mpr h), fun h₂ => ?_⟩⟩
  have hproper := Proper.of_guards h₁ h₂
  rw [wp_get, hw, wp_ofExcept]
  refine ⟨fun _ _ => ?_, fun e he => by cases he⟩
  refine (Steady.catalogRead hff n).wp (c := v.dev.clock) (fun a ha c => ?_) (fun e he c => ?_)
  swap
  · rw [hcat] at he
    cases he
  rw [hcat] at ha
  cases ha
  rw [hwrite, wp_ofExcept]
  refine ⟨fun _ _ => ?_, fun e he => by cases he⟩
  refine wp_loop (fun k _ v' => Still v v' ∧ Arrived v ino (Named v ino (nameBytes name nameLen)) k)
    ⟨⟨c, rfl⟩, .zero⟩ ?_ ?_
  · rintro k _ _ hk ⟨⟨c, rfl⟩, harr⟩
    refine wp_catalogChunk hff (fun b blk hchunk c₁ => ?_) (fun e herr c₁ _ => .inl fun j b blk hs =>
      harr.clear j (hs.before_error herr) b blk hs)
    -- 前の枠が合わなければ、ここまでに合う枠はない。
    have hclear : ∀ m ≤ 16, (∀ e < m, ¬ (entryLive (entryIn blk e) = true ∧
        owSutf8NameCmp (entryName blk e) (nameBytes name nameLen) = 0)) →
        NoneBelow (Named v ino (nameBytes name nameLen)) (k * 16 + m) := by
      intro m hm hno j hj b' blk' hs
      by_cases hlt : j < k * 16
      · exact harr.clear j hlt b' blk' hs
      · obtain ⟨e, rfl⟩ := Nat.exists_eq_add_of_le (Nat.not_lt.mp hlt)
        obtain ⟨rfl, rfl⟩ := hs.chunk_eq (by omega) hchunk
        have hlive := hs.live
        have hname := hs.name
        rw [show (k * 16 + e) % 16 = e by omega] at hlive hname
        exact hno e (by omega) ⟨hlive, hname⟩
    split
    · rename_i e hfind
      rw [List.find?_range_eq_some] at hfind
      simp only [Bool.and_eq_true, beq_iff_eq, List.mem_range, Bool.not_eq_true', Bool.eq_false_iff, ne_eq] at hfind
      obtain ⟨⟨hlive, hname⟩, he, hbefore⟩ := hfind
      have hmod : (k * 16 + e) % 16 = e := by omega
      have hnamed : Named v ino (nameBytes name nameLen) (k * 16 + e) b blk :=
        ⟨harr.scans hchunk hk he, by rw [hmod]; exact hlive, by rw [hmod]; exact hname⟩
      have hfore : Foremost (Named v ino (nameBytes name nameLen)) (k * 16 + e) b blk :=
        ⟨hnamed, hclear e (by omega) hbefore⟩
      rw [wp_bind]
      refine wp_concealed hff fun hidden c₂ hiff => ?_
      simp only [wp_bind, wp_failIf, wp_pure]
      refine ⟨fun hhid _ => .inr ⟨_, b, blk, hfore, ?_⟩, fun hvis => ?_⟩
      · rw [hmod]
        exact hiff.mp hhid
      · refine wp_writeBlk (fun c₃ _ => ⟨hproper, _, b, blk, hfore, ?_, ?_⟩) (fun _ _ _ hno => absurd ⟨hff, ?_⟩ hno)
        · rw [hmod]
          exact fun hc => hvis (hiff.mpr hc)
        · unfold markedDisk
          rw [hmod]
          rfl
        · exact ⟨(catalogChunk_reads hchunk).1, hprot⟩
    · rename_i hfind
      refine ⟨⟨c₁, rfl⟩, harr.next hchunk (hclear 16 le_rfl fun e he hhit => ?_)⟩
      have hno := List.find?_eq_none.mp hfind e (List.mem_range.mpr he)
      simp only [Bool.and_eq_true, beq_iff_eq] at hno
      exact hno hhit
  · rintro _ _ ⟨_, harr⟩ _
    exact .inl fun j b blk hs => harr.clear j hs.inside b blk hs

/-! ## 食い違わない条件 -/

/-- 抹消は、探索が値を返すとき、そしてそのときに限り成功し、探索の返した項目そのものに印を付ける。 -/
structure Agree (who : OwIdentity) (v : Vol) (n : UInt32) (ino : Inode) (name : Option (List UInt8)) (nameLen : Nat) :
    Prop where
  outcome : (catalogRemove who n name nameLen v).1 = .ok () ↔ ∃ i, (catalogLookup who n name nameLen v).1 = .ok i
  entry : ∀ v', catalogRemove who n name nameLen v = (.ok (), v') →
    ∃ j b blk, Foremost (Sighted who v ino (nameBytes name nameLen)) j b blk ∧
      (catalogLookup who n name nameLen v).1 = .ok (entryIn blk (j % 16)).inodeNumber ∧
      v'.dev.disk = markedDisk v j b blk

/-- 名前の合う最初の項目は、検査値が合って見えるか、隠されていて、後にも見える項目がない。 -/
def Congruous (who : OwIdentity) (v : Vol) (ino : Inode) (x : List UInt8) : Prop :=
  ∀ j b blk, Foremost (Named v ino x) j b blk →
    catalogEntryVerifyChecksum (entryIn blk (j % 16)) = true ∧ ¬ Concealed who v (entryIn blk (j % 16)).inodeNumber ∨
    Concealed who v (entryIn blk (j % 16)).inodeNumber ∧ ∀ j' b' blk', Named v ino x j' b' blk' →
      catalogEntryVerifyChecksum (entryIn blk' (j' % 16)) = true →
      Concealed who v (entryIn blk' (j' % 16)).inodeNumber

theorem Scans.unique {j : Nat} {b b' : UInt32} {blk blk' : Block} (h : Scans v ino j b blk)
    (h' : Scans v ino j b' blk') :
    b = b' ∧ blk = blk' := by
  have hc := h.chunk
  rw [h'.chunk] at hc
  injection hc with hc
  injection hc with h₁ h₂
  exact ⟨h₁.symm, h₂.symm⟩

/-- 最初の枠は一つである。 -/
theorem Foremost.unique {P : Nat → UInt32 → Block → Prop} (hP : ∀ j b blk, P j b blk → Scans v ino j b blk)
    {j j' : Nat} {b b' : UInt32} {blk blk' : Block} (h : Foremost P j b blk) (h' : Foremost P j' b' blk') :
    j = j' ∧ b = b' ∧ blk = blk' := by
  rcases Nat.lt_trichotomy j j' with hlt | rfl | hgt
  · exact absurd h.1 (h'.2 j hlt b blk)
  · exact ⟨rfl, (hP _ _ _ h.1).unique (hP _ _ _ h'.1)⟩
  · exact absurd h'.1 (h.2 j' hgt b' blk')

/-- 同じ枠に印を付けたのでなければ、ディスクは異なる。 -/
theorem markedDisk_inj {j j' : Nat} {b b' : UInt32} {blk blk' : Block} (h : Scans v ino j b blk)
    (h' : Scans v ino j' b' blk') (hlive : entryLive (entryIn blk (j % 16)) = true)
    (heq : markedDisk v j b blk = markedDisk v j' b' blk') : entryIn blk (j % 16) = entryIn blk' (j' % 16) := by
  have hblk := (catalogChunk_reads h.chunk).2
  have hblk' := (catalogChunk_reads h'.chunk).2
  have hmarked : entryIn (markedDisk v j b blk b) (j % 16) = deletedEntry (entryIn blk (j % 16)) := by
    unfold markedDisk
    rw [Function.update_self, entryIn_putEntry_same (Nat.mod_lt _ (by decide))]
  have hdead : entryLive (entryIn (markedDisk v j b blk b) (j % 16)) = false := by
    rw [hmarked]
    exact entryLive_deletedEntry _
  rw [heq] at hdead
  unfold markedDisk at hdead
  by_cases hb : b = b'
  · subst hb
    rw [Function.update_self] at hdead
    have hsame : blk = blk' := hblk.trans hblk'.symm
    subst hsame
    by_cases he : j % 16 = j' % 16
    · rw [he]
    · rw [entryIn_putEntry_other he, hlive] at hdead
      cases hdead
  · rw [Function.update_of_ne hb, ← hblk, hlive] at hdead
    cases hdead

theorem foremost_sighted {x : List UInt8} {j : Nat} {b : UInt32} {blk : Block} (h : Foremost (Named v ino x) j b blk)
    (hsum : catalogEntryVerifyChecksum (entryIn blk (j % 16)) = true)
    (hvis : ¬ Concealed who v (entryIn blk (j % 16)).inodeNumber) : Foremost (Sighted who v ino x) j b blk :=
  ⟨⟨h.1, hsum, hvis⟩, fun i hi b' blk' hs => h.2 i hi b' blk' hs.toNamed⟩

/-- 抹消と探索は、名前の合う最初の項目についての条件が成り立つとき、そしてそのときに限り一致する。 -/
theorem remove_agrees_iff (hff : v.dev.FaultFree) (hprot : v.dev.writeProtect = 0) (hw : volumeWritable v.sb = .ok ())
    (hcat : (catalogRead n v).1 = .ok ino) (hread : inodeAccessCheck who ino accessRead = .ok ())
    (hwrite : inodeAccessCheck who ino accessWrite = .ok ()) :
    Agree who v n ino name nameLen ↔ (Proper name nameLen → Congruous who v ino (nameBytes name nameLen)) := by
  have hlookup := @catalogLookup_scans v who ino n name nameLen hff hcat hread
  have hremove := @catalogRemove_scans v who ino n name nameLen hff hprot hw hcat hwrite
  have hN : ∀ j b blk, Named v ino (nameBytes name nameLen) j b blk → Scans v ino j b blk := fun _ _ _ h => h.toScans
  have hS : ∀ j b blk, Sighted who v ino (nameBytes name nameLen) j b blk → Scans v ino j b blk :=
    fun _ _ _ h => h.toScans
  constructor
  · intro hagree hp j b blk hfore
    cases hr : (catalogRemove who n name nameLen v).1 with
    | ok u =>
        obtain ⟨_, j₁, b₁, blk₁, hfore₁, hvis, hdisk⟩ := hremove.ok (run_eq hr)
        obtain ⟨rfl, rfl, rfl⟩ := hfore.unique hN hfore₁
        obtain ⟨j₂, b₂, blk₂, hfore₂, _, hdisk₂⟩ := hagree.entry _ (run_eq hr)
        have hsame := markedDisk_inj hfore.1.toScans hfore₂.1.toScans hfore.1.live (hdisk.symm.trans hdisk₂)
        refine .inl ⟨?_, hvis⟩
        rw [hsame]
        exact hfore₂.1.sum
    | error e =>
        rcases hremove.error (run_eq hr) hp with hnone | ⟨j₁, b₁, blk₁, hfore₁, hhid⟩
        · exact absurd hfore.1 (hnone j b blk)
        · obtain ⟨rfl, rfl, rfl⟩ := hfore.unique hN hfore₁
          refine .inr ⟨hhid, fun j' b' blk' hnamed hsum => ?_⟩
          by_contra hvis
          cases hl : (catalogLookup who n name nameLen v).1 with
          | ok i =>
              rw [hagree.outcome.mpr ⟨i, hl⟩] at hr
              cases hr
          | error e => exact hlookup.error (run_eq hl) hp j' b' blk' ⟨hnamed, hsum, hvis⟩
  · intro hcond
    have hentry : ∀ v', catalogRemove who n name nameLen v = (.ok (), v') →
        ∃ j b blk, Foremost (Sighted who v ino (nameBytes name nameLen)) j b blk ∧
          (catalogLookup who n name nameLen v).1 = .ok (entryIn blk (j % 16)).inodeNumber ∧
          v'.dev.disk = markedDisk v j b blk := by
      intro v' hrun
      obtain ⟨hp, j, b, blk, hfore, hvis, hdisk⟩ := hremove.ok hrun
      rcases hcond hp j b blk hfore with ⟨hsum, _⟩ | ⟨hhid, _⟩
      · have hsight := foremost_sighted hfore hsum hvis
        refine ⟨j, b, blk, hsight, ?_, hdisk⟩
        cases hl : (catalogLookup who n name nameLen v).1 with
        | ok i =>
            obtain ⟨_, j₁, b₁, blk₁, hfore₁, rfl⟩ := hlookup.ok (run_eq hl)
            obtain ⟨rfl, rfl, rfl⟩ := hsight.unique hS hfore₁
            rfl
        | error e => exact absurd hsight.1 (hlookup.error (run_eq hl) hp j b blk)
      · exact absurd hhid hvis
    refine ⟨⟨fun hr => ?_, fun hl => ?_⟩, hentry⟩
    · obtain ⟨j, b, blk, _, hl, _⟩ := hentry _ (run_eq hr)
      exact ⟨_, hl⟩
    · obtain ⟨i, hl⟩ := hl
      obtain ⟨hp, j, b, blk, hsight, _⟩ := hlookup.ok (run_eq hl)
      cases hr : (catalogRemove who n name nameLen v).1 with
      | ok u => rfl
      | error e =>
          exfalso
          rcases hremove.error (run_eq hr) hp with hnone | ⟨j₁, b₁, blk₁, hfore, hhid⟩
          · exact hnone j b blk hsight.1.toNamed
          · rcases hcond hp j₁ b₁ blk₁ hfore with ⟨_, hvis⟩ | ⟨_, hall⟩
            · exact hvis hhid
            · exact hsight.1.visible (hall j b blk hsight.1.toNamed hsight.1.sum)

end

/-! ## 検査値の合わない項目の例 -/

section

variable {v : Vol} {who : OwIdentity} {want : UInt8} {n : UInt32} {k : Nat}

theorem not_concealed_of_superuser (h : owSecIsSuperuser who = true) (n : UInt32) : ¬ Concealed who v n := by
  have hspec : wp (inodeHiddenFrom who n) (fun hidden _ => hidden = false) (fun _ _ => False) v := by
    unfold inodeHiddenFrom
    rw [wp_bind, wp_attempt]
    refine wp_trivial.mono (fun ino _ _ => ?_) (fun _ _ _ => rfl)
    rw [h]
    change (inodeIsHidden ino && ! true && _) = false
    rw [Bool.not_true, Bool.and_false, Bool.false_and]
  intro hc
  exact Bool.false_ne_true (hspec.ok (run_eq hc)).symm

theorem catalogRead_ok (hr : Ready v) (ho : Opens who want v n) :
    (catalogRead n v).1 = .ok (inodeAt v.dev.disk v.sb n) := by
  have hspec : wp (catalogRead n) (fun ino _ => ino = inodeAt v.dev.disk v.sb n) (fun _ _ => False) v := by
    unfold catalogRead
    rw [wp_bind]
    refine wp_inodeRead_ok hr ho.inTable ho.sum fun c => ?_
    rw [wp_bind, wp_failIf]
    exact ⟨fun hno => ho.catalog hno, fun _ => rfl⟩
  obtain ⟨ino, v', hrun, rfl⟩ := hspec.exists_ok
  rw [hrun]

theorem catalogChunk_ok (hr : Ready v) (ho : Opens who want v n)
    (hk : k < (inodeAt v.dev.disk v.sb n).blockCount.toNat) :
    catalogChunk v (inodeAt v.dev.disk v.sb n) k =
      .ok (mapBlock v.dev.disk (inodeAt v.dev.disk v.sb n) k, blockOf v n k) := by
  have hspec := wp_catalogBlock (q := fun b blk => pure (b, blk)) (Q := fun p _ =>
    p = (mapBlock v.dev.disk (inodeAt v.dev.disk v.sb n) k, blockOf v n k)) (E := fun _ _ => False) hr (refl_of Still v)
    ho.inTable ho.type_ne_zero hk fun _ => rfl
  obtain ⟨p, v', hrun, rfl⟩ := hspec.exists_ok
  exact congrArg Prod.fst hrun

theorem blockOf_put {blk : Block} {c : Nat}
    (h : inodeAt (v.put (mapBlock v.dev.disk (inodeAt v.dev.disk v.sb n) 0) blk c).dev.disk
      (v.put (mapBlock v.dev.disk (inodeAt v.dev.disk v.sb n) 0) blk c).sb n = inodeAt v.dev.disk v.sb n) :
    blockOf (v.put (mapBlock v.dev.disk (inodeAt v.dev.disk v.sb n) 0) blk c) n 0 = blk := by
  unfold blockOf
  rw [h]
  exact Function.update_self _ _ _

end

/-- 検査値の欄の合わない、名前 `a` の項目。 -/
def mislabeled : CatalogEntry :=
  let e : CatalogEntry := ⟨0, entryFile, 1, (Bytes.zero 128).patch 0 [97], Bytes.zero 118, 0⟩
  { e with checksum := catalogEntryComputeChecksum e + 1 }

theorem sum_mislabeled : catalogEntryVerifyChecksum mislabeled = false := by
  unfold catalogEntryVerifyChecksum mislabeled
  rw [beq_eq_false_iff_ne, catalogEntryComputeChecksum_set]
  intro h
  exact absurd (UInt32.add_eq_left.mp h) (by decide)

/-- 検査値の合う、名前 `a` の項目。 -/
def labeled : CatalogEntry :=
  let e : CatalogEntry := ⟨0, entryFile, 1, (Bytes.zero 128).patch 0 [97], Bytes.zero 118, 0⟩
  { e with checksum := catalogEntryComputeChecksum e }

theorem sum_labeled : catalogEntryVerifyChecksum labeled = true := by
  unfold catalogEntryVerifyChecksum labeled
  rw [beq_iff_eq, catalogEntryComputeChecksum_set]

/-- 根のカタログの最初の枠に、項目 `a` がある。 -/
def rootWith (a : CatalogEntry) : Vol :=
  formattedVolume.put (mapBlock formattedVolume.dev.disk (inodeAt formattedVolume.dev.disk formattedVolume.sb 0) 0)
    (putEntry (blockOf formattedVolume 0 0) 0 a) formattedVolume.dev.clock

/-- 根のカタログの最初の枠に、検査値の合わない項目がある。 -/
def mislabeledVolume : Vol := rootWith mislabeled

theorem ready_formattedVolume : Ready formattedVolume := formatted_formattedVolume.1.ready faultFree_formattedVolume

theorem opens_root {want : UInt8}
    (h : inodeAccessCheck ⟨0, 0⟩ (inodeAt formattedVolume.dev.disk formattedVolume.sb 0) want = .ok ()) :
    Opens ⟨0, 0⟩ want formattedVolume 0 := by
  have hn : (0 : UInt32).toNat < formattedVolume.sb.totalInodes.toNat := by decide +kernel
  have hcat : (inodeAt formattedVolume.dev.disk formattedVolume.sb 0).entryType &&& entryCatalog ≠
    0 := by decide +kernel
  have ht : (inodeAt formattedVolume.dev.disk formattedVolume.sb 0).entryType ≠ 0 := by decide +kernel
  exact ⟨hn, formatted_formattedVolume.1.sums 0 hn ht, hcat, h⟩

theorem reads_root :
    inodeAccessCheck ⟨0, 0⟩ (inodeAt formattedVolume.dev.disk formattedVolume.sb 0) accessRead = .ok () := by
  decide +kernel

theorem writes_root :
    inodeAccessCheck ⟨0, 0⟩ (inodeAt formattedVolume.dev.disk formattedVolume.sb 0) accessWrite = .ok () := by
  decide +kernel

theorem blockCount_root : (inodeAt formattedVolume.dev.disk formattedVolume.sb 0).blockCount.toNat = 1 := by
  decide +kernel

section

variable {a : CatalogEntry}

theorem slotPut_rootWith (a : CatalogEntry) : SlotPut formattedVolume (rootWith a) 0
    (entryIn (blockOf formattedVolume 0 0) 0) a :=
  ready_formattedVolume.putSlot (k := 0) (e := 0) (opens_root reads_root).inTable (opens_root reads_root).type_ne_zero
    (by rw [blockCount_root]; decide) (by decide) a _

theorem opens_rootWith {want : UInt8} (h : Opens ⟨0, 0⟩ want formattedVolume 0) :
    Opens ⟨0, 0⟩ want (rootWith a) 0 := by
  have hrec := (slotPut_rootWith a).record
  refine ⟨h.inTable, ?_, ?_, ?_⟩ <;> rw [hrec]
  · exact h.sum
  · exact h.catalog
  · exact h.access

theorem entryIn_rootWith : entryIn (blockOf (rootWith a) 0 0) 0 = a := by
  have hblk : blockOf (rootWith a) 0 0 = putEntry (blockOf formattedVolume 0 0) 0 a :=
    blockOf_put (slotPut_rootWith a).record
  rw [hblk, entryIn_putEntry_same (by decide)]

/-- 生きている項目は、その名前で見つかる。 -/
theorem named_rootWith (hlive : entryLive a = true) (hlen : a.nameLength.toNat ≤ nameMaxBytes)
    (hname : owSutf8NameCmp (a.name.slice 0 a.nameLength.toNat) [97] = 0) :
    Named (rootWith a) (inodeAt (rootWith a).dev.disk (rootWith a).sb 0) (nameBytes (some [97]) 1) 0
      (mapBlock (rootWith a).dev.disk (inodeAt (rootWith a).dev.disk (rootWith a).sb 0) 0)
      (blockOf (rootWith a) 0 0) := by
  have hbc : (inodeAt (rootWith a).dev.disk (rootWith a).sb 0).blockCount.toNat = 1 := by
    rw [(slotPut_rootWith a).record, blockCount_root]
  have hchunk := catalogChunk_ok (slotPut_rootWith a).moved.ready (opens_rootWith (opens_root reads_root))
    (k := 0) (by rw [hbc]; decide)
  refine ⟨⟨by rw [hbc]; decide, hchunk, fun k hk => absurd hk (Nat.not_lt_zero _)⟩, ?_, ?_⟩
  · rw [entryIn_rootWith]
    exact hlive
  · rw [entryName_eq (by decide) (by rw [entryIn_rootWith]; exact hlen), entryIn_rootWith]
    exact hname

end

theorem named_mislabeledVolume :
    Named mislabeledVolume (inodeAt mislabeledVolume.dev.disk mislabeledVolume.sb 0) (nameBytes (some [97]) 1) 0
      (mapBlock mislabeledVolume.dev.disk (inodeAt mislabeledVolume.dev.disk mislabeledVolume.sb 0) 0)
      (blockOf mislabeledVolume 0 0) := named_rootWith rfl (by decide) (owSutf8NameCmp_self (by decide))

/-- 抹消は、探索の見ない項目を消す。 -/
theorem remove_disagrees :
    ¬ ∀ (who : OwIdentity) (v : Vol) (n : UInt32) (ino : Inode) (name : Option (List UInt8)) (nameLen : Nat),
      v.dev.FaultFree → v.dev.writeProtect = 0 → volumeWritable v.sb = .ok () → (catalogRead n v).1 = .ok ino →
      inodeAccessCheck who ino accessRead = .ok () → inodeAccessCheck who ino accessWrite = .ok () →
      Agree who v n ino name nameLen := by
  intro hclaim
  have hready := (slotPut_rootWith mislabeled).moved.ready
  have hread := opens_rootWith (a := mislabeled) (opens_root reads_root)
  have hwrite := opens_rootWith (a := mislabeled) (opens_root writes_root)
  have hcat := catalogRead_ok hready hread
  have hopen : volumeWritable mislabeledVolume.sb = .ok () := by decide +kernel
  have hprot : mislabeledVolume.dev.writeProtect = 0 := hready.writes_superblock.unprotected
  have hagree := hclaim ⟨0, 0⟩ mislabeledVolume 0 _ (some [97]) 1 hready.faultFree hprot hopen hcat
    hread.access hwrite.access
  have hfore : Foremost (Named mislabeledVolume (inodeAt mislabeledVolume.dev.disk mislabeledVolume.sb 0)
      (nameBytes (some [97]) 1)) 0 _ _ := ⟨named_mislabeledVolume, fun j hj => absurd hj (Nat.not_lt_zero _)⟩
  have hremove := @catalogRemove_scans _ _ _ _ (some [97]) 1 hready.faultFree hprot hopen hcat hwrite.access
  have hN : ∀ j b blk, Named mislabeledVolume (inodeAt mislabeledVolume.dev.disk mislabeledVolume.sb 0)
      (nameBytes (some [97]) 1) j b blk → Scans mislabeledVolume _ j b blk := fun _ _ _ h => h.toScans
  cases hrun : (catalogRemove ⟨0, 0⟩ 0 (some [97]) 1 mislabeledVolume).1 with
  | ok u =>
      obtain ⟨_, j₁, b₁, blk₁, hfore₁, _, hdisk⟩ := hremove.ok (run_eq hrun)
      obtain ⟨rfl, rfl, rfl⟩ := hfore.unique hN hfore₁
      obtain ⟨j₂, b₂, blk₂, hfore₂, _, hdisk₂⟩ := hagree.entry _ (run_eq hrun)
      have hsame := markedDisk_inj hfore.1.toScans hfore₂.1.toScans hfore.1.live (hdisk.symm.trans hdisk₂)
      have hsum := hfore₂.1.sum
      have hentry : entryIn (blockOf mislabeledVolume 0 0) 0 = mislabeled := entryIn_rootWith
      rw [← hsame, Nat.zero_mod, hentry, sum_mislabeled] at hsum
      cases hsum
  | error e =>
      rcases hremove.error (run_eq hrun) ⟨rfl, by decide, by decide⟩ with hnone | ⟨j₁, b₁, blk₁, _, hhid⟩
      · exact hnone _ _ _ named_mislabeledVolume
      · exact not_concealed_of_superuser rfl _ hhid

/-- 見える項目のあるカタログでは、どちらもその項目を見つける。 -/
theorem remove_agrees_on_labeled :
    (∃ j b blk, Sighted ⟨0, 0⟩ (rootWith labeled) (inodeAt (rootWith labeled).dev.disk (rootWith labeled).sb 0)
      (nameBytes (some [97]) 1) j b blk) ∧
    Agree ⟨0, 0⟩ (rootWith labeled) 0 (inodeAt (rootWith labeled).dev.disk (rootWith labeled).sb 0) (some [97]) 1 := by
  have hready := (slotPut_rootWith labeled).moved.ready
  have hread := opens_rootWith (a := labeled) (opens_root reads_root)
  have hwrite := opens_rootWith (a := labeled) (opens_root writes_root)
  have hnamed := named_rootWith (a := labeled) rfl (by decide) (owSutf8NameCmp_self (by decide))
  have hsum : catalogEntryVerifyChecksum (entryIn (blockOf (rootWith labeled) 0 0) (0 % 16)) = true := by
    rw [Nat.zero_mod, entryIn_rootWith, sum_labeled]
  refine ⟨⟨0, _, _, hnamed, hsum, not_concealed_of_superuser rfl _⟩, ?_⟩
  refine (remove_agrees_iff hready.faultFree hready.writes_superblock.unprotected (by decide +kernel)
    (catalogRead_ok hready hread) hread.access hwrite.access).mpr fun _ j b blk hfore => .inl ⟨?_, ?_⟩
  · have hfirst : Foremost (Named (rootWith labeled) (inodeAt (rootWith labeled).dev.disk (rootWith labeled).sb 0)
        (nameBytes (some [97]) 1)) 0 _ _ := ⟨hnamed, fun j hj => absurd hj (Nat.not_lt_zero _)⟩
    obtain ⟨rfl, rfl, rfl⟩ := hfore.unique (fun _ _ _ h => h.toScans) hfirst
    exact hsum
  · exact not_concealed_of_superuser rfl _

end OwStorage.Owfs
