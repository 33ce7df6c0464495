import OwStorage.Owfs.Lemmas.Aside
import OwStorage.Owfs.Lemmas.Slots
import OwStorage.Owfs.Lemmas.Ledger

/-!
# カタログの操作

カタログの項目は、カタログの inode のデータブロックの中にある。項目の読み書きとカタログの伸長が、ボリュームの条件を
保つことを示し、最後にデータの操作の全体についてまとめる。
-/

namespace OwStorage.Owfs

open Lib Prog

/-! ## 読むだけの操作 -/

theorem still_blockmapGet (ino : Inode) (idx : UInt32) : Preserves Still (blockmapGet ino idx) := by
  unfold blockmapGet
  refine .bind (.failIf _ _) fun _ => ?_
  by_cases h : idx.toNat < 10
  · simp only [h, ↓reduceDIte]
    exact .bind (.failIf _ _) fun _ => .pure _
  · simp only [h, ↓reduceDIte]
    exact .bind (.failIf _ _) fun _ => .bind (still_readBlk _) fun _ => .bind (.failIf _ _) fun _ => .pure _

theorem still_readLoop (sb : Superblock) (ino : Inode) (offset len : UInt32) :
    Preserves Still (readLoop sb ino offset len) := by
  unfold readLoop
  refine .bind (.loop fun _ acc => .ite ?_ (.pure _)) fun r => ?_
  · exact .bind (still_blockmapGet _ _) fun _ => .bind (still_readBlk _) fun _ => .pure _
  · cases r <;> exact .pure _

theorem still_fileRead (who : OwIdentity) (ino : Inode) (offset len : UInt32) :
    Preserves Still (fileRead who ino offset len) := by
  unfold fileRead
  exact .bind (.failIf _ _) fun _ => .bind (.ofExcept _) fun _ => .ite (.pure _)
    (.bind .get fun _ => still_readLoop _ _ _ _)

theorem still_inodeHiddenFrom (who : OwIdentity) (n : UInt32) : Preserves Still (inodeHiddenFrom who n) := by
  unfold inodeHiddenFrom
  refine .bind (still_inodeRead n).attempt fun r => ?_
  cases r <;> exact .pure _

theorem still_catalogRead (n : UInt32) : Preserves Still (catalogRead n) := by
  unfold catalogRead
  exact .bind (still_inodeRead n) fun _ => .bind (.failIf _ _) fun _ => .pure _

theorem still_catalogLookup (who : OwIdentity) (n : UInt32) (name : Option (List UInt8)) (nameLen : Nat) :
    Preserves Still (catalogLookup who n name nameLen) := by
  unfold catalogLookup
  refine .bind (.failIf _ _) fun _ => .bind (.failIf _ _) fun _ => .bind (still_catalogRead n) fun _ =>
    .bind (.ofExcept _) fun _ => .bind (.loop fun idx _ => ?_) fun r => ?_
  · refine .bind (still_blockmapGet _ _) fun _ => .bind (still_readBlk _) fun _ => .loop fun e _ => ?_
    exact .ite (.bind (still_inodeHiddenFrom _ _) fun _ => .ite (.pure _) (.pure _)) (.pure _)
  · cases r with
    | inl _ => exact .throw _
    | inr _ => exact .pure _

theorem still_catalogList (who : OwIdentity) (n maxEntries : UInt32) :
    Preserves Still (catalogList who n maxEntries) := by
  unfold catalogList
  refine .bind (.failIf _ _) fun _ => .bind (still_catalogRead n) fun _ => .bind (.ofExcept _) fun _ =>
    .bind (.loop fun idx acc => ?_) fun r => ?_
  · refine .bind (still_blockmapGet _ _) fun _ => .bind (still_readBlk _) fun _ => .loop fun e acc => ?_
    exact .ite (.bind (still_inodeHiddenFrom _ _) fun _ => .ite (.pure _) (.pure _)) (.pure _)
  · cases r with
    | inl _ => exact .pure _
    | inr c => exact c.elim

/-! ## データブロックへの書き込み -/

section

variable {v : Vol} {f : UInt32 → Inode} {n : UInt32} {ino : Inode} {i c : Nat} {blk : Block} {T : Set UInt32}

theorem Sound.put_mapped (h : Sound v.dev.disk v.sb (Function.update f n ino)) (blk : Block) (c : Nat)
    (hn : n.toNat < v.sb.totalInodes.toNat) (hi : i < ino.blockCount.toNat) :
    Sound (v.put (mapBlock v.dev.disk ino i) blk c).dev.disk v.sb (Function.update f n ino) := by
  refine h.congr (fun b hb => Function.update_of_ne ?_ _ _) (fun m hm hbc => Function.update_of_ne ?_ _ _)
  · rintro rfl
    exact h.layout.data_not_bitmap (h.mapBlock_isData hn hi) hb
  · exact h.mapped_ne_indirect hn hi (h.indirect_live hm hbc)

theorem Sound.staged_put (h : Sound v.dev.disk v.sb (Function.update f n ino)) (blk : Block) (c : Nat)
    (hn : n.toNat < v.sb.totalInodes.toNat) (hi : i < ino.blockCount.toNat) :
    Staged v (v.put (mapBlock v.dev.disk ino i) blk c) := by
  refine .ofData (S := {mapBlock v.dev.disk ino i}) h.layout rfl (.store rfl) ?_
  rintro b rfl
  exact h.mapBlock_isData hn hi

theorem Sound.untouched_put (h : Sound v.dev.disk v.sb (Function.update f n ino))
    (hn : n.toNat < v.sb.totalInodes.toNat) (hi : i < ino.blockCount.toNat) :
    Untouched f n v (v.put (mapBlock v.dev.disk ino i) blk c) := by
  refine untouched_of_update ino fun x hx hxn => Function.update_of_ne ?_ _ _
  have hne := h.owns.ne hx (mapped_mem_refs hn hi) (by rintro rfl; exact hxn rfl)
  rwa [target_update_self] at hne

theorem Ready.put_mapped (hr : Ready v) (hn : n.toNat < v.sb.totalInodes.toNat)
    (ht : (inodeAt v.dev.disk v.sb n).entryType ≠ 0) (hi : i < (inodeAt v.dev.disk v.sb n).blockCount.toNat) :
    Upholds {n} v (v.put (mapBlock v.dev.disk (inodeAt v.dev.disk v.sb n) i) blk c) := by
  have h := hr.sound.fresh ht
  exact ((h.staged_put blk c hn hi).settled (h.put_mapped blk c hn hi) rfl (h.untouched_put hn hi)).upholds ht
    fun hs => hs n hn ht

end

/-! ## カタログを開いて調べる -/

/-- 主体 `who` が、カタログ `n` を `want` のために開ける。 -/
structure Opens (who : OwIdentity) (want : UInt8) (v : Vol) (n : UInt32) : Prop where
  inTable : n.toNat < v.sb.totalInodes.toNat
  sum : inodeVerifyChecksum (inodeAt v.dev.disk v.sb n) = true
  catalog : (inodeAt v.dev.disk v.sb n).entryType &&& entryCatalog ≠ 0
  access : inodeAccessCheck who (inodeAt v.dev.disk v.sb n) want = .ok ()

/-- 名前の引数の検査を通る。 -/
structure Proper (name : Option (List UInt8)) (nameLen : Nat) : Prop where
  given : name.isSome = true
  nonempty : nameLen ≠ 0
  short : nameLen < nameMaxBytes

/-- 番号 `i` の inode が、主体 `who` から隠されている。読めない inode は隠されていないとみなされる。 -/
def hiddenAt (who : OwIdentity) (v : Vol) (i : UInt32) : Bool :=
  decide (i.toNat < v.sb.totalInodes.toNat) &&
    ((inodeAt v.dev.disk v.sb i).entryType == 0 || inodeVerifyChecksum (inodeAt v.dev.disk v.sb i)) &&
    (inodeIsHidden (inodeAt v.dev.disk v.sb i) && ! owSecIsSuperuser who &&
      who.uid != (inodeAt v.dev.disk v.sb i).ownerUid.toUInt32)

/-- カタログ `n` の中身。 -/
abbrev contents (v : Vol) (n : UInt32) : List CatalogEntry := entries v.dev.disk (inodeAt v.dev.disk v.sb n)

/-- カタログ `n` の `k` 番目のブロック。 -/
abbrev blockOf (v : Vol) (n : UInt32) (k : Nat) : Block :=
  v.dev.disk (mapBlock v.dev.disk (inodeAt v.dev.disk v.sb n) k)

/-- どの項目の名前も、名前の欄に収まる。 -/
def Legible (l : List CatalogEntry) : Prop := ∀ a ∈ l, a.nameLength.toNat ≤ 128

/-- 項目の名前が `x` に等しいと比べられる。 -/
def CatalogEntry.Answers (a : CatalogEntry) (x : List UInt8) : Prop := owSutf8NameCmp a.storedName x = 0

section

variable {v v₁ : Vol} {who : OwIdentity} {want : UInt8} {n i : UInt32} {α : Type} {k e : Nat}
  {name : Option (List UInt8)} {nameLen : Nat}

theorem Opens.type_ne_zero (h : Opens who want v n) : (inodeAt v.dev.disk v.sb n).entryType ≠ 0 := by
  intro ht
  have hcat := h.catalog
  rw [ht] at hcat
  exact hcat rfl

theorem Proper.of_guards (h : ¬ (name.isNone = true ∨ nameLen = 0)) (h' : ¬ nameLen ≥ nameMaxBytes) :
    Proper name nameLen := by
  rw [not_or, Bool.not_eq_true, Option.isNone_eq_false_iff] at h
  exact ⟨h.1, h.2, Nat.lt_of_not_le h'⟩

theorem Proper.not_refused (h : Proper name nameLen) : ¬ (name.isNone = true ∨ nameLen = 0) := by
  rintro (hno | hno)
  · rw [Option.isNone_iff_eq_none] at hno
    exact absurd h.given (by rw [hno]; decide)
  · exact h.nonempty hno

theorem wp_open (hr : Ready v) (hs : Still v v₁) {q : Inode → OwfsM α} {Q : α → Vol → Prop} {E : OwfsErr → Vol → Prop}
    (hopen : Opens who want v n → ∀ c, wp (q (inodeAt v.dev.disk v.sb n)) Q E (v.atClock c))
    (hshut : ¬ Opens who want v n → ∀ e c, e ≠ .alreadyExists → E e (v.atClock c)) :
    wp (do
      let ino ← catalogRead n
      Prog.ofExcept (inodeAccessCheck who ino want)
      q ino) Q E v₁ := by
  obtain ⟨c₀, rfl⟩ := hs
  unfold catalogRead
  rw [wp_bind, wp_bind]
  refine (inodeRead_spec (v := v.atClock c₀) hr.sound.layout n).mono ?_ ?_
  · rintro _ _ ⟨hn, rfl, hsum, c, rfl⟩
    simp only [wp_bind, wp_failIf, wp_pure, wp_ofExcept]
    refine ⟨fun hcat => hshut (fun h => h.catalog hcat) _ c (by decide), fun hcat => ⟨fun _ ha => ?_, fun e he => ?_⟩⟩
    · refine hopen ⟨hn, hsum fun ht => hcat ?_, hcat, ha⟩ c
      rw [ht]
      rfl
    · refine hshut (fun h => ?_) e c ?_
      · have ha := h.access
        rw [show inodeAccessCheck who (inodeAt v.dev.disk v.sb n) want = .error e from he] at ha
        cases ha
      · unfold inodeAccessCheck at he
        split_ifs at he
        cases he
        decide
  · rintro e _ ⟨⟨c, rfl⟩, hwhy⟩
    rcases hwhy with ⟨rfl, hno⟩ | ⟨rfl, _, hbad⟩ | ⟨rfl, hno⟩
    · exact hshut (fun h => hno h.inTable) _ c (by decide)
    · exact hshut (fun h => Bool.noConfusion (h.sum.symm.trans hbad)) _ c (by decide)
    · exact absurd ⟨hr.faultFree, hr.serves⟩ hno

theorem wp_inodeHiddenFrom (hr : Ready v) (hs : Still v v₁) {Q : Bool → Vol → Prop} {E : OwfsErr → Vol → Prop}
    (h : ∀ c, Q (hiddenAt who v i) (v.atClock c)) : wp (inodeHiddenFrom who i) Q E v₁ := by
  obtain ⟨c₀, rfl⟩ := hs
  unfold inodeHiddenFrom
  rw [wp_bind, wp_attempt]
  refine (inodeRead_spec (v := v.atClock c₀) hr.sound.layout i).mono ?_ ?_
  · rintro _ _ ⟨hn, rfl, hsum, c, rfl⟩
    have hq := h c
    unfold hiddenAt at hq
    have hread : ((inodeAt v.dev.disk v.sb i).entryType == 0 ||
        inodeVerifyChecksum (inodeAt v.dev.disk v.sb i)) = true := by
      by_cases ht : (inodeAt v.dev.disk v.sb i).entryType = 0
      · simp [ht]
      · rw [show inodeVerifyChecksum (inodeAt v.dev.disk v.sb i) = true from hsum ht, Bool.or_true]
    rw [hread, decide_eq_true (show i.toNat < v.sb.totalInodes.toNat from hn)] at hq
    exact hq
  · rintro e _ ⟨⟨c, rfl⟩, hwhy⟩
    have hq := h c
    suffices hidden : hiddenAt who v i = false by
      rw [hidden] at hq
      exact hq
    unfold hiddenAt
    rcases hwhy with ⟨_, hno⟩ | ⟨_, ht, hbad⟩ | ⟨_, hno⟩
    · rw [decide_eq_false (show ¬ i.toNat < v.sb.totalInodes.toNat from hno)]
      rfl
    · have ht : ((inodeAt v.dev.disk v.sb i).entryType == 0) = false := beq_eq_false_iff_ne.mpr ht
      rw [show inodeVerifyChecksum (inodeAt v.dev.disk v.sb i) = false from hbad, ht]
      simp
    · exact absurd ⟨hr.faultFree, hr.serves⟩ hno

/-- いま割り当てた inode は、誰からも隠されていない。 -/
theorem Allocated.not_hidden {v' : Vol} {entryType : UInt8} {parent : UInt32}
    (halloc : Allocated who entryType name nameLen parent v v' n) (reader : OwIdentity) :
    hiddenAt reader v' n = false := by
  have hshown : inodeIsHidden (inodeAt v'.dev.disk v'.sb n) = false := by
    rw [halloc.record]
    change ((if v.sb.securityFlags &&& secEncrypted ≠ 0 then secEncrypted.toUInt8 else 0).toUInt32 &&& secHidden != 0) =
      false
    split <;> decide
  unfold hiddenAt
  rw [hshown]
  simp

/-- 割り当ては、見えている inode を隠さない。 -/
theorem Allocated.hidden_mono {v' : Vol} {entryType : UInt8} {parent : UInt32}
    (halloc : Allocated who entryType name nameLen parent v v' n) {reader : OwIdentity}
    (hi : hiddenAt reader v i = false) : hiddenAt reader v' i = false := by
  by_cases hin : i = n
  · rw [hin]
    exact halloc.not_hidden reader
  · unfold hiddenAt at hi ⊢
    rw [halloc.moved.carry.shape.totalInodes]
    by_cases ht : i.toNat < v.sb.totalInodes.toNat
    · rw [halloc.moved.spares.record i ht hin]
      exact hi
    · rw [decide_eq_false ht]
      rfl

theorem wp_catalogBlock (hr : Ready v) (hs : Still v v₁) (hn : n.toNat < v.sb.totalInodes.toNat)
    (ht : (inodeAt v.dev.disk v.sb n).entryType ≠ 0) (hk : k < (inodeAt v.dev.disk v.sb n).blockCount.toNat)
    {q : UInt32 → Block → OwfsM α} {Q : α → Vol → Prop} {E : OwfsErr → Vol → Prop}
    (h : ∀ c, wp (q (mapBlock v.dev.disk (inodeAt v.dev.disk v.sb n) k)
        (blockOf v n k)) Q E (v.atClock c)) :
    wp (do
      let b ← blockmapGet (inodeAt v.dev.disk v.sb n) (UInt32.ofNat k)
      let blk ← readBlk b
      q b blk) Q E v₁ := by
  obtain ⟨c₀, rfl⟩ := hs
  have hsound := hr.sound.fresh ht
  have hlt := (inodeAt v.dev.disk v.sb n).blockCount.toNat_lt
  have hidx : (UInt32.ofNat k).toNat = k := toNat_ofNat_lt (by omega)
  rw [wp_bind]
  refine (blockmapGet_spec (v := v.atClock c₀) hsound hn (by rwa [hidx])).mono ?_ ?_
  · rintro _ _ ⟨rfl, c, rfl⟩
    rw [wp_bind, hidx]
    refine wp_readBlk (fun c' _ => h c') (fun c' hno => absurd ⟨hr.faultFree, ?_⟩ hno)
    exact hr.serves.readsData.reads _ (hsound.mapBlock_isData hn hk)
  · rintro _ _ ⟨_, hno⟩
    exact absurd ⟨hr.faultFree, hr.serves.readsData⟩ hno

theorem mem_contents (hk : k < (inodeAt v.dev.disk v.sb n).blockCount.toNat) (he : e < 16)
    (hlive : entryLive (entryIn (blockOf v n k) e) = true) :
    entryIn (blockOf v n k) e ∈ contents v n := by
  refine mem_entries.mpr ⟨k * 16 + e, by omega, ?_⟩
  rw [slotAt_at _ _ _ he, slotIn_of_live hlive]

theorem Legible.answers {blk : Block} {x : List UInt8} (h : (entryIn blk e).nameLength.toNat ≤ 128) (he : e < 16) :
    (owSutf8NameCmp (entryName blk e) x == 0) = true ↔ (entryIn blk e).Answers x := by
  unfold CatalogEntry.Answers
  rw [beq_iff_eq, entryName_eq he h]

end

/-! ## 探索と一覧 -/

section

variable {v : Vol} {n : UInt32}

/-- 項目 `a` は、主体 `who` に見せてよい名前 `x` の答えではない。 -/
def Unseen (who : OwIdentity) (v : Vol) (x : List UInt8) (a : CatalogEntry) : Prop :=
  catalogEntryVerifyChecksum a = true → a.Answers x → hiddenAt who v a.inodeNumber = true

/-- 先頭の `m` 個の枠に、条件 `P` を満たさない項目はない。 -/
def Scanned (v : Vol) (n : UInt32) (P : CatalogEntry → Prop) (m : Nat) : Prop :=
  Legible (contents v n) → ∀ j, j < m → ∀ a, slotAt v.dev.disk (inodeAt v.dev.disk v.sb n) j = some a → P a

theorem Scanned.next {P : CatalogEntry → Prop} {k e : Nat} (h : Scanned v n P (k * 16 + e)) (he : e < 16)
    (hslot : Legible (contents v n) →
      entryLive (entryIn (blockOf v n k) e) = true →
      P (entryIn (blockOf v n k) e)) :
    Scanned v n P (k * 16 + (e + 1)) := by
  intro hleg j hj a ha
  by_cases hje : j = k * 16 + e
  · rw [hje, slotAt_at _ _ _ he] at ha
    obtain ⟨hlive, rfl⟩ := slotIn_eq_some.mp ha
    exact hslot hleg hlive
  · exact h hleg j (by omega) a ha

theorem Scanned.all {P : CatalogEntry → Prop}
    (h : Scanned v n P ((inodeAt v.dev.disk v.sb n).blockCount.toNat * 16)) (hleg : Legible (contents v n)) :
    ∀ a ∈ contents v n, P a := by
  intro a ha
  obtain ⟨j, hj, hslot⟩ := mem_entries.mp ha
  exact h hleg j hj a hslot

/-- 探索の結果。見つからないとき、その名前の項目はどれも隠されている。 -/
theorem catalogLookup_spec (hr : Ready v) (who : OwIdentity) (n : UInt32) (name : Option (List UInt8)) (nameLen : Nat) :
    wp (catalogLookup who n name nameLen)
      (fun i v' => Still v v' ∧ Opens who accessRead v n ∧ Proper name nameLen ∧
        (Legible (contents v n) → ∃ a ∈ contents v n, catalogEntryVerifyChecksum a = true ∧
          a.Answers (nameBytes name nameLen) ∧ a.inodeNumber = i ∧ hiddenAt who v i = false))
      (fun e v' => Still v v' ∧ (Proper name nameLen → Opens who accessRead v n → e = .notFound ∧
        (Legible (contents v n) → ∀ a ∈ contents v n, Unseen who v (nameBytes name nameLen) a))) v := by
  unfold catalogLookup
  rw [wp_bind, wp_failIf]
  refine ⟨fun hno => ⟨refl_of Still v, fun hp => absurd hno hp.not_refused⟩, fun hgiven => ?_⟩
  rw [wp_bind, wp_failIf]
  refine ⟨fun hno => ⟨refl_of Still v, fun hp => absurd hp.short (Nat.not_lt.mpr hno)⟩, fun hshort => ?_⟩
  have hp := Proper.of_guards hgiven hshort
  refine wp_open hr (refl_of Still v) (fun ho c => ?_) (fun hno e c _ => ⟨⟨c, rfl⟩, fun _ ho => absurd ho hno⟩)
  have hn := ho.inTable
  have ht := ho.type_ne_zero
  rw [wp_bind]
  refine wp_loop (fun k _ v' => Still v v' ∧ Scanned v n (Unseen who v (nameBytes name nameLen)) (k * 16))
    ⟨⟨c, rfl⟩, fun _ j hj => absurd hj (by omega)⟩ ?_ (fun _ v' hI => ⟨hI.1, fun _ _ => ⟨rfl, hI.2.all⟩⟩)
  rintro k _ v₁ hk ⟨hs, hpass⟩
  refine wp_catalogBlock hr hs hn ht hk fun c₁ => ?_
  refine wp_loop (fun e _ v' => Still v v' ∧ Scanned v n (Unseen who v (nameBytes name nameLen)) (k * 16 + e))
    ⟨⟨c₁, rfl⟩, hpass⟩ ?_ (fun _ v' hI => ⟨hI.1, by rw [Nat.succ_mul]; exact hI.2⟩)
  rintro e _ v₂ he ⟨hs₂, hpass₂⟩
  dsimp only
  rw [wp_ite]
  refine ⟨fun hhit => ?_, fun hmiss => ⟨hs₂, hpass₂.next he fun hleg hlive hsum hans => absurd ?_ hmiss⟩⟩
  · simp only [Bool.and_eq_true] at hhit
    obtain ⟨⟨hlive, hsum⟩, hcmp⟩ := hhit
    have hmem := mem_contents hk he hlive
    rw [wp_bind]
    refine wp_inodeHiddenFrom hr hs₂ fun c₂ => ?_
    rw [wp_ite]
    refine ⟨fun hhid => ⟨⟨c₂, rfl⟩, hpass₂.next he fun _ _ _ _ => hhid⟩,
      fun hvis => ⟨⟨c₂, rfl⟩, ho, hp, fun hleg => ?_⟩⟩
    exact ⟨_, hmem, hsum, (Legible.answers (hleg _ hmem) he).mp hcmp, rfl, Bool.eq_false_iff.mpr hvis⟩
  · rw [hlive, hsum, (Legible.answers (hleg _ (mem_contents hk he hlive)) he).mpr hans]
    rfl

/-- 一覧に載る項目。 -/
def visible (who : OwIdentity) (v : Vol) (a : CatalogEntry) : Bool :=
  catalogEntryVerifyChecksum a && ! hiddenAt who v a.inodeNumber

/-- 枠の並びから、載る項目を多くとも `m` 個集める。 -/
def gathered (who : OwIdentity) (v : Vol) (n : UInt32) (m j : Nat) : List CatalogEntry :=
  ((filled (slotAt v.dev.disk (inodeAt v.dev.disk v.sb n)) j).filter (visible who v)).take m

theorem gathered_next {who : OwIdentity} {m k e : Nat} (he : e < 16) :
    gathered who v n m (k * 16 + (e + 1)) =
      let a := entryIn (blockOf v n k) e
      if (entryLive a && visible who v a && decide ((gathered who v n m (k * 16 + e)).length < m)) = true then
        gathered who v n m (k * 16 + e) ++ [a]
      else gathered who v n m (k * 16 + e) := by
  unfold gathered blockOf
  rw [← Nat.add_assoc, filled_succ, slotAt_at _ _ _ he]
  generalize filled (slotAt v.dev.disk (inodeAt v.dev.disk v.sb n)) (k * 16 + e) = l
  generalize v.dev.disk (mapBlock v.dev.disk (inodeAt v.dev.disk v.sb n) k) = blk
  dsimp only
  rw [List.filter_append, List.length_take, List.take_append]
  unfold slotIn
  by_cases hlive : entryLive (entryIn blk e) = true
  · by_cases hvis : visible who v (entryIn blk e) = true
    · by_cases hm : (l.filter (visible who v)).length < m
      · have hone : 1 ≤ m - (l.filter (visible who v)).length := by omega
        simp [hlive, hvis, hm, List.take_of_length_le, hone]
      · simp [hlive, hvis, hm, Nat.sub_eq_zero_of_le (Nat.le_of_not_lt hm)]
    · simp [hlive, hvis]
  · simp [hlive]

theorem catalogList_spec (hr : Ready v) (who : OwIdentity) (n maxEntries : UInt32) :
    wp (catalogList who n maxEntries)
      (fun l v' => (Still v v' ∧ l = ((contents v n).filter (visible who v)).take maxEntries.toNat) ∧
        maxEntries ≠ 0 ∧ Opens who accessRead v n)
      (fun _ v' => Still v v' ∧ ¬ (maxEntries ≠ 0 ∧ Opens who accessRead v n)) v := by
  unfold catalogList
  rw [wp_bind, wp_failIf]
  refine ⟨fun hz => ⟨refl_of Still v, fun h => h.1 hz⟩, fun hmax => ?_⟩
  refine wp_open hr (refl_of Still v) (fun ho c => ?_) (fun hno e c _ => ⟨⟨c, rfl⟩, fun h => hno h.2⟩)
  rw [wp_bind]
  refine wp_loop (fun k acc v' => Still v v' ∧ acc = gathered who v n maxEntries.toNat (k * 16))
    ⟨⟨c, rfl⟩, by simp [gathered, filled]⟩ ?_ (fun _ v' hI => ⟨hI, hmax, ho⟩)
  rintro k _ v₁ hk ⟨hs, rfl⟩
  refine wp_catalogBlock hr hs ho.inTable ho.type_ne_zero hk fun c₁ => ?_
  refine wp_loop (fun e acc v' => Still v v' ∧ acc = gathered who v n maxEntries.toNat (k * 16 + e))
    ⟨⟨c₁, rfl⟩, rfl⟩ ?_ (fun _ v' hI => ⟨hI.1, by rw [Nat.succ_mul]; exact hI.2⟩)
  rintro e _ v₂ he ⟨hs₂, rfl⟩
  rw [gathered_next he]
  unfold visible
  dsimp only
  rw [wp_ite]
  refine ⟨fun hhit => ?_, fun hmiss => ⟨hs₂, ?_⟩⟩
  · simp only [Bool.and_eq_true] at hhit
    rw [wp_bind]
    refine wp_inodeHiddenFrom hr hs₂ fun c₂ => ?_
    rw [wp_ite, hhit.1, hhit.2]
    simp only [Bool.true_and]
    exact ⟨fun hin => ⟨⟨c₂, rfl⟩, by rw [if_pos hin]⟩, fun hout => ⟨⟨c₂, rfl⟩, by rw [if_neg hout]⟩⟩
  · rw [if_neg]
    simp only [Bool.and_eq_true, not_and, Bool.not_eq_true] at hmiss ⊢
    intro h
    exact absurd h.2.1 (by rw [hmiss h.1]; decide)

end

/-! ## 抹消 -/

/-- 一つの枠だけを書き換えた結果。`old` はその枠の前の項目、`a` は書いた項目である。 -/
structure SlotPut (v v' : Vol) (n : UInt32) (old a : CatalogEntry) : Prop where
  moved : Moved {n} v v'
  record : inodeAt v'.dev.disk v'.sb n = inodeAt v.dev.disk v.sb n
  filled : entryLive old = false → entryLive a = true → (contents v' n).Perm (a :: contents v n)
  erased : entryLive old = true → entryLive a = false → (contents v n).Perm (old :: contents v' n)

section

variable {v : Vol} {n : UInt32}

theorem Ready.putSlot (hr : Ready v) (hn : n.toNat < v.sb.totalInodes.toNat)
    (ht : (inodeAt v.dev.disk v.sb n).entryType ≠ 0) {k e : Nat} (hk : k < (inodeAt v.dev.disk v.sb n).blockCount.toNat)
    (he : e < 16) (a : CatalogEntry) (c : Nat) :
    SlotPut v (v.put (mapBlock v.dev.disk (inodeAt v.dev.disk v.sb n) k) (putEntry (blockOf v n k) e a) c) n
      (entryIn (blockOf v n k) e) a := by
  have hsound := hr.sound.fresh ht
  have hrec := (hsound.staged_put (putEntry (blockOf v n k) e a) c hn hk).table n hn
  refine ⟨hr.put_mapped hn ht hk hr, hrec, fun hfree hlive => ?_, fun hlive hdead => ?_⟩
  · unfold contents
    rw [hrec]
    exact hsound.entries_put hn hk he hfree hlive
  · unfold contents
    rw [hrec]
    exact hsound.entries_erase hn hk he hlive hdead

theorem Scanned.block {P : CatalogEntry → Prop} {k : Nat} (h : Scanned v n P (k * 16))
    (hblk : Legible (contents v n) → ∀ e, e < 16 →
      entryLive (entryIn (blockOf v n k) e) = true →
      P (entryIn (blockOf v n k) e)) :
    Scanned v n P ((k + 1) * 16) := by
  intro hleg j hj a ha
  by_cases hjk : j < k * 16
  · exact h hleg j hjk a ha
  · obtain ⟨e, rfl⟩ : ∃ e, j = k * 16 + e := ⟨j - k * 16, by omega⟩
    rw [slotAt_at _ _ _ (by omega)] at ha
    obtain ⟨hlive, rfl⟩ := slotIn_eq_some.mp ha
    exact hblk hleg e (by omega) hlive

/-- 抹消の結果。名前の合う項目を一つだけ消す。 -/
structure Removed (who : OwIdentity) (v v' : Vol) (n : UInt32) (name : Option (List UInt8)) (nameLen : Nat) : Prop where
  moved : Moved {n} v v'
  opens : Opens who accessWrite v n
  proper : Proper name nameLen
  writable : volumeWritable v.sb = .ok ()
  record : inodeAt v'.dev.disk v'.sb n = inodeAt v.dev.disk v.sb n
  aside : Aside v v'
  erased : ∃ a, (contents v n).Perm (a :: contents v' n) ∧ hiddenAt who v a.inodeNumber = false ∧
    (Legible (contents v n) → a.Answers (nameBytes name nameLen))

theorem catalogRemove_spec (hr : Ready v) (who : OwIdentity) (n : UInt32) (name : Option (List UInt8)) (nameLen : Nat) :
    wp (catalogRemove who n name nameLen) (fun _ v' => Removed who v v' n name nameLen)
      (fun e v' => Still v v' ∧ (Proper name nameLen → volumeWritable v.sb = .ok () → Opens who accessWrite v n →
        e = .notFound ∧ (Legible (contents v n) → ∀ a ∈ contents v n, a.Answers (nameBytes name nameLen) →
          ∃ b ∈ contents v n, b.Answers (nameBytes name nameLen) ∧ hiddenAt who v b.inodeNumber = true))) v := by
  unfold catalogRemove
  rw [wp_bind, wp_failIf]
  refine ⟨fun hno => ⟨refl_of Still v, fun hp => absurd hno hp.not_refused⟩, fun hgiven => ?_⟩
  rw [wp_bind, wp_failIf]
  refine ⟨fun hno => ⟨refl_of Still v, fun hp => absurd hp.short (Nat.not_lt.mpr hno)⟩, fun hshort => ?_⟩
  have hp := Proper.of_guards hgiven hshort
  rw [wp_bind, wp_get, wp_bind, wp_ofExcept]
  refine ⟨fun _ hw => ?_, fun e he => ⟨refl_of Still v, fun _ hw => by rw [he] at hw; cases hw⟩⟩
  refine wp_open hr (refl_of Still v) (fun ho c => ?_) (fun hno e c _ => ⟨⟨c, rfl⟩, fun _ _ ho => absurd ho hno⟩)
  have hn := ho.inTable
  have ht := ho.type_ne_zero
  have hsound := hr.sound.fresh ht
  rw [wp_bind]
  refine wp_loop (fun k _ v' => Still v v' ∧ Scanned v n (fun a => ¬ a.Answers (nameBytes name nameLen)) (k * 16))
    ⟨⟨c, rfl⟩, fun _ j hj => absurd hj (by omega)⟩ ?_
    (fun _ v' hI => ⟨hI.1, fun _ _ _ => ⟨rfl, fun hleg a ha hans => absurd hans (hI.2.all hleg a ha)⟩⟩)
  rintro k _ v₁ hk ⟨hs, hpass⟩
  refine wp_catalogBlock hr hs hn ht hk fun c₁ => ?_
  split
  · rename_i e hfind
    have he : e < 16 := List.mem_range.mp (List.mem_of_find?_eq_some hfind)
    have hhit := List.find?_some hfind
    simp only [Bool.and_eq_true] at hhit
    obtain ⟨hlive, hcmp⟩ := hhit
    have hmem := mem_contents hk he hlive
    rw [wp_bind]
    refine wp_inodeHiddenFrom hr ⟨c₁, rfl⟩ fun c₂ => ?_
    simp only [wp_bind, wp_failIf, wp_pure]
    refine ⟨fun hhid => ⟨⟨c₂, rfl⟩, fun _ _ _ => ⟨trivial, fun hleg a _ _ => ?_⟩⟩, fun hvis => ?_⟩
    · exact ⟨_, hmem, (Legible.answers (hleg _ hmem) he).mp hcmp, hhid⟩
    · refine wp_writeBlk (fun c₃ _ => ?_) (fun _ c₃ _ hno => absurd ⟨hr.faultFree, ?_⟩ hno)
      · have hput := hr.putSlot hn ht hk he (deletedEntry (entryIn (blockOf v n k) e)) c₃
        exact ⟨hput.moved, ho, hp, hw, hput.record, aside_put hr hn ht hk _ _, _, hput.erased hlive
          (entryLive_deletedEntry _),
          Bool.eq_false_iff.mpr hvis, fun hleg => (Legible.answers (hleg _ hmem) he).mp hcmp⟩
      · exact hr.serves.writes _ (hsound.mapBlock_isData hn hk).2
  · rename_i hfind
    refine ⟨⟨c₁, rfl⟩, hpass.block fun hleg e he hlive hans => ?_⟩
    have hno := List.find?_eq_none.mp hfind e (List.mem_range.mpr he)
    rw [hlive, Bool.true_and] at hno
    exact hno ((Legible.answers (hleg _ (mem_contents hk he hlive)) he).mpr hans)

end

/-! ## カタログの伸長 -/

section

theorem never_onVol {α : Type} {p : OwfsM α} {bad : OwfsErr} (h : Never bad p) : Never bad (onVol p) := by
  intro s
  rw [wp_onVol]
  exact h s.vol

/-- 装置と、書き込みの門と、空きの探索の返す誤りのどれとも違う。 -/
def Foreign (bad : OwfsErr) : Prop := .io ≠ bad ∧ .writeProtected ≠ bad ∧ .volumeDirty ≠ bad ∧ .noFreeBlocks ≠ bad

theorem foreign_alreadyExists : Foreign .alreadyExists := by
  unfold Foreign
  decide

theorem foreign_invalidParam : Foreign .invalidParam := by
  unfold Foreign
  decide

section

variable {bad : OwfsErr} (h : Foreign bad)
include h

theorem DeviceErr.ne_of_foreign {e : OwfsErr} (he : DeviceErr e) : e ≠ bad := by
  rcases he with rfl | rfl
  · exact h.1
  · exact h.2.1

theorem never_readBlk (b : UInt32) : Never bad (readBlk b) := fun _ =>
  wp_readBlk (fun _ _ => trivial) (fun _ _ => h.1)

theorem never_writeBlk (b : UInt32) (blk : Block) : Never bad (writeBlk b blk) := fun _ =>
  wp_writeBlk (fun _ _ => trivial) (fun _ _ he _ => he.ne_of_foreign h)

theorem never_zeroBlk (b : UInt32) : Never bad (zeroBlk b) := fun _ =>
  wp_zeroBlk (fun _ _ => trivial) (fun _ _ he _ => he.ne_of_foreign h)

theorem never_volumeWritable {σ : Type} (sb : Superblock) :
    Never bad (Prog.ofExcept (volumeWritable sb) : Prog σ OwfsErr Unit) := by
  intro v
  rw [wp_ofExcept]
  refine ⟨fun _ _ => trivial, fun e he => ?_⟩
  unfold volumeWritable at he
  split_ifs at he <;> cases he
  · exact h.2.2.1
  · exact h.2.1

theorem never_bitmapAlloc : Never bad bitmapAlloc := by
  unfold bitmapAlloc
  refine .bind .get fun v => .bind (.failIf h.2.2.2) fun _ => .bind (.loop fun b _ => ?_) fun r => ?_
  · refine .bind (never_readBlk h _) fun buf => ?_
    split
    · exact .pure _
    · refine .bind ?_ fun _ => .pure _
      exact .bind (.failIf h.2.2.2) fun _ => .bind (never_writeBlk h _ _) fun _ => .bind (.modify _) fun _ => .pure _
  · cases r with
    | inl _ => exact .throw h.2.2.2
    | inr _ => exact .pure _

theorem never_allocAndZero : Never bad allocAndZero := by
  unfold allocAndZero
  refine .bind (never_bitmapAlloc h) fun b => .attempt_bind (never_zeroBlk h b) (fun _ => .pure _) fun e he => ?_
  exact .bind (.attempt _) fun _ => .throw he

end

theorem never_ensureIndirect (idx dataBlock : UInt32) : Never .alreadyExists (ensureIndirect idx dataBlock) := by
  unfold ensureIndirect
  refine .bind .get fun s => .bind (.ite ?_ ?_) fun ibuf => .bind .get fun s => ?_
  · refine .attempt_bind (never_onVol (never_allocAndZero foreign_alreadyExists))
      (fun _ => .bind (.modify _) fun _ => .pure _) fun e he => ?_
    exact .bind (.attempt _) fun _ => .throw he
  · refine .attempt_bind (never_onVol (never_readBlk foreign_alreadyExists _)) (fun _ => .pure _) fun e he => ?_
    exact .bind (.attempt _) fun _ => .throw (by decide)
  · refine .attempt_bind (never_onVol (never_writeBlk foreign_alreadyExists _ _)) (fun _ => .pure _) fun e he =>
      .bind (.attempt _) fun _ => ?_
    exact .ite (.bind (.attempt _) fun _ => .bind (.modify _) fun _ => .throw he) (.throw he)

theorem never_blockmapEnsure {ino : Inode} {v : Vol} :
    wp (blockmapEnsure ino.blockCount) (fun _ _ => True) (fun e _ => e ≠ .alreadyExists) ⟨v, ino⟩ := by
  unfold blockmapEnsure
  rw [wp_bind, wp_get]
  refine Never.bind (.failIf (by decide)) (fun _ => ?_) _
  refine .bind (never_volumeWritable foreign_alreadyExists v.sb) fun _ => ?_
  rw [if_neg (UInt32.lt_irrefl _)]
  refine .bind (.failIf (by decide)) fun _ => .bind (never_onVol (never_allocAndZero foreign_alreadyExists)) fun b => ?_
  exact .bind (.ite (.modify _) (never_ensureIndirect _ _)) fun _ => .bind (.modify _) fun _ => .pure _

end

/-- カタログの中身も記録も変わらない。 -/
structure Unlisted (v v' : Vol) (n : UInt32) : Prop where
  moved : Moved {n} v v'
  record : inodeAt v'.dev.disk v'.sb n = inodeAt v.dev.disk v.sb n
  contents : contents v' n = contents v n
  unspent : Unspent v v'
  blocks : ∀ i < (inodeAt v.dev.disk v.sb n).blockCount.toNat,
    mapBlock v'.dev.disk (inodeAt v.dev.disk v.sb n) i = mapBlock v.dev.disk (inodeAt v.dev.disk v.sb n) i ∧
      v'.dev.disk (mapBlock v.dev.disk (inodeAt v.dev.disk v.sb n) i) = blockOf v n i

/-- カタログの中身が一つ増えた。 -/
structure Listed (v v' : Vol) (n : UInt32) (a : CatalogEntry) : Prop where
  moved : Moved {n} v v'
  type : (inodeAt v'.dev.disk v'.sb n).entryType = (inodeAt v.dev.disk v.sb n).entryType
  contents : (contents v' n).Perm (a :: contents v n)

section

variable {v : Vol} {f : UInt32 → Inode} {n : UInt32} {s s' : FileState}

theorem Still.unlisted {v' : Vol} (hr : Ready v) (h : Still v v') : Unlisted v v' n := by
  have hm := h.upholds (T := {n}) hr
  have hu := h.unspent
  obtain ⟨c, rfl⟩ := h
  exact ⟨hm, rfl, rfl, hu, fun _ _ => ⟨rfl, rfl⟩⟩

theorem growCatalog_spec (hr : Ready v) (hn : n.toNat < v.sb.totalInodes.toNat)
    (ht : (inodeAt v.dev.disk v.sb n).entryType ≠ 0) (hw : volumeWritable v.sb = .ok ()) {a : CatalogEntry}
    (ha : entryLive a = true) :
    wp (growCatalog n a (inodeAt v.dev.disk v.sb n)) (fun _ s' => Listed v s'.vol n a)
      (fun e s' => Unlisted v s'.vol n ∧ e ≠ .alreadyExists) ⟨v, inodeAt v.dev.disk v.sb n⟩ := by
  have h := hr.sound.fresh ht
  unfold growCatalog
  rw [wp_bind, wp_attempt]
  refine (((blockmapEnsure_spec (s := ⟨v, inodeAt v.dev.disk v.sb n⟩) hn h).and never_blockmapEnsure).and
    (blockmapEnsure_unspent hn h hr.faultFree hr.serves hw)).mono ?_ ?_
  · rintro b s₁ ⟨⟨hp, _⟩, _⟩
    have hn₁ : n.toNat < s₁.vol.sb.totalInodes.toNat := by
      rw [hp.ext.shape.totalInodes]
      exact hn
    have hi : (inodeAt v.dev.disk v.sb n).blockCount.toNat < s₁.inode.blockCount.toNat := by
      rw [hp.count]
      exact Nat.lt_succ_self _
    have hserves : Serves s₁.vol.dev.toHtlConfig s₁.vol.sb := by
      rw [hp.ext.dev.config]
      exact hp.ext.shape.serves hr.serves
    simp only [wp_bind, wp_onVol]
    rw [← hp.last]
    refine wp_writeBlk (fun c _ => ?_) (fun e c _ hno => absurd ⟨hp.ext.dev.faultFree hr.faultFree, ?_⟩ hno)
    · have hput := hp.ext.sound.put_mapped (putEntry (Bytes.zero 4096) 0 a) c hn₁ hi
      have hstaged := trans_of Staged (hp.ext.staged h hn)
        (hp.ext.sound.staged_put (putEntry (Bytes.zero 4096) 0 a) c hn₁ hi)
      have hsound := hput.remap s₁.inode.sealed hn₁ ⟨rfl, rfl, rfl, rfl⟩ (hp.ext.sound.shaped_self hn₁).size
      refine ((hstaged.record (s := ⟨_, s₁.inode⟩) hn hr.faultFree hr.serves hw hsound h
        ((hp.ext.untouched h hn).trans (hp.ext.sound.untouched_put hn₁ hi) h hp.ext.shape)).and
        (inodeWrite_spec (s := ⟨s₁.vol.put (mapBlock s₁.vol.dev.disk s₁.inode
          (inodeAt v.dev.disk v.sb n).blockCount.toNat) (putEntry (Bytes.zero 4096) 0 a) c, s₁.inode⟩) hsound.layout
          n)).mono ?_ (fun _ _ hno => hno.1.elim)
      rintro _ s' ⟨⟨_, hset⟩, _, hrec⟩
      have hrow : inodeAt s'.vol.dev.disk s'.vol.sb n = s₁.inode.sealed := by
        rw [hset.table n hn, if_pos rfl]
      have htype : s₁.inode.entryType = (inodeAt v.dev.disk v.sb n).entryType := by rw [hp.ext.fields]
      have hblock : ∀ i, i < s₁.inode.blockCount.toNat →
          s'.vol.dev.disk (mapBlock s'.vol.dev.disk s₁.inode.sealed i) =
            if i = (inodeAt v.dev.disk v.sb n).blockCount.toNat then putEntry (Bytes.zero 4096) 0 a
            else s₁.vol.dev.disk (mapBlock s₁.vol.dev.disk s₁.inode i) := by
        intro i hlt
        rw [hrec.block_eq hput hn₁ rfl rfl hlt]
        exact hp.ext.sound.block_put hn₁ hi hlt
      refine ⟨hset.upholds (by rw [show s₁.inode.sealed.entryType = _ from htype]; exact ht)
        (fun _ => verify_sealed _) hr, by rw [hrow]; exact htype, ?_⟩
      have hgrow : entries s'.vol.dev.disk s₁.inode.sealed = contents v n ++ [a] := by
        refine entries_grow hp.count (fun i hlt => ?_) ?_ ha
        · rw [hblock i (by omega), if_neg (by omega)]
          exact hp.ext.block_eq h hn hlt
        · rw [hblock _ hi, if_pos rfl]
      unfold Owfs.contents
      rw [hrow, hgrow]
      exact List.perm_append_singleton a _
    · exact hserves.writes _ (hp.ext.sound.mapBlock_isData hn₁ hi).2
  · rintro e s₁ ⟨⟨⟨hext, hino⟩, hne⟩, hunspent⟩
    have hset := hext.settled h hn rfl
    have hrow : inodeAt s₁.vol.dev.disk s₁.vol.sb n = inodeAt v.dev.disk v.sb n := by
      rw [hset.table n hn, if_pos rfl]
    have hmap : ∀ i < (inodeAt v.dev.disk v.sb n).blockCount.toNat,
      mapBlock s₁.vol.dev.disk (inodeAt v.dev.disk v.sb n) i =
        mapBlock v.dev.disk (inodeAt v.dev.disk v.sb n) i := by
      intro i hi
      have hkeep := hext.keeps i hi
      rwa [hino] at hkeep
    have hblock : ∀ i < (inodeAt v.dev.disk v.sb n).blockCount.toNat,
        s₁.vol.dev.disk (mapBlock s₁.vol.dev.disk (inodeAt v.dev.disk v.sb n) i) = blockOf v n i := by
      intro i hi
      have hb := hext.block_eq h hn hi
      rwa [hino] at hb
    refine ⟨⟨hset.upholds ht (fun hs => hs n hn ht) hr, hrow, ?_, hunspent, fun i hi => ⟨hmap i hi, ?_⟩⟩, ?_⟩
    · unfold Owfs.contents
      rw [hrow]
      exact entries_congr rfl hblock
    · rw [← hmap i hi]
      exact hblock i hi
    · split
      · decide
      · exact hne

end

/-! ## 登録 -/

/-- 登録の引数とボリュームの検査を通る。 -/
structure Admissible (v : Vol) (name : Option (List UInt8)) (nameLen : Nat) (entryType : UInt8) : Prop where
  proper : Proper name nameLen
  type : entryType = entryFile ∨ entryType = entryCatalog
  valid : owSutf8Validate (nameBytes name nameLen) = true
  writable : volumeWritable v.sb = .ok ()

/-- 登録の結果。 -/
structure Inserted (who : OwIdentity) (v v' : Vol) (n : UInt32) (name : Option (List UInt8)) (nameLen : Nat)
    (target : UInt32) (entryType : UInt8) : Prop where
  listed : Listed v v' n (freshEntry target entryType name nameLen)
  admissible : Admissible v name nameLen entryType
  opens : Opens who accessWrite v n
  unseen : Opens who accessRead v n → Legible (contents v n) →
    ∀ a ∈ contents v n, Unseen who v (nameBytes name nameLen) a

/-- 登録の失敗。既にあると返すのは、見える項目がその名前を持つときだけである。 -/
structure Refused (who : OwIdentity) (v v' : Vol) (n : UInt32) (name : Option (List UInt8)) (nameLen : Nat)
    (entryType : UInt8) (e : OwfsErr) : Prop where
  unlisted : Unlisted v v' n
  duplicate : e = .alreadyExists → Still v v' ∧ (Legible (contents v n) →
    ∃ a ∈ contents v n, a.Answers (nameBytes name nameLen))
  seen : Admissible v name nameLen entryType → Opens who accessRead v n → Legible (contents v n) →
    (∃ a ∈ contents v n, ¬ Unseen who v (nameBytes name nameLen) a) → e = .alreadyExists

section

variable {v : Vol} {who : OwIdentity} {n : UInt32} {name : Option (List UInt8)} {nameLen : Nat} {entryType : UInt8}
  {e : OwfsErr}

theorem Refused.early (hr : Ready v) (hne : e ≠ .alreadyExists) (hno : ¬ Admissible v name nameLen entryType) :
    Refused who v v n name nameLen entryType e :=
  ⟨(refl_of Still v).unlisted hr, fun h => absurd h hne, fun h => absurd h hno⟩

theorem catalogInsert_spec (hr : Ready v) (who : OwIdentity) (n : UInt32) (name : Option (List UInt8)) (nameLen : Nat)
    (target : UInt32) (entryType : UInt8) :
    wp (catalogInsert who n name nameLen target entryType)
      (fun _ v' => Inserted who v v' n name nameLen target entryType)
      (fun e v' => Refused who v v' n name nameLen entryType e) v := by
  unfold catalogInsert
  rw [wp_bind, wp_failIf]
  refine ⟨fun hno => .early hr (by decide) fun h => h.proper.not_refused hno, fun hgiven => ?_⟩
  rw [wp_bind, wp_failIf]
  refine ⟨fun hno => .early hr (by decide) fun h => absurd h.proper.short (Nat.not_lt.mpr hno), fun hshort => ?_⟩
  rw [wp_bind, wp_failIf]
  refine ⟨fun hno => .early hr (by decide) fun h => h.type.elim hno.1 hno.2, fun htype => ?_⟩
  rw [wp_bind, wp_failIf]
  refine ⟨fun hno => .early hr (by decide) fun h => by simp [h.valid] at hno, fun hvalid => ?_⟩
  rw [wp_bind, wp_get, wp_bind, wp_ofExcept]
  refine ⟨fun _ hw => ?_, fun e he => ?_⟩
  case refine_2 =>
    refine .early hr ?_ fun h => by rw [h.writable] at he; cases he
    unfold volumeWritable at he
    split_ifs at he <;> cases he <;> decide
  have hadm : Admissible v name nameLen entryType := by
    refine ⟨.of_guards hgiven hshort, ?_, by simpa using hvalid, hw⟩
    by_contra hno
    exact htype (not_or.mp hno)
  rw [wp_bind, wp_attempt]
  refine (catalogLookup_spec hr who n name nameLen).mono ?_ ?_
  · rintro i v₁ ⟨hs, _, _, hfound⟩
    rw [wp_bind, wp_failIf]
    refine ⟨fun _ => ⟨hs.unlisted hr, fun _ => ⟨hs, fun hleg => ?_⟩, fun _ _ _ _ => rfl⟩, fun hno => absurd rfl hno⟩
    obtain ⟨a, ha, _, hans, _⟩ := hfound hleg
    exact ⟨a, ha, hans⟩
  · rintro e v₁ ⟨hs, hmiss⟩
    rw [wp_bind, wp_failIf]
    refine ⟨fun hok => Bool.noConfusion hok, fun _ => ?_⟩
    have hunseen : Opens who accessRead v n → Legible (contents v n) →
        ∀ a ∈ contents v n, Unseen who v (nameBytes name nameLen) a := fun ho => (hmiss hadm.proper ho).2
    -- 名前が見つからなかったので、この後の失敗は、既にあるという誤りではない。
    have hfail : ∀ {e : OwfsErr} {v' : Vol}, Unlisted v v' n → e ≠ .alreadyExists →
        Refused who v v' n name nameLen entryType e := by
      intro e v' hun hne
      refine ⟨hun, fun h => absurd h hne, ?_⟩
      rintro _ ho hleg ⟨a, ha, hno⟩
      exact absurd (hunseen ho hleg a ha) hno
    refine wp_open hr hs (fun ho c => ?_) (fun hno e c hne => hfail (still_atClock.unlisted hr) hne)
    have hn := ho.inTable
    have ht := ho.type_ne_zero
    have hlive : entryLive (freshEntry target entryType name nameLen) = true := entryLive_freshEntry hadm.type
    rw [wp_bind]
    refine wp_loop (fun _ _ v' => Still v v') ⟨c, rfl⟩ ?_ ?_
    · intro k _ v₂ hk hs₂
      refine wp_catalogBlock hr hs₂ hn ht hk fun c₁ => ?_
      split
      · rename_i e hfind
        have he : e < 16 := List.mem_range.mp (List.mem_of_find?_eq_some hfind)
        have hfree : entryLive (entryIn (blockOf v n k) e) = false := by simpa using List.find?_some hfind
        simp only [wp_bind, wp_pure]
        refine wp_writeBlk (fun c₂ _ => ?_) (fun _ c₂ _ hno => absurd ⟨hr.faultFree, ?_⟩ hno)
        · have hput := hr.putSlot hn ht hk he (freshEntry target entryType name nameLen) c₂
          exact ⟨⟨hput.moved, congrArg Inode.entryType hput.record, hput.filled hfree hlive⟩, hadm, ho, hunseen⟩
        · exact hr.serves.writes _ ((hr.sound.fresh ht).mapBlock_isData hn hk).2
      · exact ⟨c₁, rfl⟩
    · rintro _ _ ⟨c₁, rfl⟩
      have hr₁ : Ready (v.atClock c₁) := (still_atClock.upholds (T := {n}) hr).ready
      have hgrow := growCatalog_spec (v := v.atClock c₁) hr₁ hn ht hw hlive
      have hfirst := (still_atClock (v := v) (c := c₁)).unlisted (n := n) hr
      simp only [wp_bind, wp_withInode, wp_pure]
      refine hgrow.mono ?_ ?_
      · rintro _ s' hl
        exact ⟨⟨hfirst.moved.trans hl.moved hr.sound, hl.type, hl.contents⟩, hadm, ho, hunseen⟩
      · rintro e s' ⟨hun, hne⟩
        exact hfail ⟨hfirst.moved.trans hun.moved hr.sound, hun.record, hun.contents,
          hfirst.unspent.trans hun.unspent, hun.blocks⟩ hne

/-! ### 検査値の計算を省いた実行 -/

/-- 登録のうち、項目を書く部分。 -/
def placeEntry (n : UInt32) (entry : CatalogEntry) (cinode : Inode) : OwfsM Unit := do
  let r ← Prog.loop cinode.blockCount.toNat () fun idx _ => do
    let bnum ← blockmapGet cinode (UInt32.ofNat idx)
    let blk ← readBlk bnum
    match (List.range 16).find? fun e => ! entryLive (entryIn blk e) with
    | some e => do
        writeBlk bnum (putEntry blk e entry)
        pure (.inr ())
    | none => pure (.inl ())
  match r with
  | .inr _ => pure ()
  | .inl _ => do
      let _ ← withInode cinode (growCatalog n entry cinode)
      pure ()

/-- カタログに空いた枠がある。 -/
def HasSlot (v : Vol) (n : UInt32) : Prop :=
  (contents v n).length < (inodeAt v.dev.disk v.sb n).blockCount.toNat * 16

/-- 空いた枠のあるカタログへの書き込みは通り、ビットマップに触れない。 -/
theorem placeEntry_aside {v₁ : Vol} (hr : Ready v) (hs : Still v v₁) (hn : n.toNat < v.sb.totalInodes.toNat)
    (ht : (inodeAt v.dev.disk v.sb n).entryType ≠ 0) (hroom : HasSlot v n) (entry : CatalogEntry) :
    wp (placeEntry n entry (inodeAt v.dev.disk v.sb n)) (fun _ v' => Aside v v') (fun _ _ => False) v₁ := by
  unfold placeEntry
  rw [wp_bind]
  refine wp_loop (fun k _ v' => Still v v' ∧
    ∀ j, j < k * 16 → slotAt v.dev.disk (inodeAt v.dev.disk v.sb n) j ≠ none)
    ⟨hs, fun j hj => absurd hj (by omega)⟩ ?_ ?_
  · rintro k _ v₂ hk ⟨hs₂, hfull⟩
    refine wp_catalogBlock hr hs₂ hn ht hk fun c₁ => ?_
    split
    · simp only [wp_bind, wp_pure]
      refine wp_writeBlk (fun _ _ => aside_put hr hn ht hk _ _) (fun _ _ _ hno => hno ⟨hr.faultFree, ?_⟩)
      exact hr.serves.writes _ ((hr.sound.fresh ht).mapBlock_isData hn hk).2
    · rename_i hnone
      refine ⟨⟨c₁, rfl⟩, fun j hj => ?_⟩
      by_cases hjk : j < k * 16
      · exact hfull j hjk
      · have hlive := List.find?_eq_none.mp hnone (j % 16) (List.mem_range.mpr (Nat.mod_lt _ (by decide)))
        rw [show j = k * 16 + j % 16 by omega, slotAt_at _ _ _ (Nat.mod_lt _ (by decide)), Ne, slotIn_eq_none]
        simpa using hlive
  · rintro _ v₂ ⟨_, hfull⟩
    exact absurd (length_filled hfull) (Nat.ne_of_lt hroom)

theorem placeEntry_ok {v₁ : Vol} (hr : Ready v) (hs : Still v v₁) (hn : n.toNat < v.sb.totalInodes.toNat)
    (ht : (inodeAt v.dev.disk v.sb n).entryType ≠ 0) (hroom : HasSlot v n) (entry : CatalogEntry) :
    ∃ v', placeEntry n entry (inodeAt v.dev.disk v.sb n) v₁ = (.ok (), v') := by
  obtain ⟨_, v', hrun, _⟩ := (placeEntry_aside hr hs hn ht hroom entry).exists_ok
  exact ⟨v', hrun⟩

/-- 登録は、項目を書く所までは何も変えない。 -/
theorem catalogInsert_places (hr : Ready v) {I : Vol → Prop} (hstill : ∀ c, I (v.atClock c)) (target : UInt32)
    (hplace : Admissible v name nameLen entryType → Opens who accessWrite v n →
      ∀ c, wp (placeEntry n (freshEntry target entryType name nameLen) (inodeAt v.dev.disk v.sb n)) (fun _ => I)
        (fun _ => I) (v.atClock c)) :
    wp (catalogInsert who n name nameLen target entryType) (fun _ => I) (fun _ => I) v := by
  have hrefl : I v := hstill v.dev.clock
  unfold catalogInsert
  rw [wp_bind, wp_failIf]
  refine ⟨fun _ => hrefl, fun hgiven => ?_⟩
  rw [wp_bind, wp_failIf]
  refine ⟨fun _ => hrefl, fun hshort => ?_⟩
  rw [wp_bind, wp_failIf]
  refine ⟨fun _ => hrefl, fun htype => ?_⟩
  rw [wp_bind, wp_failIf]
  refine ⟨fun _ => hrefl, fun hvalid => ?_⟩
  rw [wp_bind, wp_get, wp_bind, wp_ofExcept]
  refine ⟨fun _ hw => ?_, fun _ _ => hrefl⟩
  have hadm : Admissible v name nameLen entryType := by
    refine ⟨.of_guards hgiven hshort, ?_, by simpa using hvalid, hw⟩
    by_contra hne
    exact htype (not_or.mp hne)
  rw [wp_bind, wp_attempt]
  refine (still_catalogLookup who n name nameLen v).mono ?_ ?_
  · rintro _ _ ⟨c, rfl⟩
    rw [wp_bind, wp_failIf]
    exact ⟨fun _ => hstill c, fun hne => absurd rfl hne⟩
  · rintro _ _ ⟨c, rfl⟩
    rw [wp_bind, wp_failIf]
    refine ⟨fun _ => hstill c, fun _ => ?_⟩
    exact wp_open hr ⟨c, rfl⟩ (fun ho => hplace hadm ho) (fun _ _ c _ => hstill c)

theorem Opens.run {want : UInt8} {α : Type} {q : Inode → OwfsM α} (ho : Opens who want v n) (hr : Ready v) :
    (do
      let ino ← catalogRead n
      Prog.ofExcept (inodeAccessCheck who ino want)
      q ino) v = q (inodeAt v.dev.disk v.sb n) (inodeLoad n v).2 := by
  have hread : catalogRead n v = (.ok (inodeAt v.dev.disk v.sb n), (inodeLoad n v).2) :=
    run_bind (hr.inodeRead_run ho.inTable fun _ => ho.sum) (run_bind (run_failIf ho.catalog) rfl)
  refine run_bind hread ?_
  rw [ho.access]
  rfl

/-- 探索のうち、項目を調べる部分。 -/
def searchEntry (who : OwIdentity) (cinode : Inode) (x : List UInt8) : OwfsM UInt32 := do
  let r ← Prog.loop cinode.blockCount.toNat () fun idx _ => do
    let bnum ← blockmapGet cinode (UInt32.ofNat idx)
    let blk ← readBlk bnum
    Prog.loop 16 () fun e _ => do
      let centry := entryIn blk e
      if entryLive centry && catalogEntryVerifyChecksum centry && owSutf8NameCmp (entryName blk e) x == 0 then do
        let hidden ← inodeHiddenFrom who centry.inodeNumber
        if hidden then pure (.inl ()) else pure (.inr centry.inodeNumber)
      else pure (.inl ())
  match r with
  | .inr ino => pure ino
  | .inl _ => Prog.throw .notFound

theorem catalogLookup_run (hr : Ready v) (ho : Opens who accessRead v n) (hp : Proper name nameLen) :
    catalogLookup who n name nameLen v =
      searchEntry who (inodeAt v.dev.disk v.sb n) (nameBytes name nameLen) (inodeLoad n v).2 := by
  refine run_bind (run_failIf hp.not_refused) (run_bind (run_failIf (Nat.not_le.mpr hp.short)) ?_)
  rw [ho.run hr]
  rfl

theorem catalogInsert_run (hr : Ready v) (ho : Opens who accessWrite v n) (hadm : Admissible v name nameLen entryType)
    {v₁ : Vol} (hlook : catalogLookup who n name nameLen v = (.error e, v₁)) (target : UInt32) :
    catalogInsert who n name nameLen target entryType v =
      placeEntry n (freshEntry target entryType name nameLen) (inodeAt v.dev.disk v.sb n) (inodeLoad n v₁).2 := by
  have hs : Still v v₁ := by
    have hstill := (still_catalogLookup who n name nameLen v).state (I := fun v' => Still v v')
    rwa [hlook] at hstill
  have hr₁ : Ready v₁ := (hs.upholds (T := ∅) hr).ready
  obtain ⟨c, rfl⟩ := hs
  have ho₁ : Opens who accessWrite (v.atClock c) n := ⟨ho.inTable, ho.sum, ho.catalog, ho.access⟩
  have htype : ¬ (entryType ≠ entryFile ∧ entryType ≠ entryCatalog) := fun h => hadm.type.elim h.1 h.2
  have hvalid : ¬ (! owSutf8Validate (nameBytes name nameLen)) = true := by simp [hadm.valid]
  have hattempt : (Prog.attempt (catalogLookup who n name nameLen) : OwfsM (Except OwfsErr UInt32)) v =
      (.ok (.error e), v.atClock c) := by
    unfold Prog.attempt
    rw [hlook]
  refine run_bind (run_failIf hadm.proper.not_refused) (run_bind (run_failIf (Nat.not_le.mpr hadm.proper.short))
    (run_bind (run_failIf htype) (run_bind (run_failIf hvalid) (run_bind rfl ?_))))
  rw [hadm.writable]
  refine run_bind rfl (run_bind hattempt (run_bind (run_failIf Bool.false_ne_true) ?_))
  exact ho₁.run hr₁

theorem upholds_catalogRemove (who : OwIdentity) (n : UInt32) (name : Option (List UInt8)) (nameLen : Nat) :
    Preserves (Upholds {n}) (catalogRemove who n name nameLen) :=
  upholds_of_ready fun _ hr => (catalogRemove_spec hr who n name nameLen).mono (fun _ _ h _ => h.moved)
    (fun _ _ h => h.1.upholds)

theorem upholds_catalogInsert (who : OwIdentity) (n : UInt32) (name : Option (List UInt8)) (nameLen : Nat)
    (target : UInt32) (entryType : UInt8) :
    Preserves (Upholds {n}) (catalogInsert who n name nameLen target entryType) :=
  upholds_of_ready fun _ hr => (catalogInsert_spec hr who n name nameLen target entryType).mono
    (fun _ _ h _ => h.listed.moved) (fun _ _ h _ => h.unlisted.moved)

end

theorem upholds_catalogMake (who : OwIdentity) (entryType : UInt8) (parent : UInt32)
    (name : Option (List UInt8)) (nameLen : Nat) :
    Preserves (Upholds Set.univ) (catalogMake who entryType parent name nameLen) := by
  unfold catalogMake
  refine .bind (upholds_inodeAlloc _ _ _ _ _) fun ino =>
    .bind (upholds_univ (upholds_catalogInsert _ _ _ _ _ _)).attempt fun r => ?_
  cases r with
  | ok _ => exact .pure _
  | error e => exact .bind (upholds_univ (upholds_inodeFree _ _)).attempt fun _ => .throw _

/-! ## データの操作の全体 -/

/-- どのデータの操作も、どんな状態コードを返しても、ボリュームの条件を保つ。 -/
theorem upholds_dataOp (op : DataOp) : Preserves (Upholds Set.univ) op.run := by
  cases op with
  | inodeAlloc who entryType name nameLen parent => exact upholds_discard (upholds_inodeAlloc _ _ _ _ _)
  | inodeFree who n => exact upholds_univ (upholds_inodeFree who n)
  | inodeRead n => exact upholds_discard (upholds_of_still (still_inodeRead n))
  | catalogCreate who parent name nameLen => exact upholds_discard (upholds_catalogMake _ _ _ _ _)
  | catalogMkdir who parent name nameLen => exact upholds_discard (upholds_catalogMake _ _ _ _ _)
  | catalogInsert who catalog name nameLen target entryType => exact upholds_univ (upholds_catalogInsert _ _ _ _ _ _)
  | catalogRemove who catalog name nameLen => exact upholds_univ (upholds_catalogRemove _ _ _ _)
  | catalogLookup who catalog name nameLen =>
      exact upholds_discard (upholds_of_still (still_catalogLookup _ _ _ _))
  | catalogList who catalog maxEntries => exact upholds_discard (upholds_of_still (still_catalogList _ _ _))
  | fileRead who n offset len =>
      exact upholds_of_still ((still_inodeRead n).bind fun ino =>
        (still_fileRead who ino offset len).bind fun _ => .pure _)
  | fileWrite who n buf offset len fits => exact upholds_univ (upholds_fileWrite who n fits)
  | fileTruncate who n newSize => exact upholds_univ (upholds_fileTruncate who n newSize)

end OwStorage.Owfs
