import OwStorage.Lib.Refine
import OwStorage.Owfs.Lemmas.Objects
import OwStorage.Owfs.Theorems.UniqueNames

/-!
# ファイルとカタログの保管庫

OWFS のボリュームへのどの呼び出しの列も、番号からファイルとカタログへの部分写像の上の一歩の列である。マウント、同期、検査は写像を
動かさない。失敗した呼び出しが何かを残すのは、番号が記録に収まらない主体の作成だけである。
-/

namespace OwStorage.Owfs

open Lib Prog

/-- 作成の呼び出し。 -/
def MakeOp.data (op : MakeOp) (who : OwIdentity) (parent : UInt32) (name : Option (List UInt8))
    (nameLen : Nat) : DataOp :=
  match op with
  | create => .catalogCreate who parent name nameLen
  | mkdir => .catalogMkdir who parent name nameLen

/-- 表すものに触れない呼び出し。 -/
def ApiOp.Observes : ApiOp → Prop
  | data (.inodeRead _) => True
  | data (.catalogLookup _ _ _ _) => True
  | data (.catalogList _ _ _) => True
  | data (.fileRead _ _ _ _) => True
  | life _ => True
  | _ => False

/-- 鍵を変える呼び出し。 -/
def ApiOp.Rekeys : ApiOp → Prop
  | cryptoSetKey _ => True
  | cryptoPurge => True
  | _ => False

/-- 作成と登録の名前の緩衝域は、名前の長さを持つ。 -/
def ApiOp.Holds : ApiOp → Prop
  | data (.catalogCreate _ _ name nameLen) => HoldsName name nameLen
  | data (.catalogMkdir _ _ name nameLen) => HoldsName name nameLen
  | data (.catalogInsert _ _ name nameLen _ _) => HoldsName name nameLen
  | _ => True

/-- 保管庫の一歩。 -/
inductive ObjectStep (s : Objects) : ApiOp × Except OwfsErr Unit → Objects → Prop
  | failed (op : ApiOp) (err : OwfsErr) : ObjectStep s (op, .error err) s
  | orphaned {op : MakeOp} {who : OwIdentity} {parent n : UInt32} {name : Option (List UInt8)} {nameLen : Nat}
      {err : OwfsErr} (hwho : ¬ Recordable who) (hnew : s n = none) :
      ObjectStep s (.data (op.data who parent name nameLen), .error err)
        (Function.update s n (some (Object.fresh op.entryType)))
  | observed {op : ApiOp} (hop : op.Observes) : ObjectStep s (op, .ok ()) s
  | allocated {who : OwIdentity} {entryType : UInt8} {name : Option (List UInt8)} {nameLen : Nat} {parent n : UInt32}
      (hnew : s n = none) :
      ObjectStep s (.data (.inodeAlloc who entryType name nameLen parent), .ok ())
        (Function.update s n (some (Object.fresh entryType)))
  | made {op : MakeOp} {who : OwIdentity} {parent n : UInt32} {name : Option (List UInt8)} {nameLen : Nat}
      (hnew : s n = none) :
      ObjectStep s (.data (op.data who parent name nameLen), .ok ())
        (Objects.enter (Function.update s n (some (Object.fresh op.entryType))) parent
          ⟨nameBytes name nameLen, n, op.entryType⟩)
  | freed {who : OwIdentity} {n : UInt32} :
      ObjectStep s (.data (.inodeFree who n), .ok ()) (Function.update s n none)
  | inserted {who : OwIdentity} {c target : UInt32} {name : Option (List UInt8)} {nameLen : Nat} {entryType : UInt8} :
      ObjectStep s (.data (.catalogInsert who c name nameLen target entryType), .ok ())
        (s.enter c ⟨nameBytes name nameLen, target, entryType⟩)
  | removed {who : OwIdentity} {c : UInt32} {name : Option (List UInt8)} {nameLen : Nat} {l : Link}
      {ls : Multiset Link} (hold : s c = some (.catalog (l ::ₘ ls))) (hname : l.name = nameBytes name nameLen) :
      ObjectStep s (.data (.catalogRemove who c name nameLen), .ok ()) (Function.update s c (some (.catalog ls)))
  | removedDead {who : OwIdentity} {c : UInt32} {name : Option (List UInt8)} {nameLen : Nat} (hold : s c = none) :
      ObjectStep s (.data (.catalogRemove who c name nameLen), .ok ()) s
  | written {who : OwIdentity} {n : UInt32} {buf : List UInt8} {offset len : UInt32} {fits : len.toNat ≤ buf.length}
      {old new : List UInt8} (hold : s n = some (.file old)) (hidle : len = 0 → new = old)
      (hnew : len ≠ 0 → Overlaid old offset.toNat (buf.take len.toNat) new) :
      ObjectStep s (.data (.fileWrite who n buf offset len fits), .ok ()) (Function.update s n (some (.file new)))
  | writtenDead {who : OwIdentity} {n : UInt32} {buf : List UInt8} {offset len : UInt32}
      {fits : len.toNat ≤ buf.length} (hold : s n = none) :
      ObjectStep s (.data (.fileWrite who n buf offset len fits), .ok ()) s
  | truncated {who : OwIdentity} {n newSize : UInt32} {old : List UInt8} (hold : s n = some (.file old)) :
      ObjectStep s (.data (.fileTruncate who n newSize), .ok ())
        (Function.update s n (some (.file (old.take newSize.toNat))))
  | truncatedDead {who : OwIdentity} {n newSize : UInt32} (hold : s n = none) :
      ObjectStep s (.data (.fileTruncate who n newSize), .ok ()) s
  | rekeyed {op : ApiOp} {r : Except OwfsErr Unit} {t : Objects} (hop : op.Rekeys)
      (h : ∀ n, Scrambled (s n) (t n)) : ObjectStep s (op, r) t

/-! ## 一回の呼び出し -/

section

variable {v v' : Vol} {op : ApiOp}

/-- 呼び出しの前後の状態が、保管庫の一歩である。 -/
def Stepped (v : Vol) (op : ApiOp) (r : Except OwfsErr Unit) (v' : Vol) : Prop :=
  WellNamed v' ∧ ObjectStep (objects v) (op, r) (objects v')

theorem stepped_of_wp (op : ApiOp)
    (h : wp op.run (fun _ v' => Stepped v op (.ok ()) v') (fun e v' => Stepped v op (.error e) v') v) :
    Stepped v op (op.run v).1 (op.run v).2 := by
  unfold wp at h
  generalize op.run v = out at h ⊢
  rcases out with ⟨_ | _, v'⟩
  · exact h
  · exact h

theorem Shifts.stepped {t : Objects} {r : Except OwfsErr Unit} (h : Shifts v v' t) (hl : WellNamed v)
    (hstep : ObjectStep (objects v) (op, r) t) : Stepped v op r v' := by
  refine ⟨h.named hl, ?_⟩
  rw [h.after]
  exact hstep

theorem Shifts.failed {e : OwfsErr} (h : Shifts v v' (objects v)) (hl : WellNamed v) : Stepped v op (.error e) v' :=
  h.stepped hl (.failed op e)

/-- 何も動かさない操作。 -/
theorem stepped_of_still (hl : WellNamed v) (hop : op.Observes) (h : Preserves Still op.run) :
    Stepped v op (op.run v).1 (op.run v).2 :=
  stepped_of_wp op ((h v).mono (fun _ _ hs => hs.shifts.stepped hl (.observed hop)) (fun _ _ hs => hs.shifts.failed hl))

/-- 作成の一歩。 -/
theorem stepped_make (hr : Ready v) (hl : WellNamed v) (op : MakeOp) (who : OwIdentity) (parent : UInt32)
    {name : Option (List UInt8)} {nameLen : Nat} (hname : HoldsName name nameLen)
    (hrun : (op.data who parent name nameLen).run = discard (catalogMake who op.entryType parent name nameLen)) :
    Stepped v (.data (op.data who parent name nameLen)) ((op.data who parent name nameLen).run v).1
      ((op.data who parent name nameLen).run v).2 := by
  refine stepped_of_wp (.data (op.data who parent name nameLen)) ?_
  change wp (op.data who parent name nameLen).run _ _ v
  rw [hrun]
  unfold discard
  simp only [wp_bind, wp_pure]
  refine (catalogMake_shifts hr hname).mono ?_ ?_
  · rintro n v' ⟨hnew, hshift⟩
    exact hshift.stepped hl (.made hnew)
  · rintro e v' (hshift | ⟨hwho, n, hnew, hshift⟩)
    · exact hshift.failed hl
    · exact hshift.stepped hl (.orphaned hwho hnew)

/-- ファイルとカタログの操作。 -/
theorem Intact.stepped_data (h : Intact v) (hl : WellNamed v) (op : DataOp) (hholds : (ApiOp.data op).Holds) :
    Stepped v (.data op) (op.run v).1 (op.run v).2 := by
  have hr := h.toReady
  cases op with
  | inodeAlloc who entryType name nameLen parent =>
      refine stepped_of_wp (.data (.inodeAlloc who entryType name nameLen parent)) ?_
      change wp (discard (inodeAlloc who entryType name nameLen parent)) _ _ v
      unfold discard
      simp only [wp_bind, wp_pure]
      refine (inodeAlloc_spec hr who entryType name nameLen parent).mono ?_ (fun _ _ hs => hs.shifts.failed hl)
      intro n v' halloc
      obtain ⟨hnew, hshift⟩ := halloc.shifts hr
      exact hshift.stepped hl (.allocated hnew)
  | inodeFree who n =>
      exact stepped_of_wp (.data (.inodeFree who n)) ((inodeFree_spec hr who n).mono
        (fun _ _ hfreed => (hfreed.shifts hr).stepped hl .freed) (fun _ _ hs => hs.shifts.failed hl))
  | inodeRead n => exact stepped_of_still hl trivial ((still_inodeRead n).bind fun _ => .pure _)
  | catalogCreate who parent name nameLen => exact stepped_make hr hl .create who parent hholds rfl
  | catalogMkdir who parent name nameLen => exact stepped_make hr hl .mkdir who parent hholds rfl
  | catalogInsert who c name nameLen target entryType =>
      exact stepped_of_wp (.data (.catalogInsert who c name nameLen target entryType))
        ((catalogInsert_spec hr who c name nameLen target entryType).mono
          (fun _ _ hins => (hins.shifts hr hholds).stepped hl .inserted)
          (fun _ _ href => (href.unlisted.shifts hr).failed hl))
  | catalogRemove who c name nameLen =>
      refine stepped_of_wp (.data (.catalogRemove who c name nameLen))
        ((catalogRemove_spec hr who c name nameLen).mono ?_ (fun _ _ hs => hs.1.shifts.failed hl))
      intro _ v' hrem
      rcases hrem.shifts hr hl with ⟨l, ls, hold, hname, hshift⟩ | ⟨hold, hshift⟩
      · exact hshift.stepped hl (.removed hold hname)
      · exact hshift.stepped hl (.removedDead hold)
  | catalogLookup who c name nameLen =>
      exact stepped_of_still hl trivial ((still_catalogLookup who c name nameLen).bind fun _ => .pure _)
  | catalogList who c maxEntries =>
      exact stepped_of_still hl trivial ((still_catalogList who c maxEntries).bind fun _ => .pure _)
  | fileRead who n offset len =>
      exact stepped_of_still hl trivial ((still_inodeRead n).bind fun ino =>
        (still_fileRead who ino offset len).bind fun _ => .pure _)
  | fileWrite who n buf offset len fits =>
      refine stepped_of_wp (.data (.fileWrite who n buf offset len fits))
        ((fileWrite_shifts hr h.exact who fits).mono ?_ (fun _ _ hs => hs.failed hl))
      intro _ v' hwrite
      cases hwrite with
      | file hold hidle hnew hshift => exact hshift.stepped hl (.written hold hidle hnew)
      | dead hold hshift => exact hshift.stepped hl (.writtenDead hold)
  | fileTruncate who n newSize =>
      refine stepped_of_wp (.data (.fileTruncate who n newSize))
        ((fileTruncate_shifts hr who n newSize).mono ?_ (fun _ _ hs => hs.failed hl))
      intro _ v' hcut
      cases hcut with
      | file hold hshift => exact hshift.stepped hl (.truncated hold)
      | dead hold hshift => exact hshift.stepped hl (.truncatedDead hold)

/-- どの呼び出しも、保管庫の一歩である。 -/
theorem Intact.stepped (h : Intact v) (hl : WellNamed v) (op : ApiOp) (hflushed : Flushed (event ApiOp.run op v))
    (hholds : op.Holds) : Stepped v op (op.run v).1 (op.run v).2 := by
  have hr := h.toReady
  cases op with
  | data op => exact h.stepped_data hl op hholds
  | life op =>
      have hobs : ApiOp.Observes (.life op) := trivial
      have hkeep : wp op.run (fun _ v' => KeepsObjects v v') (fun _ v' => KeepsObjects v v') v := by
        by_cases hop : op = .mount
        · subst hop
          have hdisk : diskSb v = v.sb := hflushed rfl
          refine bookkeeping_objects.mounted fun c => ?_
          rw [hdisk]
          exact keepsObjects_resave (refl_of SameLedger v.sb) .atClock
        · exact bookkeeping_objects.lifeOp hop v
      exact stepped_of_wp (.life op) (hkeep.mono
        (fun _ _ hk => (hk hr).2.stepped hl (.observed hobs)) (fun _ _ hk => (hk hr).2.failed hl))
  | cryptoSetKey key =>
      exact stepped_of_wp (.cryptoSetKey key) ((housekeeping_scrambles.cryptoSetKey key v).mono
        (fun _ _ hk => ⟨(hk hr).2.2 hl, .rekeyed trivial (hk hr).2.1⟩)
        (fun _ _ hk => ⟨(hk hr).2.2 hl, .rekeyed trivial (hk hr).2.1⟩))
  | cryptoPurge =>
      exact stepped_of_wp .cryptoPurge ((housekeeping_scrambles.cryptoPurge v).mono
        (fun _ _ hk => ⟨(hk hr).2.2 hl, .rekeyed trivial (hk hr).2.1⟩)
        (fun _ _ hk => ⟨(hk hr).2.2 hl, .rekeyed trivial (hk hr).2.1⟩))

end

/-! ## 読み出し -/

/-- 番号 `n` の inode を読み直して、ファイルを読む。 -/
def readNumber (who : OwIdentity) (n offset len : UInt32) : OwfsM (List UInt8) := do
  let ino ← inodeRead n
  fileRead who ino offset len

/-- 読むだけの呼び出しは、保管庫 `s` の通りに答える。 -/
structure Answers (v : Vol) (s : Objects) : Prop where
  read : ∀ who n offset len bytes, s n = some (.file bytes) →
    (readNumber who n offset len v).1 = .ok ((bytes.drop offset.toNat).take len.toNat) ∨
      ∃ e, (readNumber who n offset len v).1 = .error e ∧ who.uid ≠ 0
  lookup : ∀ who c name nameLen ls, who.uid = 0 → s c = some (.catalog ls) → Proper name nameLen →
    (∃ l ∈ ls, l.name = nameBytes name nameLen ∧ (catalogLookup who c name nameLen v).1 = .ok l.target) ∨
      (catalogLookup who c name nameLen v).1 = .error .notFound ∧ ∀ l ∈ ls, l.name ≠ nameBytes name nameLen
  list : ∀ who c maxEntries ls, who.uid = 0 → s c = some (.catalog ls) → maxEntries ≠ 0 →
    ∃ l, (catalogList who c maxEntries v).1 = .ok l ∧ (l.map CatalogEntry.link : Multiset Link) ≤ ls ∧
      l.length = min maxEntries.toNat (Multiset.card ls)

section

variable {v : Vol} {who : OwIdentity} {c n offset len maxEntries : UInt32} {bytes : List UInt8} {ls : Multiset Link}
  {name : Option (List UInt8)} {nameLen : Nat}

theorem mem_links {l : Link} : l ∈ links v c ↔ ∃ a ∈ contents v c, a.link = l := by
  unfold links
  rw [Multiset.mem_coe, List.mem_map]

/-- 特権の主体は、どのカタログも開ける。 -/
theorem Intact.opens (h : Intact v) (hroot : who.uid = 0) (hn : c.toNat < v.sb.totalInodes.toNat)
    (ht : (inodeAt v.dev.disk v.sb c).entryType = entryCatalog) (want : UInt8) : Opens who want v c := by
  refine ⟨hn, h.sums c hn ?_, ?_, by simp [inodeAccessCheck, owSecAccess_superuser hroot]⟩
  · rw [ht]
    decide
  · rw [ht]
    decide

theorem Intact.readNumber_answers (h : Intact v) (hobj : objects v n = some (.file bytes)) :
    (readNumber who n offset len v).1 = .ok ((bytes.drop offset.toNat).take len.toNat) ∨
      ∃ e, (readNumber who n offset len v).1 = .error e ∧ who.uid ≠ 0 := by
  have hr := h.toReady
  obtain ⟨hn, ht, rfl⟩ := file_of_objects hobj
  have hlive : (inodeAt v.dev.disk v.sb n).entryType ≠ 0 := by
    rw [ht]
    decide
  have hwp : wp (readNumber who n offset len)
      (fun out _ => out = ((fileContent v.dev.disk v.sb (inodeAt v.dev.disk v.sb n)).drop offset.toNat).take len.toNat)
      (fun _ _ => who.uid ≠ 0) v := by
    unfold readNumber
    rw [wp_bind]
    refine wp_inodeRead_ok hr hn (h.sums n hn hlive) fun k => ?_
    refine (fileRead_spec (v := v.atClock k) (hr.sound.fresh hlive) hn who offset len).mono (fun _ _ hs => hs.2) ?_
    rintro e v' ⟨_, hbad⟩ hroot
    rcases hbad ⟨hr.faultFree, hr.serves.readsData⟩ with hno | hno
    · rw [ht] at hno
      exact absurd hno (by decide)
    · exact hno (by simp [inodeAccessCheck, owSecAccess_superuser hroot])
  unfold wp at hwp
  generalize readNumber who n offset len v = out at hwp ⊢
  rcases out with ⟨e | bytes, v'⟩
  · exact .inr ⟨e, rfl, hwp⟩
  · exact .inl (congrArg Except.ok hwp)

theorem Intact.lookup_answers (h : Intact v) (hl : WellNamed v) (hroot : who.uid = 0)
    (hobj : objects v c = some (.catalog ls)) (hp : Proper name nameLen) :
    (∃ l ∈ ls, l.name = nameBytes name nameLen ∧ (catalogLookup who c name nameLen v).1 = .ok l.target) ∨
      (catalogLookup who c name nameLen v).1 = .error .notFound ∧ ∀ l ∈ ls, l.name ≠ nameBytes name nameLen := by
  obtain ⟨hn, ht, rfl⟩ := catalog_of_objects hobj
  have hleg := hl.legible hn ht
  have hspec := catalogLookup_spec h.toReady who c name nameLen
  unfold wp at hspec
  generalize catalogLookup who c name nameLen v = out at hspec ⊢
  rcases out with ⟨e | i, v'⟩
  · obtain ⟨_, hmiss⟩ := hspec
    obtain ⟨rfl, hun⟩ := hmiss hp (h.opens hroot hn ht accessRead)
    refine .inr ⟨rfl, fun l hmem hname => ?_⟩
    obtain ⟨a, ha, rfl⟩ := mem_links.mp hmem
    have hgood := hl c hn ht a ha
    have hhid := hun hleg a ha hgood.sum (hgood.answers.mpr hname)
    rw [hiddenAt_superuser hroot] at hhid
    cases hhid
  · obtain ⟨_, _, _, hfound⟩ := hspec
    obtain ⟨a, ha, _, hans, rfl, _⟩ := hfound hleg
    exact .inl ⟨a.link, mem_links.mpr ⟨a, ha, rfl⟩, (hl c hn ht a ha).answers.mp hans, rfl⟩

theorem Intact.list_answers (h : Intact v) (hl : WellNamed v) (hroot : who.uid = 0)
    (hobj : objects v c = some (.catalog ls)) (hmax : maxEntries ≠ 0) :
    ∃ l, (catalogList who c maxEntries v).1 = .ok l ∧ (l.map CatalogEntry.link : Multiset Link) ≤ ls ∧
      l.length = min maxEntries.toNat (Multiset.card ls) := by
  obtain ⟨hn, ht, rfl⟩ := catalog_of_objects hobj
  obtain ⟨l, v', hrun, ⟨_, rfl⟩, _⟩ := ((catalogList_spec h.toReady who c maxEntries).mono (fun _ _ hs => hs)
    fun _ _ hno => absurd ⟨hmax, h.opens hroot hn ht accessRead⟩ hno.2).exists_ok
  have hall : (contents v c).filter (visible who v) = contents v c := by
    refine List.filter_eq_self.mpr fun a ha => ?_
    unfold visible
    rw [(hl c hn ht a ha).sum, hiddenAt_superuser hroot]
    rfl
  rw [hall] at hrun
  refine ⟨(contents v c).take maxEntries.toNat, congrArg Prod.fst hrun, ?_, ?_⟩
  · unfold links
    rw [Multiset.coe_le, List.map_take]
    exact (List.take_sublist _ _).subperm
  · unfold links
    rw [List.length_take, Multiset.coe_card, List.length_map]

theorem Intact.answers (h : Intact v) (hl : WellNamed v) : Answers v (objects v) where
  read := fun _ _ _ _ _ hobj => h.readNumber_answers hobj
  lookup := fun _ _ _ _ _ hroot hobj hp => h.lookup_answers hl hroot hobj hp
  list := fun _ _ _ _ hroot hobj hmax => h.list_answers hl hroot hobj hmax

end

/-! ## フォーマットした直後 -/

section

variable {d₀ d : HtlDevice} {totalBlocks : UInt32} {label : Option (List UInt8)} {v : Vol}

/-- 根の inode の種類は、ちょうどカタログである。 -/
theorem formatRoot_type (hl : Layout v.sb) :
    wp formatRoot
      (fun _ v' => Layout v'.sb ∧ (0 : UInt32).toNat < v'.sb.totalInodes.toNat ∧
        (inodeAt v'.dev.disk v'.sb 0).entryType = entryCatalog) (fun _ _ => True) v := by
  have hshape : ∀ {u u' : Vol}, Spends u u' → SameShape u.sb u'.sb := by
    rintro u u' ⟨k, hk⟩
    exact ⟨k, u.sb.freeInodes, hk⟩
  unfold formatRoot
  rw [wp_bind]
  refine (spends_bitmapAlloc v).mono ?_ (fun _ _ _ => trivial)
  intro b v₁ hs₁
  rw [wp_bind, wp_attempt]
  refine (spends_zeroBlk b v₁).mono ?_ ?_
  · intro _ v₂ hs₂
    have hl₂ : Layout v₂.sb := (hshape hs₂).layout ((hshape hs₁).layout hl)
    simp only [wp_bind, wp_pure, wp_withInode]
    refine (inodeWrite_spec hl₂ 0).mono ?_ (fun _ _ _ => trivial)
    rintro _ s' ⟨_, hrec⟩
    have hrow := hrec.table 0 hrec.inTable
    rw [if_pos rfl] at hrow
    rw [hrec.sb, hrow]
    exact ⟨hl₂, hrec.inTable, rfl⟩
  · intro e v₂ _
    simp only [wp_bind, wp_attempt, wp_throw]
    exact wp_trivial

/-- フォーマットの本体を終えたボリュームの根。 -/
theorem formatBody_type {nonce : Bytes 12} (hmin : ¬ totalBlocks < 275)
    (hfit : ¬ totalBlocks ≤ 17 + layoutBitmapBlocks totalBlocks + 256) :
    wp formatBody (fun _ v' => (inodeAt v'.dev.disk v'.sb 0).entryType = entryCatalog) (fun _ _ => True)
      ⟨d, freshSuperblock totalBlocks label nonce⟩ := by
  have hlayout := layout_freshSuperblock label nonce hmin hfit
  change (freshSuperblock totalBlocks label nonce).bitmapBlockCount ≠ 0 → _ at hlayout
  generalize freshSuperblock totalBlocks label nonce = sb at *
  unfold formatBody
  rw [wp_bind]
  refine (bitmapInit_spec (v := ⟨d, sb⟩) hlayout).mono ?_ (fun _ _ h => h)
  rintro _ v₁ ⟨hl, _, hbit⟩
  have hl₁ : Layout v₁.sb := by
    rw [hbit.sb]
    exact hl
  have hdata := hl₁.dataAfter
  have hne := hl₁.dataNonempty
  have hlt := v₁.sb.totalBlocks.toNat_lt
  rw [wp_bind, wp_get, wp_bind]
  refine (wp_zeroFill v₁.sb.inodeTableStart (n := v₁.sb.inodeTableBlocks.toNat) (by omega) fun i u =>
    wp_writeBlk (fun c hw => ⟨hw, c, rfl⟩) (fun _ _ _ _ => trivial)).mono ?_ (fun _ _ h => h)
  intro _ v₂ hzero
  have hl₂ : Layout v₂.sb := by
    rw [hzero.sb]
    exact hl₁
  rw [wp_bind]
  refine (formatRoot_type hl₂).mono ?_ (fun _ _ h => h)
  rintro _ v₃ ⟨hl₃, hn, htype⟩
  refine (syncChanges_spec hl₃).mono ?_ (fun _ _ _ => trivial)
  rintro _ _ ⟨sum, c, c', rfl, _⟩
  have hledger : SameLedger v₃.sb (syncedSb v₃.sb sum).sealed := trans_of SameLedger (.synced v₃.sb sum) (.sealed _)
  have hdev : v₃.dev.Evolves {superblockBlock} ((Vol.saved { v₃ with sb := syncedSb v₃.sb sum } c).atClock c').dev :=
    (evolves_saved (v := { v₃ with sb := syncedSb v₃.sb sum })).trans .atClock
  rw [resave_inodeAt hl₃ hledger hdev hn]
  exact htype

theorem rooted_of_formatVolume (h : formatVolume totalBlocks label d₀ = (.ok (), d)) :
    ∃ sb, Formatted ⟨d, sb⟩ ∧ Blank ⟨d, sb⟩ ∧ (inodeAt d.disk sb 0).entryType = entryCatalog := by
  have hwp : wp (formatVolume totalBlocks label)
      (fun _ d => ∃ sb, Formatted ⟨d, sb⟩ ∧ Blank ⟨d, sb⟩ ∧ (inodeAt d.disk sb 0).entryType = entryCatalog)
      (fun _ _ => True) d₀ := by
    unfold formatVolume
    simp only [wp_bind, wp_get, wp_failIf, wp_attempt, wp_withSuperblock]
    refine ⟨fun _ => trivial, fun hsize => ⟨fun _ => trivial, fun hcap => ⟨fun _ => trivial, fun hmin =>
      ⟨fun _ => trivial, fun hfit => ?_⟩⟩⟩⟩
    have hbody : ∀ nonce, wp formatBody (fun _ v => ∃ sb, Formatted ⟨v.dev, sb⟩ ∧ Blank ⟨v.dev, sb⟩ ∧
        (inodeAt v.dev.disk sb 0).entryType = entryCatalog) (fun _ _ => True)
        ⟨d₀, freshSuperblock totalBlocks label nonce⟩ := fun nonce =>
      ((formatBody_spec (not_not.mp hsize) hcap hmin hfit).and (formatBody_type hmin hfit)).mono
        (fun _ v hv => ⟨v.sb, hv.1.1, hv.1.2.1, hv.2⟩) (fun _ _ _ => trivial)
    exact wp_htlGetEntropy (fun nonce => hbody nonce) (fun _ => hbody _)
  exact hwp.ok h

/-- 開いたばかりのボリュームには、空の根のカタログだけがある。 -/
theorem objects_of_opened (hformat : formatVolume totalBlocks label d₀ = (.ok (), d))
    (hopen : Opened d v) :
    objects v = Function.update (fun _ => none) 0 (some (.catalog 0)) ∧ WellNamed v := by
  obtain ⟨sb, hfmt, hblank, htype⟩ := rooted_of_formatVolume hformat
  obtain ⟨hsb, hdev⟩ := resaved_of_opened hfmt hopen
  obtain ⟨hblank', _⟩ := blank_of_opened hformat hopen
  have htype' : (inodeAt v.dev.disk v.sb 0).entryType = entryCatalog := by
    rw [resave_inodeAt (v := ⟨d, sb⟩) hfmt.sound.layout hsb hdev hblank.inTable]
    exact htype
  have hempty : contents v 0 = [] :=
    hblank'.contents_eq_nil hblank'.inTable (type_ne_zero_of_live hblank'.root)
  refine ⟨?_, fun n hn ht a ha => ?_⟩
  · funext n
    by_cases hz : n = 0
    · rw [hz, Function.update_self, objects_catalog hblank'.inTable htype']
      unfold links
      rw [hempty]
      rfl
    · rw [Function.update_of_ne hz]
      by_cases hn : n.toNat < v.sb.totalInodes.toNat
      · refine objects_vacant ?_
        unfold slotVacant
        rw [hblank'.others n hn hz]
        rfl
      · unfold objects
        rw [if_neg hn]
  · obtain rfl : n = 0 := hblank'.eq_root hn (by rw [ht]; decide)
    rw [hempty] at ha
    cases ha

end

/-! ## 小さなボリュームの例 -/

theorem two_bytes_fit : (2 : UInt32).toNat ≤ [(7 : UInt8), 9].length := by decide

/-- 作って、書いて、同期して、鍵を消す。 -/
def storeOps : List ApiOp :=
  [.data (.catalogCreate ⟨0, 0⟩ 0 (some [0x61]) 1), .data (.fileWrite ⟨0, 0⟩ 1 [7, 9] 0 2 two_bytes_fit),
    .life .syncChanges, .cryptoPurge]

end OwStorage.Owfs
