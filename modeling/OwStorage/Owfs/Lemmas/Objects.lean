import OwStorage.Lib.Store
import OwStorage.Owfs.Lemmas.Reach
import OwStorage.Owfs.Lemmas.WriteCost
import OwStorage.Owfs.Theorems.Deleted
import OwStorage.Owfs.Theorems.FailedCreation
import OwStorage.Owfs.Theorems.Gap
import OwStorage.Owfs.Theorems.NameMap
import OwStorage.Owfs.Theorems.Shrink

/-!
# ボリュームの表すもの

OWFS のボリュームは、番号から、ファイルのバイト列かカタログのつながりの集まりへの部分写像を表す。inode の表、ビットマップ、
間接ブロック、暗号はこの写像には現れない。操作ごとに、この写像がどう変わるかを求める。
-/

namespace OwStorage.Owfs

open Lib Prog

/-- カタログの項目の表すつながり。 -/
structure Link where
  name : List UInt8
  target : UInt32
  kind : UInt8

inductive Object where
  | file (bytes : List UInt8)
  | catalog (links : Multiset Link)

abbrev Objects : Type := UInt32 → Option Object

/-- 作られたばかりのもの。 -/
def Object.fresh (entryType : UInt8) : Object := if entryType = entryFile then .file [] else .catalog 0

/-- カタログ `c` につながりを一つ加える。`c` がカタログでなければ、何も加えない。 -/
def Objects.enter (s : Objects) (c : UInt32) (l : Link) : Objects :=
  match s c with
  | some (.catalog links) => Function.update s c (some (.catalog (l ::ₘ links)))
  | _ => s

def CatalogEntry.link (a : CatalogEntry) : Link := ⟨a.storedName, a.inodeNumber, a.entryType⟩

/-- カタログの生きた項目のつながり。 -/
def links (v : Vol) (n : UInt32) : Multiset Link := ((contents v n).map CatalogEntry.link : List Link)

/-- inode の表すもの。消された inode と使われていない inode には、何もない。 -/
def objects (v : Vol) : Objects := fun n =>
  if n.toNat < v.sb.totalInodes.toNat then
    if (inodeAt v.dev.disk v.sb n).entryType = entryFile then
      some (.file (fileContent v.dev.disk v.sb (inodeAt v.dev.disk v.sb n)))
    else if (inodeAt v.dev.disk v.sb n).entryType = entryCatalog then some (.catalog (links v n))
    else none
  else none

section

variable {v v' : Vol} {n : UInt32} {bytes : List UInt8} {ls : Multiset Link}

theorem objects_file (hn : n.toNat < v.sb.totalInodes.toNat) (ht : (inodeAt v.dev.disk v.sb n).entryType = entryFile) :
    objects v n = some (.file (fileContent v.dev.disk v.sb (inodeAt v.dev.disk v.sb n))) := by
  unfold objects
  rw [if_pos hn, if_pos ht]

theorem objects_catalog (hn : n.toNat < v.sb.totalInodes.toNat)
    (ht : (inodeAt v.dev.disk v.sb n).entryType = entryCatalog) : objects v n = some (.catalog (links v n)) := by
  unfold objects
  rw [if_pos hn, ht, if_neg (by decide), if_pos rfl]

theorem objects_other (hfile : (inodeAt v.dev.disk v.sb n).entryType ≠ entryFile)
    (hcat : (inodeAt v.dev.disk v.sb n).entryType ≠ entryCatalog) : objects v n = none := by
  unfold objects
  rw [if_neg hfile, if_neg hcat, ite_self]

theorem objects_vacant (h : slotVacant (inodeAt v.dev.disk v.sb n) = true) : objects v n = none := by
  refine objects_other ?_ ?_
  · intro ht
    unfold slotVacant at h
    rw [ht] at h
    exact absurd h (by decide)
  · intro ht
    unfold slotVacant at h
    rw [ht] at h
    exact absurd h (by decide)

/-- ファイルであるのは、種類がちょうどファイルの inode である。 -/
theorem file_of_objects (h : objects v n = some (.file bytes)) : n.toNat < v.sb.totalInodes.toNat ∧
    (inodeAt v.dev.disk v.sb n).entryType = entryFile ∧
    bytes = fileContent v.dev.disk v.sb (inodeAt v.dev.disk v.sb n) := by
  unfold objects at h
  split at h
  · split at h
    · exact ⟨‹_›, ‹_›, by cases h; rfl⟩
    · split at h <;> cases h
  · cases h

theorem catalog_of_objects (h : objects v n = some (.catalog ls)) : n.toNat < v.sb.totalInodes.toNat ∧
    (inodeAt v.dev.disk v.sb n).entryType = entryCatalog ∧ ls = links v n := by
  unfold objects at h
  split at h
  · split at h
    · cases h
    · split at h
      · exact ⟨‹_›, ‹_›, by cases h; rfl⟩
      · cases h
  · cases h

end

/-! ## 変わらないもの -/

section

variable {v v' v'' : Vol} {T : Set UInt32} {c n : UInt32}

/-- 記録とカタログの項目が同じなら、表すものの違いは、ファイルの内容の違いだけである。 -/
theorem objects_rel {P : Option Object → Option Object → Prop} (htot : v'.sb.totalInodes = v.sb.totalInodes)
    (hrec : n.toNat < v.sb.totalInodes.toNat → inodeAt v'.dev.disk v'.sb n = inodeAt v.dev.disk v.sb n)
    (hcont : n.toNat < v.sb.totalInodes.toNat → (inodeAt v.dev.disk v.sb n).entryType = entryCatalog →
      contents v' n = contents v n) (hsame : ∀ x, P x x)
    (hfile : n.toNat < v.sb.totalInodes.toNat → (inodeAt v.dev.disk v.sb n).entryType = entryFile →
      P (some (.file (fileContent v.dev.disk v.sb (inodeAt v.dev.disk v.sb n))))
        (some (.file (fileContent v'.dev.disk v'.sb (inodeAt v.dev.disk v.sb n))))) :
    P (objects v n) (objects v' n) := by
  by_cases hn : n.toNat < v.sb.totalInodes.toNat
  · have hn' : n.toNat < v'.sb.totalInodes.toNat := by rwa [htot]
    have hrec := hrec hn
    by_cases ht : (inodeAt v.dev.disk v.sb n).entryType = entryFile
    · rw [objects_file hn ht, objects_file hn' (by rwa [hrec]), hrec]
      exact hfile hn ht
    · by_cases hcat : (inodeAt v.dev.disk v.sb n).entryType = entryCatalog
      · rw [objects_catalog hn hcat, objects_catalog hn' (by rwa [hrec])]
        unfold links
        rw [hcont hn hcat]
        exact hsame _
      · rw [objects_other ht hcat, objects_other (by rwa [hrec]) (by rwa [hrec])]
        exact hsame _
  · unfold objects
    rw [htot, if_neg hn, if_neg hn]
    exact hsame _

theorem Spares.contents_eq (h : Spares T v v') (hw : WellFormed v) (hn : n.toNat < v.sb.totalInodes.toNat) (hT : n ∉ T)
    (hcat : (inodeAt v.dev.disk v.sb n).entryType = entryCatalog) : contents v' n = contents v n := by
  refine h.entries_eq hw hn hT ?_
  rw [hcat]
  decide

/-- 触れない inode の表すものは、暗号の鍵が同じなら変わらない。 -/
theorem Spares.objects_eq (h : Spares T v v') (hw : WellFormed v) (htot : v'.sb.totalInodes = v.sb.totalInodes)
    (hcipher : ∀ ino buf b, cryptoXform v'.sb ino buf b = cryptoXform v.sb ino buf b) (hT : n ∉ T) :
    objects v' n = objects v n := by
  refine objects_rel (P := fun x y => y = x) htot (fun hn => h.record n hn hT) (fun hn => h.contents_eq hw hn hT)
    (fun _ => rfl) fun hn hfile => ?_
  congr 2
  refine pages_congr fun i hi => ?_
  obtain ⟨hmap, hblk⟩ := h.mapped_eq hw hn hT (by rw [hfile]; decide) hi
  unfold plainBlock
  rw [hmap, hblk, hcipher]

/-- 鍵の変わったボリュームでは、ファイルのバイトだけが、長さを保って変わる。 -/
inductive Scrambled : Option Object → Option Object → Prop
  | same (x : Option Object) : Scrambled x x
  | file {b b' : List UInt8} (h : b'.length = b.length) : Scrambled (some (.file b)) (some (.file b'))

theorem Scrambled.trans {x y z : Option Object} (h : Scrambled x y) (h' : Scrambled y z) : Scrambled x z := by
  cases h with
  | same => exact h'
  | file hlen =>
      cases h' with
      | same => exact .file hlen
      | file hlen' => exact .file (hlen'.trans hlen)

theorem Spares.scrambled (h : Spares T v v') (hw : WellFormed v) (htot : v'.sb.totalInodes = v.sb.totalInodes)
    (hT : n ∉ T) : Scrambled (objects v n) (objects v' n) := by
  refine objects_rel htot (fun hn => h.record n hn hT) (fun hn => h.contents_eq hw hn hT) .same fun hn hfile => .file ?_
  have hsize := ((hw.fresh (by rw [hfile]; decide)).shaped_self hn).size
  unfold fileContent
  rw [length_pages hsize, length_pages hsize]

theorem Moved.objects_eq (h : Moved T v v') (hr : Ready v) (hT : n ∉ T) : objects v' n = objects v n :=
  h.spares.objects_eq hr.sound h.carry.shape.totalInodes (fun _ _ _ => cryptoXform_congr h.carry.shape rfl _ _) hT

/-- inode `c` だけを書き換えると、`c` の表すものだけが変わる。 -/
theorem Moved.objects_update (h : Moved {c} v v') (hr : Ready v) :
    objects v' = Function.update (objects v) c (objects v' c) := by
  funext m
  by_cases hm : m = c
  · rw [hm, Function.update_self]
  · rw [Function.update_of_ne hm]
    exact h.objects_eq hr hm

/-- 検査値を持ち、名前の正しい項目だけを持つ。 -/
def WellNamed (v : Vol) : Prop :=
  ∀ n : UInt32, n.toNat < v.sb.totalInodes.toNat → (inodeAt v.dev.disk v.sb n).entryType = entryCatalog →
    ∀ a ∈ contents v n, a.Good

/-- 表すものが `s` になり、項目の正しさが保たれる。 -/
structure Shifts (v v' : Vol) (s : Objects) : Prop where
  after : objects v' = s
  named : WellNamed v → WellNamed v'

theorem Shifts.refl (v : Vol) : Shifts v v (objects v) := ⟨rfl, id⟩

theorem Shifts.trans {s : Objects} (h : Shifts v v' (objects v')) (h' : Shifts v' v'' s) : Shifts v v'' s :=
  ⟨h'.after, fun hl => h'.named (h.named hl)⟩

theorem WellNamed.legible (h : WellNamed v) (hn : n.toNat < v.sb.totalInodes.toNat)
    (ht : (inodeAt v.dev.disk v.sb n).entryType = entryCatalog) : Legible (contents v n) := fun a ha =>
  (h n hn ht a ha).short.le.trans (by decide)

theorem Moved.shifts (h : Moved {c} v v') (hr : Ready v)
    (hc : WellNamed v → c.toNat < v.sb.totalInodes.toNat → (inodeAt v'.dev.disk v'.sb c).entryType = entryCatalog →
      ∀ a ∈ contents v' c, a.Good) : Shifts v v' (Function.update (objects v) c (objects v' c)) := by
  refine ⟨h.objects_update hr, fun hl m hm ht => ?_⟩
  rw [h.carry.shape.totalInodes] at hm
  by_cases hmc : m = c
  · subst hmc
    exact hc hl hm ht
  · have hT : m ∉ ({c} : Set UInt32) := hmc
    have hrec := h.spares.record m hm hT
    rw [hrec] at ht
    rw [h.spares.contents_eq hr.sound hm hT ht]
    exact hl m hm ht

theorem Moved.shifts_same (h : Moved {c} v v') (hr : Ready v)
    (htype : c.toNat < v.sb.totalInodes.toNat →
      (inodeAt v'.dev.disk v'.sb c).entryType = (inodeAt v.dev.disk v.sb c).entryType)
    (hcont : (inodeAt v.dev.disk v.sb c).entryType = entryCatalog → contents v' c = contents v c) :
    Shifts v v' (Function.update (objects v) c (objects v' c)) := by
  refine h.shifts hr fun hl hn ht => ?_
  rw [htype hn] at ht
  rw [hcont ht]
  exact hl c hn ht

theorem Still.shifts (h : Still v v') : Shifts v v' (objects v) := by
  obtain ⟨k, rfl⟩ := h
  exact ⟨rfl, id⟩

end

/-! ## 割り当てと解放 -/

section

variable {v v' : Vol} {n parent : UInt32} {who : OwIdentity} {entryType : UInt8} {name : Option (List UInt8)}
  {nameLen : Nat}

theorem contents_of_empty (h : (inodeAt v.dev.disk v.sb n).blockCount = 0) : contents v n = [] := by
  unfold contents entries
  rw [h]
  rfl

theorem fileContent_of_empty {ino : Inode} (h : ino.blockCount = 0) : fileContent v.dev.disk v.sb ino = [] := by
  unfold fileContent
  rw [h]
  simp [pages]

/-- 割り当てた番号には何もなかった。割り当てた inode は、空のファイルか空のカタログである。 -/
theorem Allocated.shifts (h : Allocated who entryType name nameLen parent v v' n) (hr : Ready v) :
    objects v n = none ∧ Shifts v v' (Function.update (objects v) n (some (Object.fresh entryType))) := by
  have hn : n.toNat < v'.sb.totalInodes.toNat := by
    rw [h.moved.carry.shape.totalInodes]
    exact h.inTable
  have hempty : (inodeAt v'.dev.disk v'.sb n).blockCount = 0 := by
    rw [h.record]
    rfl
  have htype : (inodeAt v'.dev.disk v'.sb n).entryType = entryType := by
    rw [h.record]
    rfl
  have hself : objects v' n = some (Object.fresh entryType) := by
    unfold Object.fresh
    rcases h.type with rfl | rfl
    · rw [objects_file hn htype, fileContent_of_empty hempty, if_pos rfl]
    · rw [objects_catalog hn htype, if_neg (by decide)]
      unfold links
      rw [contents_of_empty hempty]
      rfl
  refine ⟨objects_vacant h.vacant, ?_⟩
  rw [← hself]
  refine h.moved.shifts hr fun _ _ _ a ha => ?_
  rw [contents_of_empty hempty] at ha
  cases ha

theorem Freed.shifts (h : Freed v v' n) (hr : Ready v) : Shifts v v' (Function.update (objects v) n none) := by
  have hdead : ∀ t, t &&& entryDeleted = 0 → (inodeAt v'.dev.disk v'.sb n).entryType ≠ t := by
    rintro t ht rfl
    exact h.deleted ht
  have hself : objects v' n = none := objects_other (hdead _ (by decide)) (hdead _ (by decide))
  rw [← hself]
  exact h.moved.shifts hr fun _ _ ht => absurd ht (hdead _ (by decide))

end

/-! ## 登録と抹消 -/

section

variable {v v' : Vol} {n : UInt32} {a : CatalogEntry}

theorem Objects.enter_catalog {s : Objects} {ls : Multiset Link} (h : s n = some (.catalog ls)) (l : Link) :
    s.enter n l = Function.update s n (some (.catalog (l ::ₘ ls))) := by
  unfold Objects.enter
  rw [h]

theorem Objects.enter_of_not {s : Objects} (h : ∀ ls, s n ≠ some (.catalog ls)) (l : Link) : s.enter n l = s := by
  unfold Objects.enter
  split
  · exact absurd ‹_› (h _)
  · rfl

theorem Unlisted.shifts (h : Unlisted v v' n) (hr : Ready v) : Shifts v v' (objects v) := by
  have htype : (inodeAt v'.dev.disk v'.sb n).entryType = (inodeAt v.dev.disk v.sb n).entryType :=
    congrArg Inode.entryType h.record
  have hshape := h.moved.carry.shape
  have hself : objects v' n = objects v n := by
    refine objects_rel (P := fun x y => y = x) hshape.totalInodes (fun _ => h.record) (fun _ _ => h.contents)
      (fun _ => rfl) fun hn hfile => ?_
    congr 2
    refine pages_congr fun i hi => ?_
    obtain ⟨hmap, hblk⟩ := h.blocks i hi
    exact plainBlock_congr hshape rfl hmap hblk
  have hshift := h.moved.shifts_same hr (fun _ => htype) fun _ => h.contents
  rwa [hself, Function.update_eq_self] at hshift

theorem Listed.shifts (h : Listed v v' n a) (hr : Ready v) (hgood : a.Good)
    (hcat : (inodeAt v.dev.disk v.sb n).entryType &&& entryCatalog ≠ 0) :
    Shifts v v' ((objects v).enter n a.link) := by
  have hfile : (inodeAt v.dev.disk v.sb n).entryType ≠ entryFile := by
    intro ht
    rw [ht] at hcat
    exact hcat (by decide)
  have hstep := h.moved.shifts hr fun hl hn ht b hb => by
    rw [h.type] at ht
    rcases List.mem_cons.mp (h.contents.mem_iff.mp hb) with rfl | hb
    · exact hgood
    · exact hl n hn ht b hb
  by_cases hlive : n.toNat < v.sb.totalInodes.toNat ∧ (inodeAt v.dev.disk v.sb n).entryType = entryCatalog
  · have hn' : n.toNat < v'.sb.totalInodes.toNat := by
      rw [h.moved.carry.shape.totalInodes]
      exact hlive.1
    rw [Objects.enter_catalog (objects_catalog hlive.1 hlive.2)]
    rw [objects_catalog hn' (h.type.trans hlive.2)] at hstep
    have hlinks : links v' n = a.link ::ₘ links v n := by
      unfold links
      rw [Multiset.cons_coe, Multiset.coe_eq_coe, ← List.map_cons]
      exact h.contents.map _
    rwa [hlinks] at hstep
  · have hnone : ∀ u : Vol, u.sb.totalInodes = v.sb.totalInodes →
        (inodeAt u.dev.disk u.sb n).entryType = (inodeAt v.dev.disk v.sb n).entryType → objects u n = none := by
      intro u htot htype
      by_cases hcat : (inodeAt v.dev.disk v.sb n).entryType = entryCatalog
      · unfold objects
        rw [htot, if_neg fun hn => hlive ⟨hn, hcat⟩]
      · exact objects_other (by rwa [htype]) (by rwa [htype])
    have hold := hnone v rfl rfl
    rw [Objects.enter_of_not (fun ls h => by rw [hold] at h; cases h)]
    rw [hnone v' h.moved.carry.shape.totalInodes h.type, ← hold, Function.update_eq_self] at hstep
    exact hstep

end

section

variable {v v' : Vol} {n : UInt32} {who : OwIdentity} {name : Option (List UInt8)} {nameLen : Nat}

/-- 抹消は、その名前のつながりを一つ除く。生きたカタログでなければ、何も動かさない。 -/
theorem Removed.shifts (h : Removed who v v' n name nameLen) (hr : Ready v) (hl : WellNamed v) :
    (∃ l ls, objects v n = some (.catalog (l ::ₘ ls)) ∧ l.name = nameBytes name nameLen ∧
      Shifts v v' (Function.update (objects v) n (some (.catalog ls)))) ∨
    objects v n = none ∧ Shifts v v' (objects v) := by
  have hn := h.opens.inTable
  have hn' : n.toNat < v'.sb.totalInodes.toNat := by rwa [h.moved.carry.shape.totalInodes]
  have htype : (inodeAt v'.dev.disk v'.sb n).entryType = (inodeAt v.dev.disk v.sb n).entryType :=
    congrArg Inode.entryType h.record
  obtain ⟨a, hperm, _, hans⟩ := h.erased
  have hstep := h.moved.shifts hr fun hl hn ht b hb => by
    rw [htype] at ht
    exact hl n hn ht b (hperm.mem_iff.mpr (List.mem_cons_of_mem _ hb))
  by_cases hcat : (inodeAt v.dev.disk v.sb n).entryType = entryCatalog
  · refine .inl ⟨a.link, links v' n, ?_, ?_, ?_⟩
    · rw [objects_catalog hn hcat]
      congr 2
      unfold links
      rw [Multiset.cons_coe, Multiset.coe_eq_coe, ← List.map_cons]
      exact hperm.map _
    · have hgood := hl n hn hcat a (hperm.mem_iff.mpr List.mem_cons_self)
      exact hgood.answers.mp (hans (hl.legible hn hcat))
    · rwa [objects_catalog hn' (htype.trans hcat)] at hstep
  · have hfile : (inodeAt v.dev.disk v.sb n).entryType ≠ entryFile := by
      intro ht
      have hopen := h.opens.catalog
      rw [ht] at hopen
      exact hopen (by decide)
    have hold : objects v n = none := objects_other hfile hcat
    have hnew : objects v' n = none := objects_other (by rwa [htype]) (by rwa [htype])
    rw [hnew, ← hold, Function.update_eq_self] at hstep
    exact .inr ⟨hold, hstep⟩

theorem Inserted.shifts {target : UInt32} {entryType : UInt8} (h : Inserted who v v' n name nameLen target entryType)
    (hr : Ready v) (hname : HoldsName name nameLen) :
    Shifts v v' ((objects v).enter n ⟨nameBytes name nameLen, target, entryType⟩) := by
  have hp := h.admissible.proper
  have hlink : (freshEntry target entryType name nameLen).link = ⟨nameBytes name nameLen, target, entryType⟩ := by
    unfold CatalogEntry.link
    rw [storedName_freshEntry hname hp.given hp.short]
    rfl
  rw [← hlink]
  exact h.listed.shifts hr (good_freshEntry hname h.admissible) h.opens.catalog

end

/-! ## 作成 -/

section

variable {v v' : Vol} {parent : UInt32} {who : OwIdentity} {entryType : UInt8} {name : Option (List UInt8)}
  {nameLen : Nat}

/-- 作成は、空の番号に作ってから、親に登録する。登録に失敗すれば、番号が記録に収まる主体では何も残らず、収まらない主体では、
親のない inode が残ることがある。 -/
theorem catalogMake_shifts (hr : Ready v) (hname : HoldsName name nameLen) :
    wp (catalogMake who entryType parent name nameLen)
      (fun n v' => objects v n = none ∧ Shifts v v'
        (Objects.enter (Function.update (objects v) n (some (Object.fresh entryType))) parent
          ⟨nameBytes name nameLen, n, entryType⟩))
      (fun _ v' => Shifts v v' (objects v) ∨ ¬ Recordable who ∧
        ∃ n, objects v n = none ∧ Shifts v v' (Function.update (objects v) n (some (Object.fresh entryType)))) v := by
  unfold catalogMake
  rw [wp_bind]
  refine ((inodeAlloc_spec hr who entryType name nameLen parent).and
    (inodeAlloc_tableOnly hr.sound.layout who entryType name nameLen parent)).mono ?_ (fun _ _ hs => .inl hs.1.shifts)
  rintro n v₁ ⟨halloc, htable⟩
  obtain ⟨hnone, hnew⟩ := halloc.shifts hr
  have hr₁ := halloc.moved.ready
  have hself : Shifts v v₁ (objects v₁) := ⟨rfl, hnew.named⟩
  rw [wp_bind, wp_attempt]
  refine (catalogInsert_spec hr₁ who parent name nameLen n entryType).mono ?_ ?_
  · intro _ v₂ hins
    have hstep := hself.trans (hins.shifts hr₁ hname)
    rw [hnew.after] at hstep
    exact ⟨hnone, hstep⟩
  · intro e v₂ href
    have hlost := href.unlisted.shifts hr₁
    have hmid : Shifts v v₂ (objects v₂) := ⟨rfl, fun hl => hlost.named (hself.named hl)⟩
    have hsame : objects v₂ = Function.update (objects v) n (some (Object.fresh entryType)) :=
      hlost.after.trans hnew.after
    have hr₂ := href.unlisted.moved.ready
    have hfree : wp (inodeFree who n) (fun _ v' => Freed v₂ v' n) (fun _ v' => Still v₂ v' ∧ ¬ Recordable who) v₂ := by
      by_cases hwho : Recordable who
      · exact ((inodeFree_spec hr₂ who n).and (href.unlisted.undone halloc htable hr hwho)).mono (fun _ _ h => h.1)
          (fun _ _ h => h.2.elim)
      · exact (inodeFree_spec hr₂ who n).mono (fun _ _ h => h) (fun _ _ h => ⟨h, hwho⟩)
    rw [wp_bind, wp_attempt]
    refine hfree.mono ?_ ?_
    · intro _ v₃ hfreed
      have hback := hmid.trans (hfreed.shifts hr₂)
      rw [hsame, Function.update_idem, ← hnone, Function.update_eq_self] at hback
      exact .inl hback
    · rintro _ v₃ ⟨hs, hwho⟩
      have hkeep := hmid.trans hs.shifts
      rw [hsame] at hkeep
      exact .inr ⟨hwho, n, hnone, hkeep⟩

end

/-! ## 書き込み -/

/-- 通った書き込みは、ファイルに重ね書きをする。生きていない inode への書き込みは、何も動かさない。 -/
inductive Writes (v v' : Vol) (n : UInt32) (buf : List UInt8) (offset len : UInt32) : Prop
  | file {old new : List UInt8} (hold : objects v n = some (.file old)) (hidle : len = 0 → new = old)
      (hnew : len ≠ 0 → Overlaid old offset.toNat (buf.take len.toNat) new)
      (hshift : Shifts v v' (Function.update (objects v) n (some (.file new)))) : Writes v v' n buf offset len
  | dead (hold : objects v n = none) (hshift : Shifts v v' (objects v)) : Writes v v' n buf offset len

/-- 通った切り詰めは、ファイルの先頭を残す。 -/
inductive Cuts (v v' : Vol) (n newSize : UInt32) : Prop
  | file {old : List UInt8} (hold : objects v n = some (.file old))
      (hshift : Shifts v v' (Function.update (objects v) n (some (.file (old.take newSize.toNat))))) :
        Cuts v v' n newSize
  | dead (hold : objects v n = none) (hshift : Shifts v v' (objects v)) : Cuts v v' n newSize

section

variable {f : UInt32 → Inode} {n offset len : UInt32} {s s₁ s' : FileState} {v₂ : Vol} {buf data : List UInt8} {i : Nat}

/-- ブロックを足している途中でも、記録された inode の対応するブロックは変わらない。 -/
theorem Ext.mapBlock_old (he : Ext f n s s') (h : Sound s.vol.dev.disk s.vol.sb (Function.update f n s.inode))
    (hn : n.toNat < s.vol.sb.totalInodes.toNat) (hi : i < s.inode.blockCount.toNat) :
    mapBlock s'.vol.dev.disk s.inode i = mapBlock s.vol.dev.disk s.inode i := by
  by_cases h10 : i < 10
  · exact mapBlock_congr fun hno => absurd h10 (Nat.not_lt.mpr hno)
  · have hind := (h.shaped_self hn).indirect.mpr (by omega)
    have hsame : s'.inode.indirectBlock = s.inode.indirectBlock := he.indirect.resolve_right fun hno => hind hno.1
    rw [← he.keeps i hi]
    unfold mapBlock
    rw [if_neg h10, if_neg h10, hsame]

/-- ブロックを足しただけでは、記録された inode の内容は変わらない。 -/
theorem Ext.fileContent_old (he : Ext f n s s') (h : Sound s.vol.dev.disk s.vol.sb (Function.update f n s.inode))
    (hn : n.toNat < s.vol.sb.totalInodes.toNat) :
    fileContent s'.vol.dev.disk s'.vol.sb s.inode = fileContent s.vol.dev.disk s.vol.sb s.inode := by
  refine pages_congr fun i hi => ?_
  have hblk := he.block_eq h hn hi
  rw [he.keeps i hi] at hblk
  exact plainBlock_congr he.shape rfl (he.mapBlock_old h hn hi) hblk

/-- 通った書き込みの後の記録が表す内容は、前の内容への重ね書きである。 -/
theorem Stages.overlaid (h : Stages f n s s₁ v₂ s' offset len data)
    (hs : Sound s.vol.dev.disk s.vol.sb (Function.update f n s.inode)) (hn : n.toNat < s.vol.sb.totalInodes.toNat)
    (hsum : (offset + len).toNat = offset.toNat + len.toNat) (hlen : data.length = len.toNat) :
    Overlaid (fileContent s.vol.dev.disk s.vol.sb s.inode) offset.toNat data
      (fileContent s'.vol.dev.disk s'.vol.sb s'.inode) := by
  have hsize := (hs.shaped_self hn).size
  have hreach := h.reach
  have hcount : s.inode.blockCount.toNat * 4096 ≤ s₁.inode.blockCount.toNat * 4096 :=
    Nat.mul_le_mul_right 4096 h.ext.count
  rw [h.inode, h.wrote.recorded_content h.ext hn hsum h.reach h.recorded, ← hlen]
  refine overlaid_pages (by decide) hsize (by omega) (fun p hp hout => ?_) fun p hlo hhi => ?_
  · rw [h.wrote.bytes p (by omega), if_neg hout]
    unfold paged
    rw [h.ext.plainBlock_eq hs hn (Nat.div_lt_of_lt_mul (by omega))]
  · rw [h.wrote.bytes p (by omega), if_pos ⟨hlo, hhi⟩]

end

section

variable {v : Vol} {n offset len newSize : UInt32} {who : OwIdentity} {buf : List UInt8} {α : Type}

theorem wp_withFresh {q : FileM α} {Q E : Vol → Prop} (hr : Ready v) (hstill : ∀ v', Still v v' → E v')
    (h : n.toNat < v.sb.totalInodes.toNat → ∀ c, wp q (fun _ s' => Q s'.vol) (fun _ s' => E s'.vol)
      ⟨v.atClock c, inodeAt v.dev.disk v.sb n⟩) :
    wp (withFresh n q) (fun _ v' => Q v') (fun _ v' => E v') v := by
  unfold withFresh discard
  rw [wp_bind]
  refine (inodeRead_spec hr.sound.layout n).mono ?_ (fun _ _ he => hstill _ he.1)
  rintro _ _ ⟨hn, rfl, _, c, rfl⟩
  simp only [wp_bind, wp_withInode, wp_pure]
  exact (h hn c).mono (fun _ _ h' => h') (fun _ _ h' => h')

theorem objects_none_of_gate (hgate : (inodeAt v.dev.disk v.sb n).entryType &&& entryFile ≠ 0)
    (hfile : (inodeAt v.dev.disk v.sb n).entryType ≠ entryFile) : objects v n = none := by
  refine objects_other hfile fun hcat => hgate ?_
  rw [hcat]
  decide

/-- 種類を変えない書き換えは、生きていない inode では何も動かさない。 -/
theorem Reworked.shifts {v' : Vol} (h : Reworked n v v') (hr : Ready v)
    (hcat : (inodeAt v.dev.disk v.sb n).entryType ≠ entryCatalog) :
    Shifts v v' (Function.update (objects v) n (objects v' n)) :=
  h.moved.shifts_same hr h.type fun ht => absurd ht hcat

theorem Reworked.shifts_dead {v' : Vol} (h : Reworked n v v') (hr : Ready v)
    (hfile : (inodeAt v.dev.disk v.sb n).entryType ≠ entryFile)
    (hcat : (inodeAt v.dev.disk v.sb n).entryType ≠ entryCatalog) : Shifts v v' (objects v) := by
  have hnew : objects v' n = objects v n := by
    by_cases hn : n.toNat < v.sb.totalInodes.toNat
    · have htype := h.type hn
      rw [objects_other hfile hcat, objects_other (by rwa [htype]) (by rwa [htype])]
    · unfold objects
      rw [h.moved.carry.shape.totalInodes, if_neg hn, if_neg hn]
  have hshift := h.shifts hr hcat
  rwa [hnew, Function.update_eq_self] at hshift

theorem permits_atClock {ino : Inode} {c : Nat} (h : Permits who ⟨v, ino⟩ offset len) :
    Permits who ⟨v.atClock c, ino⟩ offset len :=
  ⟨h.file, h.nonempty, h.writable, h.unfenced, h.fits⟩

theorem fileWrite_refused (hr : Ready v)
    (hno : ∀ c, ¬ Permits who ⟨v.atClock c, inodeAt v.dev.disk v.sb n⟩ offset len) :
    wp (withFresh n (fileWrite who n buf offset len))
      (fun _ v' => (inodeAt v.dev.disk v.sb n).entryType &&& entryFile ≠ 0 ∧ len = 0 ∧ Still v v')
      (fun _ v' => Still v v') v := by
  refine wp_withFresh hr (fun _ hs => hs) fun hn c => ?_
  refine ((Permits.idle_fileWrite_of_not (hno c)).and wp_run).mono ?_ ?_
  · rintro w s' ⟨rfl, hrun⟩
    have hempty := (permits_of_fileWrite hrun).resolve_right (hno c)
    exact ⟨isFile_of_fileWrite hrun, hempty.1, c, rfl⟩
  · rintro _ s' ⟨rfl, _⟩
    exact ⟨c, rfl⟩

theorem fileWrite_shifts (hr : Ready v) (hx : FreeExact v.dev.disk v.sb) (who : OwIdentity)
    (hbuf : len.toNat ≤ buf.length) :
    wp (withFresh n (fileWrite who n buf offset len)) (fun _ v' => Writes v v' n buf offset len)
      (fun _ v' => Shifts v v' (objects v)) v := by
  by_cases hok : Permits who ⟨v, inodeAt v.dev.disk v.sb n⟩ offset len
  · have hcat : (inodeAt v.dev.disk v.sb n).entryType ≠ entryCatalog := fun ht => hok.file (by
      change (inodeAt v.dev.disk v.sb n).entryType &&& entryFile = 0
      rw [ht]
      decide)
    have hfit := hok.fits
    by_cases hfile : (inodeAt v.dev.disk v.sb n).entryType = entryFile
    · refine ((fileWrite_reworks hr who n hbuf).and (wp_withFresh (Q := fun v' => n.toNat < v.sb.totalInodes.toNat ∧
          Overlaid (fileContent v.dev.disk v.sb (inodeAt v.dev.disk v.sb n)) offset.toNat (buf.take len.toNat)
            (fileContent v'.dev.disk v'.sb (inodeAt v'.dev.disk v'.sb n)))
        (E := fun v' => objects v' n = objects v n) hr ?_ fun hn c => ?_)).mono ?_ ?_
      · rintro v' ⟨c, rfl⟩
        rfl
      · have ht : (inodeAt v.dev.disk v.sb n).entryType ≠ 0 := by
          rw [hfile]
          decide
        have hsound := hr.sound.fresh ht
        have hok' := permits_atClock (c := c) hok
        refine ((fileWrite_stages (s := ⟨v.atClock c, inodeAt v.dev.disk v.sb n⟩) hsound hn rfl hr.faultFree hr.serves
          hbuf hok')).mono ?_ ?_
        · rintro w s' ⟨_, s₁, v₂, hst⟩
          have hrow : inodeAt s'.vol.dev.disk s'.vol.sb n = s'.inode := by
            have hrec := hst.recorded
            have htable := hrec.table n hrec.inTable
            rw [if_pos rfl] at htable
            rw [hrec.sb, htable, hst.inode]
          rw [hrow]
          exact ⟨hn, hst.overlaid hsound hn (toNat_add_lt (by omega)) (List.length_take_of_le hbuf)⟩
        · intro e s' hshort
          have hext := (hshort hx).2.ext
          have hrow : inodeAt s'.vol.dev.disk s'.vol.sb n = inodeAt v.dev.disk v.sb n :=
            (hext.staged hsound hn).table n hn
          have hn' : n.toNat < s'.vol.sb.totalInodes.toNat := by
            rw [hext.shape.totalInodes]
            exact hn
          rw [objects_file hn hfile, objects_file hn' (by rw [hrow]; exact hfile), hrow]
          exact congrArg (fun b => some (Object.file b)) (hext.fileContent_old hsound hn)
      · rintro _ v' ⟨hre, hn, hover⟩
        have hn' : n.toNat < v'.sb.totalInodes.toNat := by
          rw [hre.moved.carry.shape.totalInodes]
          exact hn
        have hnew := objects_file hn' ((hre.type hn).trans hfile)
        have hshift := hre.shifts hr hcat
        rw [hnew] at hshift
        exact .file (objects_file hn hfile) (fun hz => absurd hz hok.nonempty) (fun _ => hover) hshift
      · rintro _ v' ⟨hre, hsame⟩
        have hshift := hre.shifts hr hcat
        rwa [hsame, Function.update_eq_self] at hshift
    · exact (fileWrite_reworks hr who n hbuf).mono
        (fun _ _ hre => .dead (objects_none_of_gate hok.file hfile) (hre.shifts_dead hr hfile hcat))
        (fun _ _ hre => hre.shifts_dead hr hfile hcat)
  · refine (fileWrite_refused hr fun c hno => hok ⟨hno.file, hno.nonempty, hno.writable, hno.unfenced, hno.fits⟩).mono
      ?_ (fun _ _ hs => hs.shifts)
    rintro _ v' ⟨hgate, hz, hs⟩
    by_cases hfile : (inodeAt v.dev.disk v.sb n).entryType = entryFile
    · by_cases hn : n.toNat < v.sb.totalInodes.toNat
      · have hold := objects_file hn hfile
        refine .file hold (fun _ => rfl) (fun hne => absurd hz hne) ?_
        rw [← hold, Function.update_eq_self]
        exact hs.shifts
      · refine .dead ?_ hs.shifts
        unfold objects
        rw [if_neg hn]
    · exact .dead (objects_none_of_gate hgate hfile) hs.shifts

theorem fileTruncate_shifts (hr : Ready v) (who : OwIdentity) (n newSize : UInt32) :
    wp (withFresh n (fileTruncate who n newSize)) (fun _ v' => Cuts v v' n newSize)
      (fun _ v' => Shifts v v' (objects v)) v := by
  by_cases hok : (inodeAt v.dev.disk v.sb n).entryType &&& entryFile ≠ 0 ∧ volumeWritable v.sb = .ok () ∧
      ¬ Fenced who (inodeAt v.dev.disk v.sb n)
  · obtain ⟨hgate, hw, hopen⟩ := hok
    have hcat : (inodeAt v.dev.disk v.sb n).entryType ≠ entryCatalog := fun ht => hgate (by
      rw [ht]
      decide)
    by_cases hfile : (inodeAt v.dev.disk v.sb n).entryType = entryFile
    · refine ((fileTruncate_reworks hr who n newSize).and
        (wp_withFresh (Q := fun v' => n.toNat < v.sb.totalInodes.toNat ∧
          fileContent v'.dev.disk v'.sb (inodeAt v'.dev.disk v'.sb n) =
            (fileContent v.dev.disk v.sb (inodeAt v.dev.disk v.sb n)).take newSize.toNat)
        (E := fun v' => Still v v') hr (fun _ hs => hs) fun hn c => ?_)).mono ?_ (fun _ _ hs => hs.2.shifts)
      · have ht : (inodeAt v.dev.disk v.sb n).entryType ≠ 0 := by
          rw [hfile]
          decide
        have hsound := hr.sound.fresh ht
        by_cases hlt : newSize.toNat < (inodeAt v.dev.disk v.sb n).sizeBytes.toNat
        · refine ((fileTruncate_spec (s := ⟨v.atClock c, inodeAt v.dev.disk v.sb n⟩) hsound hn rfl
            hr.faultFree hr.serves
            who newSize).and (fileTruncate_exact (s := ⟨v.atClock c, inodeAt v.dev.disk v.sb n⟩) hsound hn hr.faultFree
            hr.serves hgate hw hopen hlt)).mono ?_ (fun _ _ hno => hno.2.elim)
          rintro _ s' ⟨⟨hset, _⟩, hshrunk⟩
          have hrow : inodeAt s'.vol.dev.disk s'.vol.sb n = s'.inode := by
            have htable := hset.table n hn
            rwa [if_pos rfl] at htable
          rw [hrow]
          exact ⟨hn, hshrunk.content⟩
        · have hge : (inodeAt v.dev.disk v.sb n).sizeBytes ≤ newSize := UInt32.le_iff_toNat_le.mpr (Nat.not_lt.mp hlt)
          have hrun := fileTruncate_idle (n := n) (s := ⟨v.atClock c, inodeAt v.dev.disk v.sb n⟩) hgate hw hopen hge
          have hsize := (hsound.shaped_self hn).size
          have hlen : (fileContent v.dev.disk v.sb (inodeAt v.dev.disk v.sb n)).length =
              (inodeAt v.dev.disk v.sb n).sizeBytes.toNat := length_pages hsize
          unfold wp
          rw [hrun]
          refine ⟨hn, ?_⟩
          rw [List.take_of_length_le (by omega)]
          rfl
      · rintro _ v' ⟨hre, hn, hcut⟩
        have hn' : n.toNat < v'.sb.totalInodes.toNat := by
          rw [hre.moved.carry.shape.totalInodes]
          exact hn
        have hshift := hre.shifts hr hcat
        rw [objects_file hn' ((hre.type hn).trans hfile), hcut] at hshift
        exact .file (objects_file hn hfile) hshift
    · exact (fileTruncate_reworks hr who n newSize).mono
        (fun _ _ hre => .dead (objects_none_of_gate hgate hfile) (hre.shifts_dead hr hfile hcat))
        (fun _ _ hre => hre.shifts_dead hr hfile hcat)
  · exact (turned_fileTruncate hr newSize hok).mono (fun _ _ hno => hno.elim) (fun _ _ hs => hs.shifts)

end

/-! ## 帳簿の操作 -/

section

variable {v v' : Vol}

theorem Spares.wellNamed (h : Spares ∅ v v') (hw : WellFormed v) (htot : v'.sb.totalInodes = v.sb.totalInodes)
    (hl : WellNamed v) : WellNamed v' := by
  intro n hn ht
  rw [htot] at hn
  rw [h.record n hn (Set.notMem_empty n)] at ht
  rw [h.contents_eq hw hn (Set.notMem_empty n) ht]
  exact hl n hn ht

theorem resave_shifts (hr : Ready v) (hsb : SameLedger v.sb v'.sb) (hd : v.dev.Evolves {superblockBlock} v'.dev) :
    Shifts v v' (objects v) := by
  have hspare := hr.sound.resave_spares hsb hd
  have hcipher : ∀ ino buf b, cryptoXform v'.sb ino buf b = cryptoXform v.sb ino buf b := by
    obtain ⟨a, b, c, d, he⟩ := hsb
    intro ino buf k
    unfold cryptoXform isEncrypted
    rw [he]
  refine ⟨?_, hspare.wellNamed hr.sound hsb.totalInodes⟩
  funext n
  exact hspare.objects_eq hr.sound hsb.totalInodes hcipher (Set.notMem_empty n)

/-- 表すものを変えずに、ボリュームを正しく保つ。 -/
def KeepsObjects (v v' : Vol) : Prop := Ready v → Ready v' ∧ Shifts v v' (objects v)

instance : IsPreorder Vol KeepsObjects where
  refl v h := ⟨h, .refl v⟩
  trans v v₁ v₂ h h' hr := by
    obtain ⟨hr₁, hs₁⟩ := h hr
    obtain ⟨hr₂, hs₂⟩ := h' hr₁
    refine ⟨hr₂, ?_, fun hl => hs₂.named (hs₁.named hl)⟩
    rw [hs₂.after, hs₁.after]

theorem keepsObjects_resave (hsb : SameLedger v.sb v'.sb) (hd : v.dev.Evolves {superblockBlock} v'.dev) :
    KeepsObjects v v' := fun hr => ⟨hr.resave hsb hd, resave_shifts hr hsb hd⟩

theorem bookkeeping_objects : Bookkeeping KeepsObjects where
  still := by
    rintro v _ ⟨c, rfl⟩
    exact keepsObjects_resave (refl_of SameLedger v.sb) .atClock
  ledger := fun hsb => keepsObjects_resave hsb (.refl _ _)
  saved := fun v => wp_superblockWrite (fun _ _ => keepsObjects_resave (.sealed v.sb) evolves_saved)
    (fun _ _ _ _ => keepsObjects_resave (.sealed v.sb) .atClock)

/-- ファイルのバイトのほかは変えずに、ボリュームを正しく保つ。 -/
def Scrambles (v v' : Vol) : Prop :=
  Ready v → Ready v' ∧ (∀ n, Scrambled (objects v n) (objects v' n)) ∧ (WellNamed v → WellNamed v')

instance : IsPreorder Vol Scrambles where
  refl v h := ⟨h, fun _ => .same _, id⟩
  trans v v₁ v₂ h h' hr := by
    obtain ⟨hr₁, hs₁, hl₁⟩ := h hr
    obtain ⟨hr₂, hs₂, hl₂⟩ := h' hr₁
    exact ⟨hr₂, fun n => (hs₁ n).trans (hs₂ n), fun hl => hl₂ (hl₁ hl)⟩

theorem KeepsObjects.scrambles (h : KeepsObjects v v') : Scrambles v v' := by
  intro hr
  obtain ⟨hr', hs⟩ := h hr
  refine ⟨hr', fun n => ?_, hs.named⟩
  rw [hs.after]
  exact .same _

theorem housekeeping_scrambles : Housekeeping Scrambles where
  still := fun h => KeepsObjects.scrambles (bookkeeping_objects.still h)
  clerical := by
    intro v sb hc hr
    have hspare : Spares ∅ v { v with sb := sb } := by
      obtain ⟨a, b, c, d, e, f, g, rfl⟩ := hc
      exact ⟨fun _ _ _ => rfl, fun _ _ _ => rfl⟩
    have htot : sb.totalInodes = v.sb.totalInodes := by
      obtain ⟨a, b, c, d, e, f, g, rfl⟩ := hc
      rfl
    exact ⟨hr.recore hc.core, fun n => hspare.scrambled hr.sound htot (Set.notMem_empty n),
      hspare.wellNamed hr.sound htot⟩
  saved := fun v => (bookkeeping_objects.saved v).mono (fun _ _ h => h.scrambles) (fun _ _ h => h.scrambles)

end

end OwStorage.Owfs
