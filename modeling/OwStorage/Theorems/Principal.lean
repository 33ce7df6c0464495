import OwStorage.Theorems.Hidden
import OwStorage.Owfs.Lemmas.Format

/-!
# 持ち主の見分け

割り当ては持ち主の番号を 16 ビットで記録し、権限と見え方の検査は 32 ビットの番号と比べる。記録が作った主体を
見分けるのは、その番号が 16 ビットに収まるときに限る。
-/

namespace OwStorage

open Lib Prog

/-- 三桁の許可が、求める操作のすべてを許す。 -/
def tripleGrants (bits : UInt16) (want : UInt8) : Bool :=
  ! (want &&& accessRead != 0 && bits &&& 4 == 0) && ! (want &&& accessWrite != 0 && bits &&& 2 == 0) &&
    ! (want &&& accessExec != 0 && bits &&& 1 == 0)

/-- 主体に当てはめる三桁。 -/
def tripleOf (who : OwIdentity) (mode ownerUid ownerGid : UInt16) : UInt16 :=
  if who.uid == ownerUid.toUInt32 then (mode >>> 6) &&& 0x7
  else if who.gid == ownerGid.toUInt32 then (mode >>> 3) &&& 0x7
  else mode &&& 0x7

/-- どんな許可に変えても、`A` は所有者の三桁で判じられ、`B` の判定は所有者の三桁によらない。 -/
structure Recognized (A B : OwIdentity) (ownerUid ownerGid : UInt16) : Prop where
  judged : ∀ mode want, owSecAccess A mode ownerUid ownerGid want = tripleGrants ((mode >>> 6) &&& 0x7) want
  blind : ∀ mode mode' : UInt16, mode &&& 0x3F = mode' &&& 0x3F → ∀ want,
    owSecAccess B mode ownerUid ownerGid want = owSecAccess B mode' ownerUid ownerGid want

/-- 誤りを返したときは何も求めない条件では、前の計算の結果を問わない。 -/
theorem wp_after {σ ε α β : Type} {p : Prog σ ε α} {f : α → Prog σ ε β} {Q : β → σ → Prop} {s : σ}
    (h : ∀ a s', wp (f a) Q (fun _ _ => True) s') : wp (p >>= f) Q (fun _ _ => True) s := by
  rw [wp_bind]
  exact wp_trivial.mono (fun a s' _ => h a s') (fun _ _ _ => trivial)

section

variable {A B : OwIdentity} {mode mode' uid gid : UInt16} {want : UInt8}

theorem owSecAccess_eq (hA : A.uid ≠ 0) : owSecAccess A mode uid gid want =
    tripleGrants (tripleOf A mode uid gid) want := by
  have hcases : ∀ a b c : Bool,
    (if a = true then false else if b = true then false else if c = true then false else true) =
      (! a && ! b && ! c) := by decide
  unfold owSecAccess
  rw [if_neg (by simpa using hA)]
  exact hcases _ _ _

theorem tripleOf_low (hB : B.uid ≠ uid.toUInt32) (h : mode &&& 0x3F = mode' &&& 0x3F) :
    tripleOf B mode uid gid = tripleOf B mode' uid gid := by
  have hlow : mode.toNat % 64 = mode'.toNat % 64 := by
    have hmask : ∀ m : UInt16, (m &&& 0x3F).toNat = m.toNat % 64 := fun m => by
      rw [UInt16.toNat_and]
      exact Nat.and_two_pow_sub_one_eq_mod m.toNat 6
    rw [← hmask, ← hmask, h]
  have hseven : ∀ m : UInt16, (m &&& 0x7).toNat = m.toNat % 8 := fun m => by
    rw [UInt16.toNat_and]
    exact Nat.and_two_pow_sub_one_eq_mod m.toNat 3
  have hshift : ∀ m : UInt16, (m >>> 3).toNat = m.toNat / 8 := fun m => by
    rw [UInt16.toNat_shiftRight]
    exact Nat.shiftRight_eq_div_pow m.toNat 3
  unfold tripleOf
  simp only [beq_eq_false_iff_ne.mpr hB, Bool.false_eq_true, ↓reduceIte]
  split
  · apply UInt16.toNat_inj.mp
    rw [hseven, hseven, hshift, hshift]
    omega
  · apply UInt16.toNat_inj.mp
    rw [hseven, hseven]
    omega

/-- 16 ビットで記録した番号は、16 ビットに収まる番号だけを表す。 -/
theorem stored_uid_iff (uid : UInt32) : uid.toUInt16.toUInt32 = uid ↔ uid.toNat < 65536 := by
  rw [← UInt32.toNat_inj, UInt16.toNat_toUInt32, UInt32.toNat_toUInt16]
  omega

theorem uid_eq_stored_iff : A.uid = A.uid.toUInt16.toUInt32 ↔ A.uid.toNat < 65536 :=
    eq_comm.trans (stored_uid_iff A.uid)

/-- 所有者の三桁を見ているかどうかは、読み取りだけを許す許可で分かる。 -/
theorem owner_of_judged (hA : A.uid ≠ 0) (h : ∀ mode want, owSecAccess A mode uid gid want =
    tripleGrants ((mode >>> 6) &&& 0x7) want) : A.uid = uid.toUInt32 := by
  by_contra hno
  have hread := h 0x100 accessRead
  rw [owSecAccess_eq hA] at hread
  unfold tripleOf at hread
  rw [if_neg (by simpa using hno)] at hread
  split at hread
  · exact absurd hread (by decide)
  · exact absurd hread (by decide)

theorem recognized_iff (hA : A.uid ≠ 0) (hB : B.uid ≠ 0) (hne : A.uid ≠ B.uid) :
    Recognized A B A.uid.toUInt16 gid ↔ A.uid.toNat < 65536 := by
  rw [← uid_eq_stored_iff]
  constructor
  · intro h
    exact owner_of_judged hA h.judged
  · intro hsame
    refine ⟨fun mode want => ?_, fun mode mode' h want => ?_⟩
    · rw [owSecAccess_eq hA, tripleOf, if_pos (beq_iff_eq.mpr hsame)]
    · rw [owSecAccess_eq hB, owSecAccess_eq hB, tripleOf_low (hsame ▸ hne.symm) h]

end

/-! ## OWFS の inode -/

namespace Owfs

/-- 記録の持ち主の欄が、許可をどう変えても、作った主体 `A` を `B` から見分ける。 -/
structure Identifies (A B : OwIdentity) (ino : Inode) : Prop extends Recognized A B ino.ownerUid ino.ownerGid where
  visible : ∀ (w : Vol) (n : UInt32) (ino' : Inode), (inodeRead n w).1 = .ok ino' → ino'.ownerUid = ino.ownerUid →
    inodeIsHidden ino' = true → (inodeHiddenFrom A n w).1 = .ok false ∧ (inodeHiddenFrom B n w).1 = .ok true

section

variable {A B : OwIdentity} {v v' : Vol} {n : UInt32}

/-- 書けた記録は、表のそのスロットから読み出せる。 -/
theorem inodeWrite_record {s : FileState} (n : UInt32) :
    wp (inodeWrite n) (fun _ s' => inodeAt s'.vol.dev.disk s'.vol.sb n = s.inode.sealed) (fun _ _ => True) s := by
  unfold inodeWrite
  simp only [wp_bind, wp_get, wp_failIf, wp_ofExcept, wp_onVol, wp_modifyInode]
  refine ⟨fun _ => trivial, fun _ => ⟨fun _ _ => ?_, fun _ _ => trivial⟩⟩
  refine wp_readBlk (fun c _ => ?_) (fun _ _ => trivial)
  refine wp_writeBlk (fun c' _ => ?_) (fun _ _ _ _ => trivial)
  unfold inodeAt
  rw [dev_put, HtlDevice.disk_atClock, HtlDevice.disk_store, sb_put, sb_atClock, Function.update_self,
    inodeIn_patch_same]
  rfl

/-- 割り当てた inode の持ち主の欄。 -/
theorem inodeAlloc_owner (who : OwIdentity) (entryType : UInt8) (name : Option (List UInt8)) (nameLen : Nat)
    (parent : UInt32) :
    wp (inodeAlloc who entryType name nameLen parent)
      (fun n v' => (inodeAt v'.dev.disk v'.sb n).ownerUid = who.uid.toUInt16) (fun _ _ => True) v := by
  unfold inodeAlloc
  refine wp_after fun _ _ => wp_after fun _ _ => wp_after fun _ _ => wp_after fun _ _ => wp_after fun _ _ =>
    wp_after fun _ _ => ?_
  rw [wp_bind]
  refine wp_loop (fun _ _ _ => True) trivial (fun i _ v₁ _ _ => wp_after fun temp v₂ => ?_) (fun _ _ _ => trivial)
  rw [wp_ite]
  refine ⟨fun _ => ?_, fun _ => trivial⟩
  simp only [wp_bind, wp_withInode, wp_modifySb, wp_pure]
  refine (inodeWrite_record (s := ⟨v₂, _⟩) _).mono (fun _ s' hrow => ?_) (fun _ _ _ => trivial)
  change (inodeAt s'.vol.dev.disk s'.vol.sb (UInt32.ofNat i)).ownerUid = _
  rw [hrow]
  rfl

theorem inodeHiddenFrom_of_read {who : OwIdentity} {w : Vol} {ino : Inode} (h : (inodeRead n w).1 = .ok ino) :
    (inodeHiddenFrom who n w).1 =
      .ok (inodeIsHidden ino && ! owSecIsSuperuser who && who.uid != ino.ownerUid.toUInt32) := by
  have hrun : inodeHiddenFrom who n w = (.ok _, (inodeRead n w).2) := run_bind (run_attempt (run_eq h)) rfl
  rw [hrun]

theorem identifies_iff (hA : A.uid ≠ 0) (hB : B.uid ≠ 0) (hne : A.uid ≠ B.uid) {ino : Inode}
    (howner : ino.ownerUid = A.uid.toUInt16) : Identifies A B ino ↔ A.uid.toNat < 65536 := by
  constructor
  · intro h
    have hrec := h.toRecognized
    rw [howner] at hrec
    exact (recognized_iff hA hB hne).mp hrec
  · intro hsmall
    have hsame := uid_eq_stored_iff.mpr hsmall
    refine ⟨by rw [howner]; exact (recognized_iff hA hB hne).mpr hsmall, fun w n ino' hread ho hhid => ?_⟩
    have hroot : owSecIsSuperuser B = false := beq_eq_false_iff_ne.mpr hB
    rw [inodeHiddenFrom_of_read hread, inodeHiddenFrom_of_read hread, ho, howner, ← hsame, hhid, hroot,
      bne_iff_ne.mpr hne.symm, bne_self_eq_false]
    simp

end

end Owfs

/-! ## USFS の項目 -/

namespace Usfs

/-- 記録の持ち主の欄が、許可をどう変えても、作った主体 `A` を `B` から見分ける。 -/
structure Identifies (A B : OwIdentity) (e : Entry) : Prop extends Recognized A B e.ownerUid e.ownerGid where
  visible : ∀ (w : Vol) (idx : UInt32) (e' : Entry) (x : List UInt8), (entryRead idx w).1 = .ok e' → e'.Live →
    owSutf8NameCmp e'.nameField x = 0 → e'.ownerUid = e.ownerUid → entryIsHidden e' = true →
    (lookupStep A e'.parentEntry x idx w).1 = .ok (.inr idx) ∧ (lookupStep B e'.parentEntry x idx w).1 = .ok (.inl ())

section

variable {A B : OwIdentity} {v : Vol}

/-- 書けた記録は、表のそのスロットから読み出せる。 -/
theorem entryWrite_record {s : EntryState} (idx : UInt32) :
    wp (entryWrite idx) (fun _ s' => entryAt s'.vol.dev.disk s'.vol.sb idx = s.entry.sealed) (fun _ _ => True) s := by
  unfold entryWrite
  simp only [wp_bind, wp_get, wp_failIf, wp_ofExcept, wp_onVol, wp_modifyEntry]
  refine ⟨fun _ => trivial, fun _ => ⟨fun _ _ => ?_, fun _ _ => trivial⟩⟩
  refine wp_readBlk (fun c _ => ?_) (fun _ _ => trivial)
  refine wp_writeBlk (fun c' _ => ?_) (fun _ _ _ _ => trivial)
  unfold entryAt
  rw [dev_put, HtlDevice.disk_atClock, HtlDevice.disk_store, sb_put, sb_atClock, Function.update_self,
    entryIn_patch_same]
  rfl

theorem storeFresh_record (chosen : UInt32) (temp : Entry) :
    wp (storeFresh chosen temp) (fun idx v' => entryAt v'.dev.disk v'.sb idx = temp.sealed) (fun _ _ => True) v := by
  unfold storeFresh
  rw [wp_bind, wp_attempt, wp_withEntry]
  refine (entryWrite_record (s := ⟨v, temp⟩) chosen).mono (fun _ s' hrow => hrow) (fun e s' _ => ?_)
  dsimp only
  rw [wp_ite]
  exact ⟨fun _ => wp_after fun _ _ => trivial, fun _ => trivial⟩

/-- 割り当てた項目の持ち主の欄。 -/
theorem entryAlloc_owner (who : OwIdentity) (entryType : UInt8) (name : Option (List UInt8)) (nameLen : Nat)
    (parent : UInt32) :
    wp (entryAlloc who entryType name nameLen parent)
      (fun idx v' => (entryAt v'.dev.disk v'.sb idx).ownerUid = who.uid.toUInt16) (fun _ _ => True) v := by
  unfold entryAlloc
  refine wp_after fun _ _ => wp_after fun _ _ => wp_after fun _ _ => wp_after fun _ _ => wp_after fun _ _ =>
    wp_after fun _ _ => wp_after fun _ _ => wp_after fun _ _ => wp_after fun _ _ => wp_after fun _ v₁ => ?_
  rw [wp_ite]
  refine ⟨fun _ => wp_after fun _ _ => ?_, fun _ => ?_⟩
  · exact (storeFresh_record _ _).mono (fun _ _ hrow => by rw [hrow]; rfl) (fun _ _ _ => trivial)
  · exact (storeFresh_record _ _).mono (fun _ _ hrow => by rw [hrow]; rfl) (fun _ _ _ => trivial)

theorem lookupStep_of_read {who : OwIdentity} {w : Vol} {idx parentIdx : UInt32} {e : Entry} {x : List UInt8}
    (h : (entryRead idx w).1 = .ok e) :
    (lookupStep who parentIdx x idx w).1 = .ok (if answers who parentIdx x e then .inr idx else .inl ()) := by
  unfold lookupStep
  have hrun : (Prog.attempt (entryRead idx) : UsfsM (Except UsfsErr Entry)) w = (.ok (.ok e), (entryRead idx w).2) :=
    run_attempt (run_eq h)
  by_cases hans : answers who parentIdx x e = true
  · rw [run_bind hrun (r := (.ok (.inr idx), (entryRead idx w).2)) (by dsimp only; rw [if_pos hans]; rfl), if_pos hans]
  · rw [run_bind hrun (r := (.ok (.inl ()), (entryRead idx w).2)) (by dsimp only; rw [if_neg hans]; rfl), if_neg hans]

theorem identifies_iff (hA : A.uid ≠ 0) (hB : B.uid ≠ 0) (hne : A.uid ≠ B.uid) {e : Entry}
    (howner : e.ownerUid = A.uid.toUInt16) : Identifies A B e ↔ A.uid.toNat < 65536 := by
  constructor
  · intro h
    have hrec := h.toRecognized
    rw [howner] at hrec
    exact (recognized_iff hA hB hne).mp hrec
  · intro hsmall
    have hsame := uid_eq_stored_iff.mpr hsmall
    refine ⟨by rw [howner]; exact (recognized_iff hA hB hne).mpr hsmall, fun w idx e' x hread hlive hcmp ho hhid => ?_⟩
    have hroot : owSecIsSuperuser B = false := beq_eq_false_iff_ne.mpr hB
    have hout : B.uid ≠ e'.ownerUid.toUInt32 := by
      rw [ho, howner, ← hsame]
      exact hne.symm
    rw [lookupStep_of_read hread, lookupStep_of_read hread, answers_of_hidden hroot hhid hout]
    have hans : answers A e'.parentEntry x e' = true := by
      unfold answers entryHiddenFrom
      rw [ho, howner, ← hsame, hcmp]
      simp [hlive.1, hlive.2]
    rw [hans]
    exact ⟨rfl, rfl⟩

end

end Usfs

/-! ## 見分けられる主体 -/

/-- 作られた物の持ち主の欄が作った主体を見分けるのは、その番号が 16 ビットに収まるときに限る。 -/
theorem owner_identified_iff {A B : OwIdentity} (hA : A.uid ≠ 0) (hB : B.uid ≠ 0) (hne : A.uid ≠ B.uid) :
    (∀ (v v' : Owfs.Vol) (entryType : UInt8) (name : Option (List UInt8)) (nameLen : Nat) (parent n : UInt32),
      Owfs.inodeAlloc A entryType name nameLen parent v = (.ok n, v') →
        (Owfs.Identifies A B (Owfs.inodeAt v'.dev.disk v'.sb n) ↔ A.uid.toNat < 65536)) ∧
    ∀ (v v' : Usfs.Vol) (entryType : UInt8) (name : Option (List UInt8)) (nameLen : Nat) (parent idx : UInt32),
      Usfs.entryAlloc A entryType name nameLen parent v = (.ok idx, v') →
        (Usfs.Identifies A B (Usfs.entryAt v'.dev.disk v'.sb idx) ↔ A.uid.toNat < 65536) :=
  ⟨fun _ _ entryType name nameLen parent _ hrun => Owfs.identifies_iff hA hB hne
      ((Owfs.inodeAlloc_owner A entryType name nameLen parent).ok hrun),
    fun _ _ entryType name nameLen parent _ hrun => Usfs.identifies_iff hA hB hne
      ((Usfs.entryAlloc_owner A entryType name nameLen parent).ok hrun)⟩

/-- 16 ビットに収まる番号の主体が、フォーマットした直後のボリュームに作った inode は、持ち主を見分ける。 -/
theorem owner_identified_on_mountedVolume : Owfs.Identifies ⟨1000, 1⟩ ⟨2000, 1⟩
    (Owfs.inodeAt (Owfs.inodeAlloc ⟨1000, 1⟩ Owfs.entryFile (some [0x61]) 1 0 Owfs.mountedVolume).2.dev.disk
      (Owfs.inodeAlloc ⟨1000, 1⟩ Owfs.entryFile (some [0x61]) 1 0 Owfs.mountedVolume).2.sb 1) := by
  have hrun := run_eq (p := Owfs.inodeAlloc ⟨1000, 1⟩ Owfs.entryFile (some [0x61]) 1 0) (s := Owfs.mountedVolume)
    (r := .ok 1) (by decide +kernel)
  exact ((owner_identified_iff (A := ⟨1000, 1⟩) (B := ⟨2000, 1⟩) (by decide) (by decide) (by decide)).1
    _ _ _ _ _ _ _ hrun).mpr (by decide)

/-- 65537 番の主体が作った inode は、1 番の主体の物として記録される。 -/
theorem wide_uid_unrecognized :
    ¬ ∀ (A B : OwIdentity) (v v' : Owfs.Vol) (entryType : UInt8) (name : Option (List UInt8)) (nameLen : Nat)
        (parent n : UInt32), A.uid ≠ 0 → B.uid ≠ 0 → A.uid ≠ B.uid →
      Owfs.inodeAlloc A entryType name nameLen parent v = (.ok n, v') →
      Owfs.Identifies A B (Owfs.inodeAt v'.dev.disk v'.sb n) := by
  intro h
  have hrun := run_eq (p := Owfs.inodeAlloc ⟨65537, 0⟩ Owfs.entryFile (some [0x61]) 1 0) (s := Owfs.mountedVolume)
    (r := .ok 1) (by decide +kernel)
  have hid := h ⟨65537, 0⟩ ⟨1, 0⟩ _ _ _ _ _ _ _ (by decide) (by decide) (by decide) hrun
  have howner := owner_of_judged (by decide) hid.judged
  rw [(Owfs.inodeAlloc_owner ⟨65537, 0⟩ Owfs.entryFile (some [0x61]) 1 0).ok hrun] at howner
  exact absurd howner (by decide)

end OwStorage
