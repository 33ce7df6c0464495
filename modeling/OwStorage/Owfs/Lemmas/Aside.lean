import OwStorage.Owfs.Lemmas.InodeTable

/-!
# ビットマップに触れない操作

割り当てと、足りているファイルへの書き込みと、ブロックを放さない切り詰めと解放は、ビットマップの外だけを書く。
-/

namespace OwStorage.Owfs

open Lib Prog

/-- 領域の並びを変えず、ビットマップの外だけを書いた。 -/
structure Aside (v v' : Vol) : Prop where
  shape : SameShape v.sb v'.sb
  dev : v.dev.Evolves (v.sb.bitmapRegion)ᶜ v'.dev

instance : IsPreorder Vol Aside where
  refl v := ⟨refl_of SameShape v.sb, .refl _ _⟩
  trans _ _ _ h h' := ⟨trans_of SameShape h.shape h'.shape, h.dev.trans (h.shape.bitmapRegion ▸ h'.dev)⟩

section

variable {v v' : Vol} {n k : UInt32} {p ino : Inode} {S : Set UInt32}

/-- 主体 `who` が inode `n` を書き換えることを、門と旗と権限が許す。 -/
structure Admits (who : OwIdentity) (v : Vol) (n : UInt32) : Prop where
  inTable : n.toNat < v.sb.totalInodes.toNat
  writable : volumeWritable v.sb = .ok ()
  unfenced : ¬ Fenced who (inodeAt v.dev.disk v.sb n)

/-- 解放が、生きている inode のブロックを放す。 -/
structure Vacates (who : OwIdentity) (v : Vol) (n : UInt32) : Prop where
  admits : Admits who v n
  live : slotVacant (inodeAt v.dev.disk v.sb n) = false
  held : (inodeAt v.dev.disk v.sb n).blockCount ≠ 0

/-- 書き込みが、ファイルを伸ばすためのブロックを求める。 -/
structure GrowsFile (who : OwIdentity) (v : Vol) (n offset len : UInt32) : Prop where
  admits : Admits who v n
  type : (inodeAt v.dev.disk v.sb n).entryType &&& entryFile ≠ 0
  given : len ≠ 0
  fits : offset.toNat + len.toNat ≤ 1034 * 4096
  beyond : (inodeAt v.dev.disk v.sb n).blockCount.toNat * 4096 < offset.toNat + len.toNat
  free : v.sb.freeBlocks ≠ 0

/-- 切り詰めが、ファイルのブロックを放す。 -/
structure CutsFile (who : OwIdentity) (v : Vol) (n newSize : UInt32) : Prop where
  admits : Admits who v n
  type : (inodeAt v.dev.disk v.sb n).entryType &&& entryFile ≠ 0
  smaller : newSize < (inodeAt v.dev.disk v.sb n).sizeBytes
  fewer : (newSize.toNat + 4095) / 4096 < (inodeAt v.dev.disk v.sb n).blockCount.toNat

theorem Aside.of_evolves (hsb : SameShape v.sb v'.sb) (hd : v.dev.Evolves S v'.dev)
    (hS : ∀ b ∈ S, b ∉ v.sb.bitmapRegion) : Aside v v' := ⟨hsb, hd.mono hS⟩

theorem Still.aside (h : Still v v') : Aside v v' := by
  obtain ⟨c, rfl⟩ := h
  exact ⟨refl_of SameShape v.sb, .atClock⟩

theorem TableOnly.aside (h : TableOnly v v' k) (hl : Layout v.sb) : Aside v v' :=
  .of_evolves ⟨v.sb.freeBlocks, k, h.sb⟩ h.dev fun _ hb => hl.table_not_bitmap hb

theorem Recorded.aside (h : Recorded v v' n p) (hl : Layout v.sb) : Aside v v' :=
  .of_evolves (by rw [h.sb]; exact refl_of SameShape v.sb) h.dev fun _ hb => hl.table_not_bitmap hb

theorem Wrote.aside {f : UInt32 → Inode} {lo : Nat} {w : List UInt8} (hw : Wrote ino v v' lo w)
    (h : Sound v.dev.disk v.sb (Function.update f n ino)) (hn : n.toNat < v.sb.totalInodes.toNat) : Aside v v' := by
  refine .of_evolves (by rw [hw.sb]; exact refl_of SameShape v.sb) hw.dev ?_
  rintro _ ⟨i, hi, rfl⟩
  exact h.layout.data_not_bitmap (h.mapBlock_isData hn hi)

theorem aside_inodeWrite {s : FileState} (hl : Layout s.vol.sb) (n : UInt32) :
    wp (inodeWrite n) (fun _ s' => Aside s.vol s'.vol) (fun _ s' => Aside s.vol s'.vol) s :=
  (inodeWrite_spec hl n).mono (fun _ _ h => h.2.aside hl) (fun _ _ h => h.1.aside)

theorem aside_inodeAlloc (hl : Layout v.sb) (who : OwIdentity) (entryType : UInt8) (name : Option (List UInt8))
    (nameLen : Nat) (parent : UInt32) :
    wp (inodeAlloc who entryType name nameLen parent) (fun _ v' => Aside v v') (fun _ v' => Aside v v') v :=
  (inodeAlloc_tableOnly hl who entryType name nameLen parent).mono (fun _ _ h => h.aside hl) (fun _ _ h => h.aside)

/-- 放すブロックのない切り詰めは、何も変えない。 -/
theorem blockmapRelease_idle {s : FileState} {fromIdx : UInt32} (h : s.inode.blockCount ≤ fromIdx) :
    Idle (blockmapRelease fromIdx) s := by
  unfold blockmapRelease Idle
  simp only [wp_bind, wp_get, wp_ofExcept, wp_ite]
  exact ⟨fun _ _ => ⟨fun _ => rfl, fun hno => absurd h hno⟩, fun _ _ => trivial⟩

theorem aside_freeInodes (k : UInt32) : Aside v { v with sb := { v.sb with freeInodes := k } } :=
  ⟨⟨v.sb.freeBlocks, k, rfl⟩, .refl _ _⟩

theorem aside_inodeFree (hr : Ready v) (who : OwIdentity) {n : UInt32} (hno : ¬ Vacates who v n) :
    wp (inodeFree who n) (fun _ v' => Aside v v') (fun _ v' => Aside v v') v := by
  have hl := hr.sound.layout
  unfold inodeFree
  rw [wp_bind, wp_get, wp_bind, wp_ofExcept]
  refine ⟨fun _ hw => ?_, fun _ _ => refl_of Aside v⟩
  rw [wp_bind]
  refine (inodeRead_spec hl n).mono ?_ (fun _ _ he => he.1.aside)
  rintro _ _ ⟨hn, rfl, _, c, rfl⟩
  have hstill : Aside v (v.atClock c) := Still.aside ⟨c, rfl⟩
  simp only [wp_bind, wp_failIf, wp_ite, wp_ofExcept, wp_withInode, wp_modifySb, wp_modifyInode]
  refine ⟨fun _ => hstill, fun htype => ⟨fun _ => hstill, fun hdel => ⟨fun _ => hstill, fun hread =>
    ⟨fun _ hacc => ?_, fun _ _ => hstill⟩⟩⟩⟩
  have hempty : (inodeAt v.dev.disk v.sb n).blockCount = 0 := by
    by_contra hheld
    refine hno ⟨⟨hn, hw, fun hf => hf.elim hread fun h => h hacc⟩, ?_, hheld⟩
    unfold slotVacant
    rw [Bool.or_eq_false_iff]
    exact ⟨beq_eq_false_iff_ne.mpr htype, bne_eq_false_iff_eq.mpr (not_not.mp hdel)⟩
  have hidle := @blockmapRelease_idle ⟨v.atClock c, inodeAt v.dev.disk v.sb n⟩ 0
    (by rw [hempty]; exact UInt32.le_refl 0)
  refine wp.mono hidle ?_ ?_
  · rintro _ _ rfl
    refine (aside_inodeWrite (s := ⟨v.atClock c, markDeleted (inodeAt v.dev.disk v.sb n)⟩) hl n).mono ?_
      (fun _ _ he => trans_of Aside hstill he)
    intro _ s' hw
    exact trans_of Aside hstill (trans_of Aside hw (aside_freeInodes _))
  · rintro _ _ rfl
    exact hstill

theorem aside_put (hr : Ready v) (hn : n.toNat < v.sb.totalInodes.toNat)
    (ht : (inodeAt v.dev.disk v.sb n).entryType ≠ 0) {i : Nat} (hi : i < (inodeAt v.dev.disk v.sb n).blockCount.toNat)
    (blk : Block) (c : Nat) :
    Aside v (v.put (mapBlock v.dev.disk (inodeAt v.dev.disk v.sb n) i) blk c) := by
  refine .of_evolves (S := {mapBlock v.dev.disk (inodeAt v.dev.disk v.sb n) i}) (refl_of SameShape v.sb) (.store rfl) ?_
  rintro _ rfl
  exact hr.sound.layout.data_not_bitmap ((hr.sound.fresh ht).mapBlock_isData hn hi)

/-- 足りているファイルは伸ばさない。 -/
theorem ensureBlocks_enough {s : FileState} {lastBlock : UInt32} (h : lastBlock.toNat < s.inode.blockCount.toNat) :
    ensureBlocks lastBlock s = (.ok (), s) := by
  unfold ensureBlocks
  refine run_bind rfl (run_bind (a := .inl ()) ?_ rfl)
  rw [Nat.sub_eq_zero_of_le h]
  rfl

/-- 空きがなければ、次のブロックは何も書かずに断られる。 -/
theorem blockmapEnsure_full {s : FileState} (hfull : s.vol.sb.freeBlocks = 0) :
    wp (blockmapEnsure s.inode.blockCount) (fun _ _ => False) (fun _ s' => s' = s) s := by
  unfold blockmapEnsure
  simp only [wp_bind, wp_get, wp_failIf, wp_ofExcept, wp_ite, wp_onVol]
  refine ⟨fun _ => trivial, fun hlt => ⟨fun _ _ => ⟨fun h => absurd h (UInt32.lt_irrefl _), fun _ =>
    ⟨fun _ => trivial, fun _ => ?_⟩⟩, fun _ _ => trivial⟩⟩
  unfold allocAndZero bitmapAlloc
  simp only [wp_bind, wp_get, wp_failIf]
  exact ⟨fun _ => trivial, fun h => absurd hfull h⟩

/-- 空きのないボリュームでは、ファイルは伸びない。 -/
theorem ensureBlocks_full {s : FileState} {lastBlock : UInt32} (hfull : s.vol.sb.freeBlocks = 0)
    (hbeyond : s.inode.blockCount.toNat ≤ lastBlock.toNat) :
    wp (ensureBlocks lastBlock) (fun _ _ => False) (fun _ s' => s' = s) s := by
  unfold ensureBlocks
  obtain ⟨k, hk⟩ : ∃ k, lastBlock.toNat + 1 - s.inode.blockCount.toNat = k + 1 :=
    ⟨lastBlock.toNat - s.inode.blockCount.toNat, by omega⟩
  simp only [wp_bind, wp_get]
  refine wp_loop (fun i _ s' => i = 0 ∧ s' = s) ⟨rfl, rfl⟩ ?_ ?_
  · rintro i _ _ _ ⟨_, rfl⟩
    simp only [wp_bind, wp_get, wp_ite, wp_pure]
    refine ⟨fun _ => (blockmapEnsure_full hfull).mono (fun _ _ hf => hf.elim) (fun _ _ he => he), fun hlt => ?_⟩
    exact absurd (UInt32.le_iff_toNat_le.mpr hbeyond) hlt
  · rintro _ _ ⟨hzero, _⟩
    omega

/-- 読み直した inode への操作が、ビットマップに触れない。 -/
theorem aside_withFresh {α : Type} {q : FileM α} (hr : Ready v)
    (h : ∀ c, n.toNat < v.sb.totalInodes.toNat → wp q (fun _ s' => Aside (v.atClock c) s'.vol)
      (fun _ s' => Aside (v.atClock c) s'.vol) ⟨v.atClock c, inodeAt v.dev.disk v.sb n⟩) :
    wp (withFresh n q) (fun _ v' => Aside v v') (fun _ v' => Aside v v') v := by
  unfold withFresh discard
  rw [wp_bind]
  refine (inodeRead_spec hr.sound.layout n).mono ?_ (fun _ _ he => he.1.aside)
  rintro _ _ ⟨hn, rfl, _, c, rfl⟩
  have hstill : Aside v (v.atClock c) := Still.aside ⟨c, rfl⟩
  simp only [wp_bind, wp_withInode, wp_pure]
  exact (h c hn).mono (fun _ _ h' => trans_of Aside hstill h') (fun _ _ h' => trans_of Aside hstill h')

theorem aside_fileWrite (hr : Ready v) (who : OwIdentity) (n : UInt32) {buf : List UInt8} {offset len : UInt32}
    (hbuf : len.toNat ≤ buf.length) (hno : ¬ GrowsFile who v n offset len) :
    wp (withFresh n (fileWrite who n buf offset len)) (fun _ v' => Aside v v') (fun _ v' => Aside v v') v := by
  refine aside_withFresh hr fun c hn => ?_
  have hr : Ready (v.atClock c) := ((show Still v (v.atClock c) from ⟨c, rfl⟩).upholds (T := ∅) hr).ready
  have hrefl := refl_of Aside (v.atClock c)
  unfold fileWrite
  simp only [wp_bind, wp_get, wp_failIf, wp_ite, wp_ofExcept]
  refine ⟨fun _ => hrefl, fun htype => ⟨fun _ => hrefl, fun hlen => ⟨fun _ hw => ?_, fun _ _ => hrefl⟩⟩⟩
  refine ⟨fun _ => hrefl, fun hread => ⟨fun _ hacc => ⟨fun _ => hrefl, fun hmax =>
    ⟨fun _ => hrefl, fun _ => ?_⟩⟩, fun _ _ => hrefl⟩⟩
  have h := hr.sound.fresh (n := n) (live_of_file htype)
  have hlen' : len.toNat ≠ 0 := fun hz => hlen (UInt32.toNat_inj.mp hz)
  have hsum : (offset + len).toNat = offset.toNat + len.toNat := toNat_add_lt (by omega)
  have hlast : ((offset + len - 1) >>> 12).toNat = (offset.toNat + len.toNat - 1) / 4096 := by
    rw [toNat_shiftRight_twelve, toNat_sub_le (by rw [hsum]; change 1 ≤ _; omega), hsum]
    rfl
  by_cases hbeyond : (inodeAt v.dev.disk v.sb n).blockCount.toNat * 4096 < offset.toNat + len.toNat
  · have hfull : v.sb.freeBlocks = 0 := by
      by_contra hfree
      exact hno ⟨⟨hn, hw, fun hf => hf.elim hread fun h => h hacc⟩, htype, hlen, Nat.not_lt.mp hmax, hbeyond, hfree⟩
    refine (ensureBlocks_full (s := ⟨v.atClock c, inodeAt v.dev.disk v.sb n⟩) hfull ?_).mono (fun _ _ hf => hf.elim) ?_
    · rw [hlast]
      exact (Nat.le_div_iff_mul_le (by decide)).mpr (Nat.le_sub_one_of_lt hbeyond)
    · rintro _ _ rfl
      exact hrefl
  have hfit := Nat.not_lt.mp hbeyond
  rw [wp, ensureBlocks_enough (show _ < (inodeAt v.dev.disk v.sb n).blockCount.toNat by rw [hlast]; omega)]
  simp only [wp_onVol]
  refine (writeLoop_spec h hn hbuf hfit).mono ?_ (fun _ _ hf => hf.elim)
  rintro ⟨w, failure⟩ v₂ ⟨_, _, hw, _⟩
  have hfirst := hw.aside h hn
  have hl₂ : Layout v₂.sb := by
    rw [hw.sb]
    exact h.layout
  rw [wp_modifyInode]
  refine (aside_inodeWrite hl₂ n).mono ?_ (fun _ _ he => trans_of Aside hfirst he)
  intro _ s' hwrite
  cases failure with
  | none => exact trans_of Aside hfirst hwrite
  | some e =>
      rw [wp_ite]
      exact ⟨fun _ => trans_of Aside hfirst hwrite, fun _ => trans_of Aside hfirst hwrite⟩

theorem aside_fileTruncate (hr : Ready v) (who : OwIdentity) (n newSize : UInt32) (hno : ¬ CutsFile who v n newSize) :
    wp (withFresh n (fileTruncate who n newSize)) (fun _ v' => Aside v v') (fun _ v' => Aside v v') v := by
  refine aside_withFresh hr fun c hn => ?_
  have hrefl := refl_of Aside (v.atClock c)
  unfold fileTruncate
  simp only [wp_bind, wp_get, wp_failIf, wp_ite, wp_ofExcept, wp_whenever]
  refine ⟨fun _ => hrefl, fun htype => ⟨fun _ hw => ⟨fun _ => hrefl, fun hread => ⟨fun _ hacc => ⟨fun _ => hrefl,
    fun hlt => ⟨fun _ => hrefl, fun _ => ⟨fun hcut => ?_, fun _ => ?_⟩⟩⟩, fun _ _ => hrefl⟩⟩, fun _ _ => hrefl⟩⟩
  · rw [UInt32.lt_iff_toNat_lt, toNat_blocksFor] at hcut
    exact absurd ⟨⟨hn, hw, fun hf => hf.elim hread fun h => h hacc⟩, htype, UInt32.not_le.mp hlt, hcut⟩ hno
  · exact aside_inodeWrite hr.sound.layout n

end

end OwStorage.Owfs
