import OwStorage.Owfs.Lemmas.Content

/-!
# ブロックの解放

解放は、inode の後ろの参照の先を一つずつ空きに戻す。失敗のない装置では途中で止まらず、残した参照はそのまま残る。
-/

namespace OwStorage.Owfs

open Lib Prog

/-- 途中のどのディスクでも、ビットマップのほかは変わらず、`n` のほかの参照の先は使用中である。 -/
def OthersKept (f : UInt32 → Inode) (n : UInt32) (s : FileState) (v : Vol) : Prop :=
  ∃ new, v.dev.trail = new ++ s.vol.dev.trail ∧ ∀ k ∈ new,
    (∀ b, b ∉ s.vol.sb.bitmapRegion → k b = s.vol.dev.disk b) ∧
    ∀ x ∈ refs s.vol.sb (Function.update f n s.inode), x.1 ≠ n →
      target s.vol.dev.disk (Function.update f n s.inode) x ∈ usedSet k s.vol.sb

/-- 呼び出し側の inode `n` の参照のうち、論理番号 `[from, from + k)` のものを返した途中。 -/
structure Returned (f : UInt32 → Inode) (n : UInt32) (s : FileState) (v : Vol) (gone : Set (Option Nat)) : Prop where
  shape : SameShape s.vol.sb v.sb
  dev : s.vol.dev.Evolves s.vol.sb.bitmapRegion v.dev
  exact : FreeExact s.vol.dev.disk s.vol.sb → FreeExact v.dev.disk v.sb
  owns : Owns { x ∈ refs s.vol.sb (Function.update f n s.inode) | ¬ (x.1 = n ∧ x.2 ∈ gone) }
    (target s.vol.dev.disk (Function.update f n s.inode)) (usedSet v.dev.disk v.sb)
  cuts : OthersKept f n s v

section

variable {f : UInt32 → Inode} {n : UInt32} {s : FileState} {v : Vol} {gone : Set (Option Nat)}

theorem OthersKept.refl : OthersKept f n s s.vol := ⟨[], rfl, fun _ hk => absurd hk List.not_mem_nil⟩

theorem Returned.start (h : Sound s.vol.dev.disk s.vol.sb (Function.update f n s.inode)) :
    Returned f n s s.vol ∅ :=
  ⟨refl_of SameShape s.vol.sb, .refl _ _, fun he => he,
    h.owns.transfer fun _ hx => ⟨hx.1, rfl, h.owns.mapsTo hx.1⟩, .refl⟩

theorem Returned.layout (hr : Returned f n s v gone)
    (h : Sound s.vol.dev.disk s.vol.sb (Function.update f n s.inode)) : Layout v.sb := hr.shape.layout h.layout

/-- まだ返していない参照の先を返す。失敗のない装置では必ず返せる。 -/
theorem Returned.free (hr : Returned f n s v gone)
    (h : Sound s.vol.dev.disk s.vol.sb (Function.update f n s.inode))
    (hn : n.toNat < s.vol.sb.totalInodes.toNat) (hf : s.vol.dev.FaultFree)
    (hs : Serves s.vol.dev.toHtlConfig s.vol.sb) {r : Option Nat} (href : s.inode.HasRef r) (hgone : r ∉ gone) :
    wp (bitmapFree (refBlock s.vol.dev.disk s.inode r)) (fun _ v' => Returned f n s v' (insert r gone))
      (fun _ _ => False) v := by
  have hmem : (n, r) ∈ refs s.vol.sb (Function.update f n s.inode) := mem_refs_update_self.mpr ⟨hn, href⟩
  have htgt : target s.vol.dev.disk (Function.update f n s.inode) (n, r) = refBlock s.vol.dev.disk s.inode r :=
    target_update_self
  have hlive : (n, r) ∈ { x ∈ refs s.vol.sb (Function.update f n s.inode) | ¬ (x.1 = n ∧ x.2 ∈ gone) } :=
    ⟨hmem, fun hx => hgone hx.2⟩
  have hused := hr.owns.mapsTo hlive
  have hf' : v.dev.FaultFree := hr.dev.faultFree hf
  have hs' : Serves v.dev.toHtlConfig v.sb := by
    rw [hr.dev.config]
    exact hr.shape.serves hs
  rw [← htgt]
  refine (bitmapFree_spec (hr.layout h) _).mono ?_ ?_
  · rintro _ v' ⟨_, hflip | ⟨hno, _⟩⟩
    · have hshape := trans_of SameShape hr.shape hflip.sameShape
      have hdev : s.vol.dev.Evolves s.vol.sb.bitmapRegion v'.dev :=
        hr.dev.trans (hflip.dev.mono (by rw [hr.shape.bitmapRegion]))
      have howns : Owns { x ∈ refs s.vol.sb (Function.update f n s.inode) | ¬ (x.1 = n ∧ x.2 ∈ insert r gone) }
          (target s.vol.dev.disk (Function.update f n s.inode)) (usedSet v'.dev.disk v'.sb) := by
        refine hr.owns.transfer fun x hx => ?_
        have hx' : x ∈ { x ∈ refs s.vol.sb (Function.update f n s.inode) | ¬ (x.1 = n ∧ x.2 ∈ gone) } :=
          ⟨hx.1, fun hg => hx.2 ⟨hg.1, Set.mem_insert_of_mem _ hg.2⟩⟩
        refine ⟨hx', rfl, ?_⟩
        have hne : x ≠ (n, r) := by
          rintro rfl
          exact hx.2 ⟨rfl, Set.mem_insert _ _⟩
        have hux := hr.owns.mapsTo hx'
        rw [hflip.mem_usedSet hux.1, if_neg (hr.owns.ne hx' hlive hne)]
        exact hux
      obtain ⟨new, htrail, hnew⟩ := hr.cuts
      refine ⟨hshape, hdev, fun he => hflip.freeExact (hr.exact he), howns, v'.dev.disk :: new,
        by rw [hflip.logged, htrail, List.cons_append], fun k hk => ?_⟩
      rcases List.mem_cons.mp hk with rfl | hk
      · refine ⟨hdev.disk, fun x hx hxn => ?_⟩
        rw [← hshape.usedSet]
        exact howns.mapsTo ⟨hx, fun hg => hxn hg.1⟩
      · exact hnew k hk
    · exact absurd hused hno
  · rintro e v' ⟨_, ⟨_, hd⟩ | ⟨_, hd⟩⟩
    · exact hd hused.1
    · exact hd ⟨hf', hs'⟩

theorem Returned.disk_eq (hr : Returned f n s v gone) (hl : Layout s.vol.sb) {b : UInt32} (hb : s.vol.sb.IsData b) :
    v.dev.disk b = s.vol.dev.disk b := hr.dev.disk b (hl.data_not_bitmap hb)

/-- 論理番号 `[lo, lo + k)` の参照。 -/
def refRange (lo k : Nat) : Set (Option Nat) := { r | ∃ j, r = some j ∧ lo ≤ j ∧ j < lo + k }

theorem refRange_zero (lo : Nat) : refRange lo 0 = ∅ := by
  ext r
  constructor
  · rintro ⟨j, _, hlo, hhi⟩
    omega
  · intro hr
    exact hr.elim

theorem insert_refRange (lo k : Nat) : insert (some (lo + k)) (refRange lo k) = refRange lo (k + 1) := by
  ext r
  rw [Set.mem_insert_iff]
  constructor
  · rintro (rfl | ⟨j, rfl, h⟩)
    · exact ⟨lo + k, rfl, by omega, by omega⟩
    · exact ⟨j, rfl, by omega, by omega⟩
  · rintro ⟨j, rfl, h⟩
    by_cases hj : j = lo + k
    · exact .inl (by rw [hj])
    · exact .inr ⟨j, rfl, by omega, by omega⟩

/-- 解放の結果。 -/
structure Released (f : UInt32 → Inode) (n : UInt32) (s s' : FileState) (fromIdx : Nat) : Prop where
  shape : SameShape s.vol.sb s'.vol.sb
  dev : s.vol.dev.Evolves s.vol.sb.bitmapRegion s'.vol.dev
  exact : FreeExact s.vol.dev.disk s.vol.sb → FreeExact s'.vol.dev.disk s'.vol.sb
  fields : s'.inode =
    { s.inode with
      blockCount := s'.inode.blockCount
      directBlocks := s'.inode.directBlocks
      indirectBlock := s'.inode.indirectBlock }
  count : s'.inode.blockCount.toNat = min fromIdx s.inode.blockCount.toNat
  indirect : s'.inode.indirectBlock ≠ 0 ↔ 10 < s'.inode.blockCount.toNat
  owns : Owns (refs s'.vol.sb (Function.update f n s'.inode)) (target s'.vol.dev.disk (Function.update f n s'.inode))
    (usedSet s'.vol.dev.disk s'.vol.sb)
  cuts : OthersKept f n s s'.vol

/-- 解放した後に残る inode。 -/
def Inode.cut (ino : Inode) (fromIdx ind : UInt32) : Inode :=
  { ino.cleared fromIdx with indirectBlock := ind, blockCount := fromIdx }

theorem mapBlock_cut {disk : Disk} {ino : Inode} {fromIdx ind : UInt32} {i : Nat} (hi : i < fromIdx.toNat)
    (hind : 10 ≤ i → disk ind = s.vol.dev.disk ino.indirectBlock) :
    mapBlock disk (ino.cut fromIdx ind) i = mapBlock s.vol.dev.disk ino i := by
  unfold mapBlock
  by_cases h10 : i < 10
  · rw [if_pos h10, if_pos h10]
    change (Vector.ofFn _)[i]?.getD 0 = _
    rw [Vector.getElem?_eq_getElem h10, Vector.getElem_ofFn, if_neg fun h =>
      absurd h.1 (Nat.not_le.mpr hi), Option.getD_some,
      Vector.getElem?_eq_getElem h10, Option.getD_some]
    rfl
  · rw [if_neg h10, if_neg h10]
    change ptrLoad (disk ind) _ = _
    rw [hind (by omega)]

/-- 返し終えた参照のほかを、残した inode の参照とみる。 -/
theorem Returned.released (hr : Returned f n s v gone)
    (h : Sound s.vol.dev.disk s.vol.sb (Function.update f n s.inode))
    (hn : n.toNat < s.vol.sb.totalInodes.toNat) {fromIdx ind : UInt32}
    (hlt : fromIdx.toNat < s.inode.blockCount.toNat)
    (hgone : ∀ i, some i ∈ gone → fromIdx.toNat ≤ i)
    (hind : if 10 < fromIdx.toNat then ind = s.inode.indirectBlock ∧ none ∉ gone else ind = 0) :
    Released f n s ⟨v, s.inode.cut fromIdx ind⟩ fromIdx.toNat := by
  have hl := h.layout
  have hshaped := h.shaped_self hn
  refine ⟨hr.shape, hr.dev, hr.exact, rfl, (min_eq_left hlt.le).symm, ?_, hr.owns.transfer ?_, hr.cuts⟩
  · change ind ≠ 0 ↔ 10 < fromIdx.toNat
    split at hind
    · rename_i hbig
      rw [hind.1, hshaped.indirect]
      omega
    · rename_i hsmall
      exact ⟨fun hz => absurd hind hz, fun hb => absurd hb hsmall⟩
  · rw [hr.shape.refs]
    rintro ⟨m, r⟩ hx
    by_cases hm : m = n
    · subst hm
      rw [mem_refs_update_self] at hx
      rw [target_update_self, target_update_self]
      have hlive : ∀ r, s.inode.HasRef r → r ∉ gone →
          (m, r) ∈ { x ∈ refs s.vol.sb (Function.update f m s.inode) | ¬ (x.1 = m ∧ x.2 ∈ gone) } :=
        fun r hr hg => ⟨mem_refs_update_self.mpr ⟨hn, hr⟩, fun hx => hg hx.2⟩
      cases r with
      | none =>
          have hz : ind ≠ 0 := hx.2
          have hbig : 10 < fromIdx.toNat := by
            by_contra hsmall
            rw [if_neg hsmall] at hind
            exact hz hind
          rw [if_pos hbig] at hind
          have hmem := hlive none (by change _ ≠ _; rw [← hind.1]; exact hz) hind.2
          have hu := hr.owns.mapsTo hmem
          rw [target_update_self] at hu
          exact ⟨hmem, hind.1, hu⟩
      | some i =>
          have hi : i < fromIdx.toNat := hx.2
          have hmem := hlive (some i) (show i < s.inode.blockCount.toNat by omega)
            fun hg => absurd (hgone i hg) (by omega)
          have hu := hr.owns.mapsTo hmem
          rw [target_update_self] at hu
          refine ⟨hmem, mapBlock_cut hi fun h10 => ?_, hu⟩
          rw [if_pos (by omega)] at hind
          rw [hind.1]
          refine hr.disk_eq hl ?_
          have hd := h.isData (x := (m, none)) (mem_refs_update_self.mpr ⟨hn, hshaped.indirect.mpr (by omega)⟩)
          rwa [target_update_self] at hd
    · have hmem : (m, r) ∈ refs s.vol.sb (Function.update f n s.inode) :=
        (mem_refs_update_other hm).mpr ((mem_refs_update_other hm).mp hx)
      have hlive : (m, r) ∈ { x ∈ refs s.vol.sb (Function.update f n s.inode) | ¬ (x.1 = n ∧ x.2 ∈ gone) } :=
        ⟨hmem, fun hg => hm hg.1⟩
      refine ⟨hlive, ?_, hr.owns.mapsTo hlive⟩
      have ht := h.target_of_bitmap hr.dev.disk hmem
      rw [target_update_other hm] at ht ⊢
      exact ht

theorem still_releaseTarget (ino : Inode) (idx : UInt32) (ibuf : Option Block) :
    Preserves (Order.Preimage FileState.volLens.get Still) (releaseTarget ino idx ibuf) := by
  unfold releaseTarget
  refine .ite (.pure _) (.ite (.bind ?_ fun _ => .pure _) (.pure _))
  cases ibuf with
  | none => exact (still_readBlk _).within
  | some buf => exact .pure _

theorem releaseTarget_spec (hr : Returned f n s v gone)
    (h : Sound s.vol.dev.disk s.vol.sb (Function.update f n s.inode))
    (hn : n.toNat < s.vol.sb.totalInodes.toNat) (hf : s.vol.dev.FaultFree)
    (hs : Serves s.vol.dev.toHtlConfig s.vol.sb) {idx : UInt32} (hidx : idx.toNat < s.inode.blockCount.toNat)
    {ibuf : Option Block} (hbuf : ∀ buf, ibuf = some buf → buf = s.vol.dev.disk s.inode.indirectBlock) :
    wp (releaseTarget s.inode idx ibuf)
      (fun r s' => r.1 = mapBlock s.vol.dev.disk s.inode idx.toNat ∧
        (∀ buf, r.2 = some buf → buf = s.vol.dev.disk s.inode.indirectBlock) ∧
        s'.inode = s.inode ∧ Returned f n s s'.vol gone)
      (fun _ _ => False) ⟨v, s.inode⟩ := by
  have hshaped := h.shaped_self hn
  unfold releaseTarget
  rw [wp_ite]
  refine ⟨fun hlt => ⟨?_, hbuf, rfl, hr⟩, fun hge => ?_⟩
  · unfold mapBlock
    rw [if_pos (show idx.toNat < 10 from UInt32.lt_iff_toNat_lt.mp hlt)]
  · have h10 : 10 ≤ idx.toNat := by
      rw [UInt32.not_lt, UInt32.le_iff_toNat_le] at hge
      exact hge
    have hind := hshaped.indirect.mpr (show 10 < s.inode.blockCount.toNat by omega)
    have hd : s.vol.sb.IsData s.inode.indirectBlock := by
      have hd := h.isData (x := (n, none)) (mem_refs_update_self.mpr ⟨hn, hind⟩)
      rwa [target_update_self] at hd
    have hmap : ∀ buf, buf = s.vol.dev.disk s.inode.indirectBlock →
        ptrLoad buf (idx - 10).toNat = mapBlock s.vol.dev.disk s.inode idx.toNat := by
      rintro buf rfl
      unfold mapBlock
      rw [if_neg (by omega), toNat_sub_le (show (10 : UInt32).toNat ≤ _ from h10)]
      rfl
    rw [if_pos hind, wp_bind]
    cases ibuf with
    | some buf => exact ⟨hmap buf (hbuf buf rfl), hbuf, rfl, hr⟩
    | none =>
        rw [wp_onVol]
        refine wp_readBlk (fun c _ => ?_) (fun c hno => hno ⟨hr.dev.faultFree hf, ?_⟩)
        · have hsame := hr.disk_eq h.layout hd
          refine ⟨hmap _ hsame, fun buf hb => ?_, rfl, hr.shape, hr.dev.trans .atClock, hr.exact, hr.owns, hr.cuts⟩
          rw [← Option.some.inj hb]
          exact hsame
        · change v.dev.Reads _
          rw [hr.dev.config]
          exact (hs.writes _ hd.2).toReads

/-- 失敗のない装置では、解放は書き込みの許されないときにだけ断る。 -/
theorem blockmapRelease_spec (h : Sound s.vol.dev.disk s.vol.sb (Function.update f n s.inode))
    (hn : n.toNat < s.vol.sb.totalInodes.toNat) (hf : s.vol.dev.FaultFree)
    (hs : Serves s.vol.dev.toHtlConfig s.vol.sb) (fromIdx : UInt32) :
    wp (blockmapRelease fromIdx) (fun _ s' => Released f n s s' fromIdx.toNat)
      (fun _ s' => s' = s ∧ volumeWritable s.vol.sb ≠ .ok ()) s := by
  have hshaped := h.shaped_self hn
  unfold blockmapRelease
  simp only [wp_bind, wp_get, wp_ofExcept, wp_ite]
  refine ⟨fun _ _ => ⟨fun hge => ?_, fun hlt => ?_⟩, fun e he => ⟨trivial, fun hok => ?_⟩⟩
  · refine ⟨refl_of SameShape s.vol.sb, .refl _ _, fun he => he, rfl, ?_, hshaped.indirect, h.owns, .refl⟩
    exact (min_eq_right (UInt32.le_iff_toNat_le.mp hge)).symm
  · rw [ge_iff_le, UInt32.not_le, UInt32.lt_iff_toNat_lt] at hlt
    have hcount : (s.inode.blockCount - fromIdx).toNat = s.inode.blockCount.toNat - fromIdx.toNat :=
      toNat_sub_le hlt.le
    refine wp_loop (fun k ibuf s' => s'.inode = s.inode ∧ Returned f n s s'.vol (refRange fromIdx.toNat k) ∧
      ∀ buf, ibuf = some buf → buf = s.vol.dev.disk s.inode.indirectBlock) ⟨rfl, ?_, by simp⟩ ?_ ?_
    · rw [refRange_zero]
      exact .start h
    · rintro k ibuf ⟨v₁, ino⟩ hk ⟨hino, hr, hbuf⟩
      obtain rfl : ino = s.inode := hino
      have hidx : (fromIdx + UInt32.ofNat k).toNat = fromIdx.toNat + k := by
        have := s.inode.blockCount.toNat_lt
        rw [toNat_add_lt (by rw [toNat_ofNat_lt (by omega)]; omega), toNat_ofNat_lt (by omega)]
      simp only [wp_bind]
      refine (releaseTarget_spec hr h hn hf hs (by rw [hidx]; omega) hbuf).mono ?_ (fun _ _ hf => hf.elim)
      rintro ⟨b, ibuf'⟩ ⟨v₂, ino⟩ ⟨hb, hbuf', hino, hr'⟩
      obtain rfl : ino = s.inode := hino
      simp only at hb hbuf'
      have hi : fromIdx.toNat + k < s.inode.blockCount.toNat := by omega
      have hnz : b ≠ 0 := by
        rw [hb, hidx]
        exact h.layout.data_ne_zero (h.mapBlock_isData hn hi)
      simp only [wp_bind, wp_whenever, wp_onVol]
      refine ⟨fun _ => ?_, fun hz => absurd hnz hz⟩
      rw [hb, hidx]
      refine (hr'.free h hn hf hs (r := some (fromIdx.toNat + k)) hi ?_).mono ?_ (fun _ _ hf => hf.elim)
      · rintro ⟨j, hj, hj'⟩
        have := Option.some.inj hj
        omega
      · intro _ v₃ hr''
        rw [insert_refRange] at hr''
        exact ⟨rfl, hr'', hbuf'⟩
    · rintro ibuf ⟨v₁, ino⟩ ⟨hino, hr, _⟩
      obtain rfl : ino = s.inode := hino
      simp only [wp_modifyInode, wp_whenever, wp_bind, wp_onVol]
      refine ⟨fun hdrop => ?_, fun hkeep => ?_⟩
      · have hsmall : ¬ 10 < fromIdx.toNat := fun hb => hdrop.1 (UInt32.lt_iff_toNat_lt.mpr hb)
        refine (hr.free h hn hf hs (r := none) hdrop.2 ?_).mono ?_ (fun _ _ hf => hf.elim)
        · rintro ⟨j, hj, _⟩
          cases hj
        · intro _ v₂ hr'
          refine hr'.released h hn hlt ?_ (by rw [if_neg hsmall])
          rintro i (hi | ⟨j, hj, hlo, _⟩)
          · cases hi
          · rw [Option.some.inj hj]
            exact hlo
      · refine hr.released h hn hlt ?_ ?_
        · rintro i ⟨j, hj, hlo, _⟩
          rw [Option.some.inj hj]
          exact hlo
        · split
          · refine ⟨rfl, ?_⟩
            rintro ⟨j, hj, _⟩
            cases hj
          · rename_i hsmall
            by_contra hz
            exact hkeep ⟨fun hb => hsmall (UInt32.lt_iff_toNat_lt.mp hb), hz⟩
  · rw [he] at hok
    cases hok

end

end OwStorage.Owfs
