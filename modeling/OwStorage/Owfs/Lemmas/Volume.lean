import OwStorage.Owfs.Lemmas.File
import OwStorage.Owfs.Run

/-!
# ボリュームの不変条件

ディスクの表から読んだ inode について、所有の関係と空きの数と検査値の正しさを一つの条件にまとめ、ファイルとカタログの
操作がどれもこれを保つことを示すための関係を置く。
-/

namespace OwStorage.Owfs

open Lib Prog

/-- 表の inode `n`。種類のないスロットは何も指さない。 -/
def slotInode (disk : Disk) (sb : Superblock) (n : UInt32) : Inode :=
  if (inodeAt disk sb n).entryType = 0 then Inode.zero else inodeAt disk sb n

/-- 表のどの inode の参照も、別の使用中のデータブロックを指す。 -/
def WellFormed (v : Vol) : Prop := Sound v.dev.disk v.sb (slotInode v.dev.disk v.sb)

/-- 所有の関係が成り立ち、空きの数も正しいボリューム。 -/
structure VolInv (v : Vol) : Prop where
  sound : WellFormed v
  exact : FreeExact v.dev.disk v.sb

/-- 表のどの inode の検査値も合う。 -/
def Summed (v : Vol) : Prop :=
  ∀ n : UInt32, n.toNat < v.sb.totalInodes.toNat → (inodeAt v.dev.disk v.sb n).entryType ≠ 0 →
    inodeVerifyChecksum (inodeAt v.dev.disk v.sb n) = true

/-- 失敗のない装置の上の、所有の関係の成り立つボリューム。 -/
structure Ready (v : Vol) : Prop where
  sound : WellFormed v
  faultFree : v.dev.FaultFree
  serves : Serves v.dev.toHtlConfig v.sb

/-- 空きの数の欄とスーパーブロックの外のブロックだけが変わり、空きの数も inode の検査値も正しいままである。 -/
structure Carry (v v' : Vol) : Prop where
  shape : SameShape v.sb v'.sb
  own : v.dev.Evolves v.sb.ownBlocks v'.dev
  exact : FreeExact v.dev.disk v.sb → FreeExact v'.dev.disk v'.sb
  sums : Summed v → Summed v'

instance : IsPreorder Vol Carry where
  refl v := ⟨refl_of SameShape v.sb, .refl _ _, id, id⟩
  trans _ _ _ h h' := ⟨trans_of SameShape h.shape h'.shape, h.own.trans (h.shape.ownBlocks ▸ h'.own),
    h'.exact ∘ h.exact, h'.sums ∘ h.sums⟩

theorem Carry.dev {v v' : Vol} (h : Carry v v') : v.dev.Evolves {b | b ≠ superblockBlock} v'.dev :=
  h.own.mono fun _ hb => ne_superblock_of_inner hb.1

/-- `T` の外の inode は、記録も、参照の先のブロックの内容も変わらない。 -/
structure Spares (T : Set UInt32) (v v' : Vol) : Prop where
  record : ∀ m : UInt32, m.toNat < v.sb.totalInodes.toNat → m ∉ T →
    inodeAt v'.dev.disk v'.sb m = inodeAt v.dev.disk v.sb m
  blocks : ∀ x ∈ refs v.sb (slotInode v.dev.disk v.sb), x.1 ∉ T →
    v'.dev.disk (target v.dev.disk (slotInode v.dev.disk v.sb) x) =
      v.dev.disk (target v.dev.disk (slotInode v.dev.disk v.sb) x)

/-- `T` の inode だけを書き換えて、条件を満たすボリュームに移った。 -/
structure Moved (T : Set UInt32) (v v' : Vol) : Prop where
  ready : Ready v'
  carry : Carry v v'
  spares : Spares T v v'

/-- 条件を満たすボリュームからは、`T` の inode だけを書き換えて、条件を満たすボリュームに移る。 -/
def Upholds (T : Set UInt32) (v v' : Vol) : Prop := Ready v → Moved T v v'

section

variable {v v' v'' : Vol} {n : UInt32} {p : Inode} {disk : Disk} {sb sb' : Superblock} {f g : UInt32 → Inode}
  {T T' : Set UInt32}

theorem SameShape.slotInode (h : SameShape sb sb') : slotInode disk sb' = slotInode disk sb := by
  obtain ⟨a, b, rfl⟩ := h
  rfl

theorem Spares.slotInode_eq (h : Spares T v v') {m : UInt32} (hm : m.toNat < v.sb.totalInodes.toNat) (hT : m ∉ T) :
    slotInode v'.dev.disk v'.sb m = slotInode v.dev.disk v.sb m := by
  unfold Owfs.slotInode
  rw [h.record m hm hT]

/-- `T` の外の inode の参照の先は、前後で同じブロックである。 -/
theorem Spares.target_eq (h : Spares T v v') (hw : WellFormed v) {x : Ref}
    (hx : x ∈ refs v.sb (slotInode v.dev.disk v.sb)) (hT : x.1 ∉ T) :
    target v'.dev.disk (slotInode v'.dev.disk v'.sb) x = target v.dev.disk (slotInode v.dev.disk v.sb) x := by
  have hrow := h.slotInode_eq hx.1 hT
  have ht := target_congr hx fun hbc => h.blocks (x.1, none) (Sound.indirect_live hw hx.1 hbc) hT
  rw [← ht]
  unfold target
  rw [hrow]

theorem Spares.refs_mem (h : Spares T v v') (hs : SameShape v.sb v'.sb) {x : Ref}
    (hx : x ∈ refs v.sb (slotInode v.dev.disk v.sb)) (hT : x.1 ∉ T) :
    x ∈ refs v'.sb (slotInode v'.dev.disk v'.sb) := by
  rw [hs.refs]
  refine ⟨hx.1, ?_⟩
  rw [h.slotInode_eq hx.1 hT]
  exact hx.2

theorem Spares.trans (h : Spares T v v') (h' : Spares T v' v'') (hw : WellFormed v) (hs : SameShape v.sb v'.sb) :
    Spares T v v'' := by
  refine ⟨fun m hm hT => ?_, fun x hx hT => ?_⟩
  · rw [h'.record m (by rwa [hs.totalInodes]) hT, h.record m hm hT]
  · have hb := h'.blocks x (h.refs_mem hs hx hT) hT
    rw [h.target_eq hw hx hT] at hb
    rw [hb, h.blocks x hx hT]

theorem Spares.mono (h : Spares T v v') (hT : T ⊆ T') : Spares T' v v' :=
  ⟨fun m hm hm' => h.record m hm fun ht => hm' (hT ht), fun x hx hx' => h.blocks x hx fun ht => hx' (hT ht)⟩

theorem Moved.mono (h : Moved T v v') (hT : T ⊆ T') : Moved T' v v' := ⟨h.ready, h.carry, h.spares.mono hT⟩

theorem Moved.trans (h : Moved T v v') (h' : Moved T v' v'') (hw : WellFormed v) : Moved T v v'' :=
  ⟨h'.ready, trans_of Carry h.carry h'.carry, h.spares.trans h'.spares hw h.carry.shape⟩

theorem Ready.moved (h : Ready v) : Moved T v v := ⟨h, refl_of Carry v, fun _ _ _ => rfl, fun _ _ _ => rfl⟩

instance : IsPreorder Vol (Upholds T) where
  refl _ h := h.moved
  trans _ _ _ h h' hr := (h hr).trans (h' (h hr).ready) hr.sound

theorem Upholds.mono (h : Upholds T v v') (hT : T ⊆ T') : Upholds T' v v' := fun hr => (h hr).mono hT

end

section

variable {v v' : Vol} {n : UInt32} {p : Inode} {disk : Disk} {sb sb' : Superblock} {f g : UInt32 → Inode}
  {T : Set UInt32}

theorem slotInode_of_live (h : (inodeAt disk sb n).entryType ≠ 0) : slotInode disk sb n = inodeAt disk sb n :=
  if_neg h

theorem update_slotInode (h : (inodeAt disk sb n).entryType ≠ 0) :
    Function.update (slotInode disk sb) n (inodeAt disk sb n) = slotInode disk sb := by
  rw [← slotInode_of_live h, Function.update_eq_self]

theorem Sound.congr_table (h : Sound disk sb f) (hg : ∀ m : UInt32, m.toNat < sb.totalInodes.toNat → g m = f m) :
    Sound disk sb g := by
  refine ⟨h.layout, fun m hm => ?_, h.owns.transfer fun x hx => ?_⟩
  · rw [hg m hm]
    exact h.shaped m hm
  · have hx' : x ∈ refs sb f := by
      refine ⟨hx.1, ?_⟩
      rw [← hg x.1 hx.1]
      exact hx.2
    refine ⟨hx', ?_, h.owns.mapsTo hx'⟩
    unfold target
    rw [hg x.1 hx.1]

/-- 一つの inode を書き換えた結果を、ボリュームの条件にまとめる。 -/
theorem Settled.wellFormed (h : Settled (slotInode v.dev.disk v.sb) n v v' p) (ht : p.entryType ≠ 0) :
    WellFormed v' := by
  refine h.sound.congr_table fun m hm => ?_
  rw [h.shape.totalInodes] at hm
  unfold Owfs.slotInode
  rw [h.table m hm]
  by_cases hmn : m = n
  · rw [if_pos hmn, if_neg ht, hmn, Function.update_self]
  · rw [if_neg hmn, Function.update_of_ne hmn]

theorem Settled.summed (h : Settled f n v v' p) (hv : Summed v) (hp : inodeVerifyChecksum p = true) :
    Summed v' := by
  intro m hm
  rw [h.shape.totalInodes] at hm
  rw [h.table m hm]
  split
  · exact fun _ => hp
  · exact hv m hm

theorem Settled.upholds (h : Settled (slotInode v.dev.disk v.sb) n v v' p) (ht : p.entryType ≠ 0)
    (hp : Summed v → inodeVerifyChecksum p = true) : Upholds {n} v v' := by
  intro hr
  refine ⟨⟨h.wellFormed ht, h.dev.faultFree hr.faultFree, ?_⟩, ⟨h.shape, h.dev, h.exact,
    fun hs => h.summed hs (hp hs)⟩, fun m hm hmn => ?_, fun x hx hxn => h.others x hx hxn⟩
  · rw [h.dev.config]
    exact h.shape.serves hr.serves
  · rw [h.table m hm, if_neg (show m ≠ n from hmn)]

theorem Still.upholds (h : Still v v') : Upholds T v v' := by
  obtain ⟨c, rfl⟩ := h
  intro hr
  exact ⟨⟨hr.sound, hr.faultFree, hr.serves⟩, ⟨refl_of SameShape v.sb, .atClock, id, id⟩,
    fun _ _ _ => rfl, fun _ _ _ => rfl⟩

end

section

variable {α : Type} {p : OwfsM α} {v : Vol} {T : Set UInt32}

theorem upholds_of_still (h : Preserves Still p) : Preserves (Upholds T) p := fun v =>
  (h v).mono (fun _ _ hs => hs.upholds) (fun _ _ hs => hs.upholds)

theorem upholds_of_ready
    (h : ∀ v, Ready v → wp p (fun _ v' => Upholds T v v') (fun _ v' => Upholds T v v') v) :
    Preserves (Upholds T) p := by
  intro v
  by_cases hr : Ready v
  · exact h v hr
  · have hno : ∀ v', Upholds T v v' := fun _ hr' => absurd hr' hr
    exact wp_trivial.mono (fun _ v' _ => hno v') (fun _ v' _ => hno v')

theorem upholds_mono {T' : Set UInt32} (h : Preserves (Upholds T) p) (hT : T ⊆ T') : Preserves (Upholds T') p :=
  fun v => (h v).mono (fun _ _ hu => hu.mono hT) (fun _ _ hu => hu.mono hT)

theorem upholds_univ (h : Preserves (Upholds T) p) : Preserves (Upholds Set.univ) p :=
  upholds_mono h (Set.subset_univ T)

theorem Ready.after (hr : Ready v) (h : Preserves (Upholds T) p) : Moved T v (p v).2 :=
  (h v).state (I := fun v' => Upholds T v v') hr

theorem discard_state : (discard p v).2 = (p v).2 := by
  change (Prog.bind p _ v).2 = _
  unfold Prog.bind
  rcases p v with ⟨r, v'⟩
  cases r <;> rfl

theorem upholds_discard (h : Preserves (Upholds T) p) : Preserves (Upholds T) (discard p) := h.bind fun _ => .pure _

theorem inodeRead_state (n : UInt32) (v : Vol) : (inodeRead n v).2 = (inodeLoad n v).2 := by
  have hwp : wp (inodeRead n) (fun _ v' => v' = (inodeLoad n v).2) (fun _ v' => v' = (inodeLoad n v).2) v := by
    have hload : wp (inodeLoad n) (fun _ v' => v' = (inodeLoad n v).2) (fun _ v' => v' = (inodeLoad n v).2) v := by
      unfold wp
      split <;> simp_all
    unfold inodeRead
    rw [wp_bind]
    refine hload.mono ?_ (fun _ _ h => h)
    intro ino v' hv
    simp only [wp_bind, wp_failIf, wp_pure]
    exact ⟨fun _ => hv, fun _ => hv⟩
  exact hwp.state

theorem Ready.inodeRead_run {v : Vol} (hr : Ready v) {n : UInt32} (hn : n.toNat < v.sb.totalInodes.toNat)
    (hsum : (inodeAt v.dev.disk v.sb n).entryType ≠ 0 → inodeVerifyChecksum (inodeAt v.dev.disk v.sb n) = true) :
    inodeRead n v = (.ok (inodeAt v.dev.disk v.sb n), (inodeLoad n v).2) := by
  have hwp : wp (inodeRead n) (fun ino _ => ino = inodeAt v.dev.disk v.sb n) (fun _ _ => False) v := by
    refine (inodeRead_spec hr.sound.layout n).mono (fun _ _ h => h.2.1) ?_
    rintro e v' ⟨_, ⟨_, hno⟩ | ⟨_, ht, hbad⟩ | ⟨_, hno⟩⟩
    · exact hno hn
    · rw [hsum ht] at hbad
      cases hbad
    · exact hno ⟨hr.faultFree, hr.serves⟩
  obtain ⟨ino, v', hrun, rfl⟩ := hwp.exists_ok
  rw [hrun, ← inodeRead_state, hrun]

/-- 条件を満たすボリュームでは、表の inode は必ず読める。 -/
theorem Ready.inodeRead_eq {v : Vol} (hr : Ready v) (hs : Summed v) {n : UInt32}
    (hn : n.toNat < v.sb.totalInodes.toNat) :
    inodeRead n v = (.ok (inodeAt v.dev.disk v.sb n), (inodeLoad n v).2) := hr.inodeRead_run hn (hs n hn)

theorem withFresh_state {n : UInt32} {p : FileM α} (hr : Ready v) (hs : Summed v)
    (hn : n.toNat < v.sb.totalInodes.toNat) :
    (withFresh n p v).2 = (p ⟨(inodeLoad n v).2, inodeAt v.dev.disk v.sb n⟩).2.vol := by
  have hrun : withFresh n p v = discard (withInode (inodeAt v.dev.disk v.sb n) p) (inodeLoad n v).2 :=
    run_bind (hr.inodeRead_eq hs hn) rfl
  rw [hrun, discard_state, withInode_state]

end

end OwStorage.Owfs
