import OwStorage.Owfs.Lemmas.Catalog

/-!
# inode の属性の変更

持ち主と許可と守りの旗を変えるには、inode を読み、その欄を書き換えて `owfs_inode_write` で書き戻す。対応するブロックは
変わらず、カタログの中身も変わらない。
-/

namespace OwStorage.Owfs

open Lib Prog

/-- 変更できる属性。 -/
structure Attrs where
  permissions : UInt16
  ownerUid : UInt16
  ownerGid : UInt16
  securityFlags : UInt8

def Inode.withAttrs (ino : Inode) (a : Attrs) : Inode :=
  { ino with
    permissions := a.permissions
    ownerUid := a.ownerUid
    ownerGid := a.ownerGid
    securityFlags := a.securityFlags }

/-- 使われている inode `n` の属性を変える。 -/
def setAttrs (n : UInt32) (a : Attrs) : OwfsM Unit := do
  let ino ← inodeRead n
  Prog.failIf (ino.entryType = 0) .notFound
  discard (withInode (ino.withAttrs a) (inodeWrite n))

/-- 属性の変更の結果。 -/
structure Retagged (v v' : Vol) (n : UInt32) (a : Attrs) : Prop where
  inTable : n.toNat < v.sb.totalInodes.toNat
  used : (inodeAt v.dev.disk v.sb n).entryType ≠ 0
  moved : Moved {n} v v'
  record : inodeAt v'.dev.disk v'.sb n = ((inodeAt v.dev.disk v.sb n).withAttrs a).sealed
  contents : contents v' n = contents v n

section

variable {v v' : Vol} {n : UInt32} {a : Attrs} {p : Inode}

theorem Recorded.retagged (hrec : Recorded v v' n ((inodeAt v.dev.disk v.sb n).withAttrs a).sealed) (hr : Ready v)
    (ht : (inodeAt v.dev.disk v.sb n).entryType ≠ 0) : Retagged v v' n a := by
  have hn := hrec.inTable
  have h := hr.sound.fresh ht
  have hrow : inodeAt v'.dev.disk v'.sb n = ((inodeAt v.dev.disk v.sb n).withAttrs a).sealed := by
    rw [hrec.sb, hrec.table n hn, if_pos rfl]
  have hshaped := h.shaped_self hn
  have hsound : Sound v.dev.disk v.sb (Function.update (slotInode v.dev.disk v.sb) n
      ((inodeAt v.dev.disk v.sb n).withAttrs a).sealed) := by
    refine h.replace ⟨hshaped.blocks, hshaped.size, hshaped.indirect⟩ (owns_shrink h.owns fun r hr => ?_)
    cases r with
    | none => exact ⟨hr, rfl⟩
    | some i => exact ⟨hr, rfl⟩
  have hset := hrec.settled (refl_of Staged v) hsound h fun _ _ _ => rfl
  refine ⟨hn, ht, hset.upholds ht (fun _ => verify_sealed _) hr, hrow, ?_⟩
  unfold Owfs.contents
  rw [hrow]
  exact entries_congr rfl fun i hi => hrec.block_eq h hn rfl rfl hi

theorem setAttrs_spec (hr : Ready v) (n : UInt32) (a : Attrs) :
    wp (setAttrs n a) (fun _ v' => Retagged v v' n a) (fun _ v' => Still v v') v := by
  unfold setAttrs
  rw [wp_bind]
  refine (inodeRead_spec hr.sound.layout n).mono ?_ (fun _ _ he => he.1)
  rintro _ _ ⟨_, rfl, _, c, rfl⟩
  rw [wp_bind, wp_failIf]
  refine ⟨fun _ => ⟨c, rfl⟩, fun ht => ?_⟩
  unfold discard
  rw [wp_bind, wp_withInode]
  refine (inodeWrite_spec (s := ⟨v.atClock c, (inodeAt v.dev.disk v.sb n).withAttrs a⟩) hr.sound.layout n).mono ?_ ?_
  · rintro _ s' ⟨_, hrec⟩
    have hdev := (HtlDevice.Evolves.atClock (d := v.dev) (c := c)).trans hrec.dev
    exact Recorded.retagged ⟨hrec.inTable, hrec.sb, hdev, hrec.table⟩ hr ht
  · rintro _ s' ⟨hs, _⟩
    exact trans_of Still ⟨c, rfl⟩ hs

theorem upholds_setAttrs (n : UInt32) (a : Attrs) : Preserves (Upholds {n}) (setAttrs n a) :=
  upholds_of_ready fun _ hr => (setAttrs_spec hr n a).mono (fun _ _ h _ => h.moved) (fun _ _ h => h.upholds)

/-- 検査値の確認を省いた、属性の変更の後のボリューム。 -/
@[irreducible] def retagged (n : UInt32) (a : Attrs) (v : Vol) : Vol :=
  (inodeWrite n ⟨(inodeLoad n v).2, (inodeAt v.dev.disk v.sb n).withAttrs a⟩).2.vol

theorem setAttrs_state (hr : Ready v) (hs : Summed v) (hn : n.toNat < v.sb.totalInodes.toNat)
    (ht : (inodeAt v.dev.disk v.sb n).entryType ≠ 0) : (setAttrs n a v).2 = retagged n a v := by
  have hrun : setAttrs n a v =
      discard (withInode ((inodeAt v.dev.disk v.sb n).withAttrs a) (inodeWrite n)) (inodeLoad n v).2 :=
    run_bind (hr.inodeRead_eq hs hn) (run_bind (run_failIf ht) rfl)
  rw [hrun, discard_state, withInode_state]
  unfold retagged
  rfl

end

end OwStorage.Owfs
