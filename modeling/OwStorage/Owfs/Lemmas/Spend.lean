import OwStorage.Owfs.Lemmas.Catalog

/-!
# スーパーブロックのうち、操作が変える欄

inode の割り当てと解放のほかの操作は、メモリの上のスーパーブロックのうち、空きブロックの数の欄だけを変える。装置の失敗が
あっても変わらない。
-/

namespace OwStorage.Owfs

open Lib Prog

/-- 空きブロックの数の欄だけが変わる。 -/
def Spends (v v' : Vol) : Prop := ∃ k, v'.sb = { v.sb with freeBlocks := k }

instance : IsPreorder Vol Spends where
  refl v := ⟨v.sb.freeBlocks, rfl⟩
  trans := by
    rintro v v₁ v₂ ⟨k, h⟩ ⟨k', h'⟩
    refine ⟨k', ?_⟩
    rw [h', h]

theorem Spends.freeInodes {v v' : Vol} (h : Spends v v') : v'.sb.freeInodes = v.sb.freeInodes := by
  obtain ⟨k, hk⟩ := h
  rw [hk]

theorem Still.spends {v v' : Vol} (h : Still v v') : Spends v v' := by
  obtain ⟨c, rfl⟩ := h
  exact refl_of Spends v

/-! ## ブロックの読み書きとビットマップ -/

section

variable {α : Type} {v : Vol}

theorem spends_of_still {p : OwfsM α} (h : Preserves Still p) : Preserves Spends p := fun s =>
  (h s).mono (fun _ _ hs => hs.spends) (fun _ _ hs => hs.spends)

theorem spends_readBlk (b : UInt32) : Preserves Spends (readBlk b) := spends_of_still (still_readBlk b)

theorem spends_writeBlk (b : UInt32) (blk : Block) : Preserves Spends (writeBlk b blk) := fun v =>
  wp_writeBlk (fun _ _ => ⟨v.sb.freeBlocks, rfl⟩) (fun _ _ _ _ => ⟨v.sb.freeBlocks, rfl⟩)

theorem spends_zeroBlk (b : UInt32) : Preserves Spends (zeroBlk b) := fun v =>
  wp_zeroBlk (fun _ _ => ⟨v.sb.freeBlocks, rfl⟩) (fun _ _ _ _ => ⟨v.sb.freeBlocks, rfl⟩)

theorem spends_setFree (f : Superblock → UInt32) :
    Preserves Spends (modifySb fun sb => { sb with freeBlocks := f sb }) := fun _ => ⟨_, rfl⟩

theorem spends_bitmapAlloc : Preserves Spends bitmapAlloc := by
  unfold bitmapAlloc
  refine .bind .get fun v => .bind (.failIf _ _) fun _ => .bind (.loop fun b _ => ?_) fun r => ?_
  · refine .bind (spends_readBlk _) fun buf => ?_
    cases findClear buf with
    | none => exact .pure _
    | some p =>
        obtain ⟨byteIdx, bit⟩ := p
        refine .bind ?_ fun _ => .pure _
        unfold takeBit
        exact .bind (.failIf _ _) fun _ => .bind (spends_writeBlk _ _) fun _ =>
          .bind (spends_setFree _) fun _ => .pure _
  · cases r with
    | inl _ => exact .throw _
    | inr _ => exact .pure _

theorem spends_bitmapFree (b : UInt32) : Preserves Spends (bitmapFree b) := by
  unfold bitmapFree
  exact .bind .get fun v => .bind (.failIf _ _) fun _ => .bind (.failIf _ _) fun _ => .bind (spends_readBlk _) fun _ =>
    .whenever (.bind (spends_writeBlk _ _) fun _ => spends_setFree _)

theorem spends_allocAndZero : Preserves Spends allocAndZero := by
  unfold allocAndZero
  refine .bind spends_bitmapAlloc fun b => .bind (spends_zeroBlk b).attempt fun r => ?_
  cases r with
  | ok _ => exact .pure _
  | error e => exact .bind (spends_bitmapFree b).attempt fun _ => .throw _

/-! ## ブロック表とファイル -/

/-- 呼び出し側の持つ inode を問わず、ボリュームについて `Spends` が成り立つ。 -/
abbrev SpendsIn : FileState → FileState → Prop := Order.Preimage FileState.vol Spends

theorem spends_onVol {p : OwfsM α} (h : Preserves Spends p) : Preserves SpendsIn (onVol p) := h.within

theorem spends_modifyInode (f : Inode → Inode) : Preserves SpendsIn (modifyInode f) := fun s => refl_of Spends s.vol

theorem spends_ensureIndirect (idx dataBlock : UInt32) : Preserves SpendsIn (ensureIndirect idx dataBlock) := by
  have hundo : ∀ (e : OwfsErr), Preserves SpendsIn (do
      let _ ← Prog.attempt (ε := OwfsErr) (onVol (bitmapFree dataBlock))
      Prog.throw e : FileM Block) := fun e => .bind (spends_onVol (spends_bitmapFree _)).attempt fun _ => .throw _
  unfold ensureIndirect
  refine .bind .get fun s => .bind (.ite (.bind (spends_onVol spends_allocAndZero).attempt fun r => ?_)
    (.bind (spends_onVol (spends_readBlk _)).attempt fun r => ?_)) fun ibuf => .bind .get fun s' =>
    .bind (spends_onVol (spends_writeBlk _ _)).attempt fun r => ?_
  · cases r with
    | error e => exact hundo e
    | ok ind => exact .bind (spends_modifyInode _) fun _ => .pure _
  · cases r with
    | error e => exact hundo _
    | ok buf => exact .pure _
  · cases r with
    | ok _ => exact .pure _
    | error e =>
        refine .bind (spends_onVol (spends_bitmapFree _)).attempt fun _ => .ite ?_ (.throw _)
        exact .bind (spends_onVol (spends_bitmapFree _)).attempt fun _ => .bind (spends_modifyInode _) fun _ => .throw _

theorem spends_blockmapEnsure (idx : UInt32) : Preserves SpendsIn (blockmapEnsure idx) := by
  unfold blockmapEnsure
  refine .bind .get fun s => .bind (.failIf _ _) fun _ => .bind (.ofExcept _) fun _ => .ite ?_ ?_
  · exact spends_onVol (spends_of_still (still_blockmapGet _ _))
  · exact .bind (.failIf _ _) fun _ => .bind (spends_onVol spends_allocAndZero) fun b =>
      .bind (.ite (spends_modifyInode _) (spends_ensureIndirect _ _)) fun _ =>
        .bind (spends_modifyInode _) fun _ => .pure _

theorem spends_releaseTarget (ino : Inode) (idx : UInt32) (ibuf : Option Block) :
    Preserves SpendsIn (releaseTarget ino idx ibuf) := by
  unfold releaseTarget
  refine .ite (.pure _) (.ite (.bind ?_ fun _ => .pure _) (.pure _))
  cases ibuf with
  | some buf => exact .pure _
  | none => exact spends_onVol (spends_readBlk _)

theorem spends_blockmapRelease (fromIdx : UInt32) : Preserves SpendsIn (blockmapRelease fromIdx) := by
  unfold blockmapRelease
  refine .bind .get fun s => .bind (.ofExcept _) fun _ => .ite (.pure _) (.bind (.loop fun i ibuf => ?_) fun _ =>
    .bind (spends_modifyInode _) fun _ => .bind (.whenever (.bind (spends_onVol (spends_bitmapFree _)) fun _ =>
    spends_modifyInode _)) fun _ => spends_modifyInode _)
  refine .bind (spends_releaseTarget _ _ _) fun r => ?_
  obtain ⟨b, ibuf⟩ := r
  exact .bind (.whenever (spends_onVol (spends_bitmapFree b))) fun _ => .pure _

theorem spends_inodeWrite (n : UInt32) : Preserves SpendsIn (inodeWrite n) := by
  unfold inodeWrite
  exact .bind .get fun s => .bind (.failIf _ _) fun _ => .bind (.ofExcept _) fun _ =>
    .bind (spends_onVol (spends_readBlk _)) fun _ => .bind (spends_modifyInode _) fun _ => .bind .get fun _ =>
    spends_onVol (spends_writeBlk _ _)

theorem spends_ensureBlocks (lastBlock : UInt32) : Preserves SpendsIn (ensureBlocks lastBlock) := by
  unfold ensureBlocks
  refine .bind .get fun s => .bind (.loop fun _ _ => .bind .get fun s' => .ite ?_ (.pure _)) fun _ => .pure _
  exact .bind (spends_blockmapEnsure _) fun _ => .pure _

theorem spends_writeChunk (sb : Superblock) (ino : Inode) (pos chunk : UInt32) (bytes : List UInt8) :
    Preserves Spends (writeChunk sb ino pos chunk bytes) := by
  unfold writeChunk
  refine .bind (spends_of_still (still_blockmapGet _ _)) fun b => .bind (.ite (.pure _) ?_) fun _ => spends_writeBlk _ _
  exact .bind (spends_readBlk _) fun _ => .pure _

theorem spends_writeLoop (sb : Superblock) (ino : Inode) (buf : List UInt8) (offset len : UInt32) :
    Preserves Spends (writeLoop sb ino buf offset len) := by
  unfold writeLoop
  refine .bind (.loop fun _ written => .ite (.bind (spends_writeChunk _ _ _ _ _).attempt fun r => ?_)
    (.pure _)) fun r => ?_
  · cases r with
    | ok _ => exact .pure _
    | error _ => exact .pure _
  · cases r with
    | inl _ => exact .pure _
    | inr _ => exact .pure _

theorem spends_fileWrite (who : OwIdentity) (n : UInt32) (buf : List UInt8) (offset len : UInt32) :
    Preserves SpendsIn (fileWrite who n buf offset len) := by
  unfold fileWrite
  refine .bind .get fun s => .bind (.failIf _ _) fun _ => .ite (.pure _) (.bind (.ofExcept _) fun _ =>
    .bind (.failIf _ _) fun _ => .bind (.ofExcept _) fun _ => .bind (.failIf _ _) fun _ => .bind (.failIf _ _) fun _ =>
    .bind (spends_ensureBlocks _) fun _ => .bind .get fun s' =>
      .bind (spends_onVol (spends_writeLoop _ _ _ _ _)) fun r => ?_)
  obtain ⟨written, failure⟩ := r
  refine .bind (spends_modifyInode _) fun _ => .bind (spends_inodeWrite _) fun _ => ?_
  cases failure with
  | none => exact .pure _
  | some e => exact .ite (.throw _) (.pure _)

theorem spends_fileTruncate (who : OwIdentity) (n newSize : UInt32) :
    Preserves SpendsIn (fileTruncate who n newSize) := by
  unfold fileTruncate
  exact .bind .get fun s => .bind (.failIf _ _) fun _ => .bind (.ofExcept _) fun _ => .bind (.failIf _ _) fun _ =>
    .bind (.ofExcept _) fun _ => .ite (.pure _) (.bind (.failIf _ _) fun _ =>
    .bind (.whenever (spends_blockmapRelease _)) fun _ => .bind (spends_modifyInode _) fun _ => spends_inodeWrite _)

/-! ## カタログ -/

theorem spends_withInode {p : FileM α} (h : Preserves SpendsIn p) (ino : Inode) :
    Preserves Spends (withInode ino p) := by
  intro v
  rw [wp_withInode]
  exact h ⟨v, ino⟩

theorem spends_withFresh {p : FileM α} (h : Preserves SpendsIn p) (n : UInt32) : Preserves Spends (withFresh n p) := by
  unfold withFresh discard
  exact .bind (spends_of_still (still_inodeRead n)) fun ino => .bind (spends_withInode h ino) fun _ => .pure _

theorem spends_catalogInsert (who : OwIdentity) (n : UInt32) (name : Option (List UInt8)) (nameLen : Nat)
    (target : UInt32) (entryType : UInt8) : Preserves Spends (catalogInsert who n name nameLen target entryType) := by
  unfold catalogInsert
  refine .bind (.failIf _ _) fun _ => .bind (.failIf _ _) fun _ => .bind (.failIf _ _) fun _ =>
    .bind (.failIf _ _) fun _ =>
    .bind .get fun v => .bind (.ofExcept _) fun _ =>
      .bind (spends_of_still (still_catalogLookup _ _ _ _)).attempt fun _ =>
    .bind (.failIf _ _) fun _ => .bind (spends_of_still (still_catalogRead n)) fun cinode =>
      .bind (.ofExcept _) fun _ =>
    .bind (.loop fun idx _ => ?_) fun r => ?_
  · refine .bind (spends_of_still (still_blockmapGet _ _)) fun b => .bind (spends_readBlk _) fun blk => ?_
    cases (List.range 16).find? fun e => ! entryLive (entryIn blk e) with
    | none => exact .pure _
    | some e => exact .bind (spends_writeBlk _ _) fun _ => .pure _
  · cases r with
    | inr _ => exact .pure _
    | inl _ =>
        refine .bind (spends_withInode ?_ cinode) fun _ => .pure _
        unfold growCatalog
        refine .bind (spends_blockmapEnsure _).attempt fun grown => ?_
        cases grown with
        | error e => exact .throw _
        | ok b => exact .bind (spends_onVol (spends_writeBlk _ _)) fun _ => spends_inodeWrite _

theorem spends_catalogRemove (who : OwIdentity) (n : UInt32) (name : Option (List UInt8)) (nameLen : Nat) :
    Preserves Spends (catalogRemove who n name nameLen) := by
  unfold catalogRemove
  refine .bind (.failIf _ _) fun _ => .bind (.failIf _ _) fun _ => .bind .get fun v => .bind (.ofExcept _) fun _ =>
    .bind (spends_of_still (still_catalogRead n)) fun cinode => .bind (.ofExcept _) fun _ =>
      .bind (.loop fun idx _ => ?_)
    fun r => ?_
  · refine .bind (spends_of_still (still_blockmapGet _ _)) fun b => .bind (spends_readBlk _) fun blk => ?_
    cases (List.range 16).find? fun e => entryLive (entryIn blk e) &&
        owSutf8NameCmp (entryName blk e) (nameBytes name nameLen) == 0 with
    | none => exact .pure _
    | some e =>
        exact .bind (spends_of_still (still_inodeHiddenFrom _ _)) fun _ => .bind (.failIf _ _) fun _ =>
          .bind (spends_writeBlk _ _) fun _ => .pure _
  · cases r with
    | inr _ => exact .pure _
    | inl _ => exact .throw _

end

end OwStorage.Owfs
