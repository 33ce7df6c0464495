import OwStorage.Owfs.Lemmas.Check

/-!
# 呼び出しの列で届くボリューム

データに触れない操作は、同じ部品からなる。部品の保つ関係は、どの操作も保つ。これを、領域の並びの正しさと、
空きの数まで含む正しさに当てはめる。マウントはスーパーブロックを読み直すので、空きの数は、メモリの上のものが
書かれているときにだけ保たれる。
-/

namespace OwStorage.Owfs

open Lib Prog

/-- 利用者の呼び出し。 -/
inductive ApiOp where
  | data (op : DataOp)
  | life (op : LifeOp)
  | cryptoSetKey (key : List UInt8)
  | cryptoPurge

def ApiOp.run : ApiOp → OwfsM Unit
  | data op => op.run
  | life op => op.run
  | cryptoSetKey key => Owfs.cryptoSetKey key
  | cryptoPurge => Owfs.cryptoPurge

/-! ## 帳簿の操作

検査と旗と鍵の操作は、表に触れずに、スーパーブロックの帳簿の欄を書き換えて書くだけである。
-/

/-- 旗と鍵と検査値とマウントの回数のほかは同じである。 -/
def Clerical (sb sb' : Superblock) : Prop :=
  ∃ count flags sum check sec key₁ key₂, sb' =
    { sb with
      mountCount := count
      stateFlags := flags
      fletcher64Bitmap := sum
      checksum := check
      securityFlags := sec
      keySlot1 := key₁
      keySlot2 := key₂ }

theorem SameLedger.clerical {sb sb' : Superblock} (h : SameLedger sb sb') : Clerical sb sb' := by
  obtain ⟨a, b, c, d, rfl⟩ := h
  exact ⟨a, b, c, d, sb.securityFlags, sb.keySlot1, sb.keySlot2, rfl⟩

/-- 旗と検査値とマウントの回数だけを書き換える操作の部品がどれも保つ関係。 -/
structure Bookkeeping (R : Vol → Vol → Prop) : Prop where
  still : ∀ {v v'}, Still v v' → R v v'
  ledger : ∀ {v : Vol} {sb}, SameLedger v.sb sb → R v { v with sb := sb }
  saved : Preserves R superblockWrite

namespace Bookkeeping

variable {R : Vol → Vol → Prop} [IsPreorder Vol R] (hk : Bookkeeping R) {α : Type} {p : OwfsM α} {v : Vol}

include hk

omit [IsPreorder Vol R] in
theorem of_still (h : Preserves Still p) : Preserves R p := fun v =>
  (h v).mono (fun _ _ hs => hk.still hs) (fun _ _ hs => hk.still hs)

omit [IsPreorder Vol R] in
theorem modify {f : Superblock → Superblock} (h : ∀ sb, SameLedger sb (f sb)) : Preserves R (modifySb f) := fun v =>
  hk.ledger (h v.sb)

omit [IsPreorder Vol R] in
theorem setFlags (mask : UInt32) : Preserves R (modifySb (Owfs.setFlags mask)) :=
  hk.modify fun sb => SameLedger.setFlags mask sb

omit [IsPreorder Vol R] in
theorem clearFlags (mask : UInt32) : Preserves R (modifySb (Owfs.clearFlags mask)) :=
  hk.modify fun sb => SameLedger.clearFlags mask sb

omit [IsPreorder Vol R] in
theorem flushBlk : Preserves R flushBlk := fun _ =>
  wp_flushBlk (fun _ => hk.still still_atClock) (fun _ _ => hk.still still_atClock)

theorem writeCleared :
    Preserves R (do modifySb (Owfs.clearFlags (stateDirty ||| stateLocked)); superblockWrite; Owfs.flushBlk) :=
  .bind (hk.clearFlags _) fun _ => .bind hk.saved fun _ => hk.flushBlk

theorem syncChanges : Preserves R syncChanges :=
  .bind (hk.of_still still_bitmapComputeFletcher64) fun sum =>
    .bind (hk.modify fun sb => ⟨sb.mountCount, sb.stateFlags, sum, sb.checksum, rfl⟩) fun _ => hk.writeCleared

theorem persist : Preserves R persist :=
  .bind hk.saved.attempt fun _ => .bind hk.flushBlk.attempt fun _ => .pure _

theorem runCheck : Preserves R runCheck := by
  have hset : ∀ mask, Preserves (Order.Preimage CheckState.volLens.get R)
    (Owfs.checkVol (modifySb (Owfs.setFlags mask))) :=
    fun mask => (hk.setFlags mask).within
  have hscan : Preserves (Order.Preimage CheckState.volLens.get R) scanVolume := fun s =>
    (still_scanVolume s).mono (fun _ _ hs => hk.still hs) (fun _ _ hs => hk.still hs)
  have hcount : ∀ f : CheckState → UInt32, Preserves (Order.Preimage CheckState.volLens.get R)
      (Prog.modify fun s => { s with corruptCount := f s } : CheckM Unit) := fun _ s => refl_of R s.vol
  have hconclude : Preserves (Order.Preimage CheckState.volLens.get R) concludeCheck := by
    refine .bind .get fun _ => .ite ?_ ?_
    · exact .bind (hk.clearFlags _).within fun _ => .bind hk.saved.within fun _ =>
        .bind hk.flushBlk.within.attempt fun _ => .pure _
    · exact .bind (hset _) fun _ => .bind hk.persist.within fun _ => .throw _
  have hcheck : Preserves (Order.Preimage CheckState.volLens.get R) consistencyCheck := by
    refine .bind (hcount _) fun _ => .bind .get fun _ => .ite ?_ ?_
    · exact .bind (hset _) fun _ => .bind (hcount _) fun _ => .bind hk.persist.within fun _ => .throw _
    · exact .bind (hset _) fun _ => .bind hk.saved.within fun _ => .bind hscan fun _ => hconclude
  exact fun v => wp_runCheck.mpr (hcheck ⟨v, 0⟩)

/-- マウントは、読み直したスーパーブロックの帳簿だけを書き換える。 -/
theorem mounted (hload : ∀ c, R v (Vol.atClock { v with sb := diskSb v } c)) :
    wp mount (fun _ => R v) (fun _ => R v) v := by
  have hrest : Preserves R (do
      let v ← Prog.get
      Prog.failIf (v.sb.stateFlags &&& stateError ≠ 0) OwfsErr.volumeDirty
      if v.sb.stateFlags &&& (stateDirty ||| stateLocked) ≠ 0 then do
        modifySb (Owfs.setFlags stateLocked)
        superblockWrite
        Prog.throw .volumeDirty
      else do
        modifySb fun sb => { sb with mountCount := sb.mountCount + 1 }
        modifySb (Owfs.setFlags stateDirty)
        superblockWrite : OwfsM Unit) := by
    refine .bind .get fun _ => .bind (.failIf _ _) fun _ => .ite ?_ ?_
    · exact .bind (hk.setFlags _) fun _ => .bind hk.saved fun _ => .throw _
    · exact .bind (hk.modify fun sb => ⟨_, sb.stateFlags, sb.fletcher64Bitmap, sb.checksum, rfl⟩)
        fun _ => .bind (hk.setFlags _) fun _ => hk.saved
  unfold mount
  rw [wp_bind]
  refine wp_superblockRead (fun c _ _ => ?_) (fun c _ => hload c) (fun c _ => hk.still still_atClock)
  exact (hrest _).mono (fun _ _ h => trans_of R (hload c) h) (fun _ _ h => trans_of R (hload c) h)

theorem lifeOp {op : LifeOp} (hop : op ≠ .mount) : Preserves R op.run := by
  cases op with
  | mount => exact absurd rfl hop
  | unmount => exact .bind .get fun _ => .bind (.failIf _ _) fun _ => hk.writeCleared
  | markDirty => exact .bind (hk.setFlags _) fun _ => hk.saved
  | markClean => exact .bind .get fun _ => .bind (.failIf _ _) fun _ => hk.writeCleared
  | syncChanges => exact hk.syncChanges
  | consistencyCheck => exact hk.runCheck

end Bookkeeping

/-- 帳簿の操作の部品がどれも保つ関係。 -/
structure Housekeeping (R : Vol → Vol → Prop) : Prop where
  still : ∀ {v v'}, Still v v' → R v v'
  clerical : ∀ {v : Vol} {sb}, Clerical v.sb sb → R v { v with sb := sb }
  saved : Preserves R superblockWrite

namespace Housekeeping

variable {R : Vol → Vol → Prop} [IsPreorder Vol R] (hk : Housekeeping R) {v : Vol}

include hk

omit [IsPreorder Vol R] in
theorem bookkeeping : Bookkeeping R := ⟨hk.still, fun h => hk.clerical h.clerical, hk.saved⟩

omit [IsPreorder Vol R] in
theorem modify {f : Superblock → Superblock} (h : ∀ sb, Clerical sb (f sb)) : Preserves R (modifySb f) := fun v =>
  hk.clerical (h v.sb)

theorem syncChanges : Preserves R syncChanges := hk.bookkeeping.syncChanges

theorem mounted (hload : ∀ c, R v (Vol.atClock { v with sb := diskSb v } c)) :
    wp mount (fun _ => R v) (fun _ => R v) v := hk.bookkeeping.mounted hload

theorem lifeOp {op : LifeOp} (hop : op ≠ .mount) : Preserves R op.run := hk.bookkeeping.lifeOp hop

theorem cryptoSetKey (key : List UInt8) : Preserves R (cryptoSetKey key) :=
  .bind (.failIf _ _) fun _ => .bind .get fun _ => .bind (.ofExcept _) fun _ =>
    .bind (hk.modify fun sb => ⟨sb.mountCount, sb.stateFlags, sb.fletcher64Bitmap, sb.checksum, _, _, sb.keySlot2, rfl⟩)
      fun _ => .bind hk.saved fun _ => .bind hk.bookkeeping.flushBlk.attempt fun _ => .pure _

theorem purgePass (fill : UInt8) : Preserves R (purgePass fill) :=
  .bind (hk.modify fun sb =>
      ⟨sb.mountCount, sb.stateFlags, sb.fletcher64Bitmap, sb.checksum, sb.securityFlags, _, _, rfl⟩) fun _ =>
    .bind hk.saved fun _ => .bind hk.bookkeeping.flushBlk.attempt fun _ => .pure _

theorem cryptoPurge : Preserves R cryptoPurge :=
  .bind (hk.purgePass _) fun _ => .bind (hk.purgePass _) fun _ => .bind (hk.purgePass _) fun _ =>
    .bind (hk.modify fun sb =>
      ⟨sb.mountCount, sb.stateFlags, sb.fletcher64Bitmap, sb.checksum, _, sb.keySlot1, sb.keySlot2, rfl⟩) fun _ =>
      hk.syncChanges

end Housekeeping

/-! ## 領域の並び -/

/-- 領域の並びを決める欄だけを残したスーパーブロック。 -/
def Superblock.core (sb : Superblock) : Superblock :=
  { Superblock.zero with
    totalBlocks := sb.totalBlocks
    bitmapStartBlock := sb.bitmapStartBlock
    bitmapBlockCount := sb.bitmapBlockCount
    inodeTableStart := sb.inodeTableStart
    inodeTableBlocks := sb.inodeTableBlocks
    totalInodes := sb.totalInodes
    dataRegionStart := sb.dataRegionStart }

theorem Clerical.core {sb sb' : Superblock} (h : Clerical sb sb') : sb'.core = sb.core := by
  obtain ⟨a, b, c, d, e, f, g, rfl⟩ := h
  rfl

theorem SameShape.core {sb sb' : Superblock} (h : SameShape sb sb') : sb'.core = sb.core := by
  obtain ⟨a, b, rfl⟩ := h
  rfl

section

variable {v v' : Vol} {sb : Superblock}

theorem layout_core : Layout sb.core ↔ Layout sb :=
  ⟨fun h => ⟨h.1, h.2, h.3, h.4, h.5, h.6, h.7⟩, fun h => ⟨h.1, h.2, h.3, h.4, h.5, h.6, h.7⟩⟩

theorem ready_core : Ready { v with sb := v.sb.core } ↔ Ready v :=
  ⟨fun h => ⟨⟨layout_core.mp h.sound.layout, h.sound.shaped, h.sound.owns⟩, h.faultFree, ⟨h.serves.1, h.serves.2⟩⟩,
    fun h => ⟨⟨layout_core.mpr h.sound.layout, h.sound.shaped, h.sound.owns⟩, h.faultFree, ⟨h.serves.1, h.serves.2⟩⟩⟩

theorem summed_core : Summed { v with sb := v.sb.core } ↔ Summed v := Iff.rfl

/-- 領域の並びの同じスーパーブロックに取り替えても、ボリュームの条件は変わらない。 -/
theorem Ready.recore (h : Ready v) (hsb : sb.core = v.sb.core) : Ready { v with sb := sb } := by
  refine ready_core.mp ?_
  change Ready { v with sb := sb.core }
  rw [hsb]
  exact ready_core.mpr h

theorem Summed.recore (h : Summed v) (hsb : sb.core = v.sb.core) : Summed { v with sb := sb } := by
  refine summed_core.mp ?_
  change Summed { v with sb := sb.core }
  rw [hsb]
  exact summed_core.mpr h

/-- メモリとディスクの上で領域の並びが同じで、失敗のない装置の上では表も正しいボリューム。 -/
structure Anchored (v : Vol) : Prop where
  layout : Layout v.sb
  disk : (diskSb v).core = v.sb.core
  ready : v.dev.FaultFree → Ready v ∧ Summed v

/-- スーパーブロックだけを書き、領域の並びを保つ。 -/
structure KeepsAnchored (v v' : Vol) : Prop where
  dev : v.dev.Evolves {superblockBlock} v'.dev
  anchored : Anchored v → Anchored v'
  core : Anchored v → v'.sb.core = v.sb.core

instance : IsPreorder Vol KeepsAnchored where
  refl _ := ⟨.refl _ _, id, fun _ => rfl⟩
  trans _ _ _ h h' := ⟨h.dev.trans h'.dev, fun hv => h'.anchored (h.anchored hv),
    fun hv => (h'.core (h.anchored hv)).trans (h.core hv)⟩

theorem Anchored.recore (h : Anchored v) (hsb : sb.core = v.sb.core) : Anchored { v with sb := sb } := by
  refine ⟨?_, h.disk.trans hsb.symm, fun hf => ⟨(h.ready hf).1.recore hsb, (h.ready hf).2.recore hsb⟩⟩
  refine layout_core.mp ?_
  rw [hsb]
  exact layout_core.mpr h.layout

theorem Anchored.resave (h : Anchored v) (hsb : SameLedger v.sb v'.sb) (hd : v.dev.Evolves {superblockBlock} v'.dev)
    (hdisk : (diskSb v').core = v.sb.core) : Anchored v' := by
  refine ⟨hsb.layout h.layout, hdisk.trans hsb.clerical.core.symm, fun hf => ?_⟩
  rw [hd.config] at hf
  obtain ⟨hr, hs⟩ := h.ready hf
  exact ⟨hr.resave hsb hd, hs.resave h.layout hsb hd⟩

theorem housekeeping_anchored : Housekeeping KeepsAnchored where
  still := by
    rintro v _ ⟨c, rfl⟩
    exact ⟨.atClock, fun h => h.resave (refl_of SameLedger v.sb) .atClock h.disk, fun _ => rfl⟩
  clerical := fun hc => ⟨.refl _ _, fun h => h.recore hc.core, fun _ => hc.core⟩
  saved := fun v => by
    have hsealed := (SameLedger.sealed v.sb).clerical.core
    refine wp_superblockWrite
      (fun c _ => ⟨evolves_saved, fun h => h.resave (.sealed v.sb) evolves_saved ?_, fun _ => hsealed⟩)
      (fun _ c _ _ => ⟨.atClock, fun h => h.resave (.sealed v.sb) .atClock h.disk, fun _ => hsealed⟩)
    rw [diskSb_saved]
    exact hsealed

theorem Anchored.mount_keeps (v : Vol) : wp mount (fun _ => KeepsAnchored v) (fun _ => KeepsAnchored v) v := by
  refine housekeeping_anchored.mounted fun c => ⟨.atClock, fun h => ?_, fun h => h.disk⟩
  have hload : Anchored { v with sb := diskSb v } := h.recore h.disk
  exact hload.resave (refl_of SameLedger _) .atClock hload.disk

theorem Formatted.anchored (h : Formatted v) : Anchored v :=
  ⟨h.sound.layout, by rw [h.disk], fun hf => ⟨⟨h.sound, hf, h.serves⟩, h.sums⟩⟩

theorem anchored_of_opened {d₀ d : HtlDevice} {totalBlocks : UInt32} {label : Option (List UInt8)}
    (hformat : formatVolume totalBlocks label d₀ = (.ok (), d)) (hopen : Opened d v) : Anchored v := by
  obtain ⟨sb, hfmt, _⟩ := formatted_of_formatVolume hformat
  obtain ⟨hsb, hdev⟩ := resaved_of_opened hfmt hopen
  refine hfmt.anchored.resave hsb hdev ?_
  cases hopen with
  | @read sb₀ v hread =>
      have hwp : wp superblockRead (fun _ v => diskSb v = sb) (fun _ _ => True) ⟨d, sb₀⟩ :=
        wp_superblockRead (fun _ _ _ => hfmt.diskSb_eq) (fun _ _ => trivial) (fun _ _ => trivial)
      rw [hwp.ok hread]
  | mount hmount =>
      obtain ⟨_, _, _, c, hv⟩ := mount_ok_spec.ok hmount
      rw [hfmt.diskSb_eq] at hv
      subst hv
      rw [diskSb_saved]
      exact (trans_of SameLedger (SameLedger.mounted sb) (.sealed _)).clerical.core

theorem Anchored.dataOp (h : Anchored v) (hf : v.dev.FaultFree) (op : DataOp) : Anchored (op.run v).2 := by
  obtain ⟨hr, hs⟩ := h.ready hf
  obtain ⟨hr', hc, _⟩ := hr.after (upholds_dataOp op)
  refine ⟨hc.shape.layout h.layout, ?_, fun _ => ⟨hr', hc.sums hs⟩⟩
  unfold diskSb
  rw [hc.dev.disk superblockBlock (fun hne => hne rfl)]
  exact h.disk.trans hc.shape.core.symm

theorem keepsAnchored_lifeOp (op : LifeOp) : Preserves KeepsAnchored op.run := by
  by_cases hop : op = .mount
  · subst hop
    exact Anchored.mount_keeps
  · exact housekeeping_anchored.lifeOp hop

/-- データに触れない呼び出しは、スーパーブロックだけを書く。 -/
theorem keepsAnchored_of_not_data {op : ApiOp} (hop : ∀ o, op ≠ .data o) : Preserves KeepsAnchored op.run := by
  cases op with
  | data op => exact absurd rfl (hop op)
  | life op => exact keepsAnchored_lifeOp op
  | cryptoSetKey key => exact housekeeping_anchored.cryptoSetKey key
  | cryptoPurge => exact housekeeping_anchored.cryptoPurge

theorem KeepsAnchored.totalInodes (h : KeepsAnchored v v') (ha : Anchored v) :
    v'.sb.totalInodes = v.sb.totalInodes := by
  have hcore := congrArg Superblock.totalInodes (h.core ha)
  exact hcore

/-- スーパーブロックだけの書き換えは、表の記録を変えない。 -/
theorem KeepsAnchored.inodeAt_eq (h : KeepsAnchored v v') (ha : Anchored v) {n : UInt32}
    (hn : n.toNat < v.sb.totalInodes.toNat) : inodeAt v'.dev.disk v'.sb n = inodeAt v.dev.disk v.sb n := by
  change inodeAt v'.dev.disk v'.sb.core n = _
  rw [h.core ha]
  exact inodeAt_congr ha.layout (fun b hb => h.dev.disk b (ha.layout.table_ne_superblock hb)) hn

theorem Anchored.step (h : Anchored v) (hf : v.dev.FaultFree) (op : ApiOp) :
    Anchored (op.run v).2 ∧ (op.run v).2.dev.FaultFree := by
  by_cases hop : ∀ o, op ≠ .data o
  · have hk := (keepsAnchored_of_not_data hop v).state (I := fun v' => KeepsAnchored v v')
    exact ⟨hk.anchored h, hk.dev.faultFree hf⟩
  · rw [not_forall] at hop
    obtain ⟨op, hop⟩ := hop
    rw [not_not.mp hop]
    exact ⟨h.dataOp hf op, ((h.ready hf).1.after (upholds_dataOp op)).ready.faultFree⟩

/-- 失敗のない装置の上では、どの呼び出しの列の後でも、表は正しい。 -/
theorem Anchored.final (h : Anchored v) (hf : v.dev.FaultFree) (ops : List ApiOp) :
    Ready (final ApiOp.run ops v) ∧ Summed (final ApiOp.run ops v) := by
  obtain ⟨ha, hff⟩ := final_invariant (I := fun v => Anchored v ∧ v.dev.FaultFree)
    (fun op _ hv => hv.1.step hv.2 op) ops ⟨h, hf⟩
  exact ha.ready hff

end

/-! ## 空きの数まで正しいボリューム -/

/-- 失敗のない装置の上の、表と要約の正しいボリューム。旗と鍵は問わない。 -/
structure Intact (v : Vol) : Prop extends Ready v where
  exact : FreeExact v.dev.disk v.sb
  sums : Summed v
  branded : v.sb.Branded

/-- マウントは、メモリの上のスーパーブロックがディスクに書かれているときにだけ行う。 -/
def Flushed (e : Event Vol ApiOp (Except OwfsErr Unit)) : Prop :=
  e.op = .life .mount → diskSb e.before = e.before.sb

/-- 正しいボリュームを、正しいまま保つ。 -/
def KeepsIntact (v v' : Vol) : Prop := Intact v → Intact v'

instance : IsPreorder Vol KeepsIntact where
  refl _ h := h
  trans _ _ _ h h' hv := h' (h hv)

section

variable {v v' : Vol}

theorem Intact.resave (h : Intact v) (hsb : SameLedger v.sb v'.sb) (hd : v.dev.Evolves {superblockBlock} v'.dev) :
    Intact v' :=
  ⟨h.toReady.resave hsb hd, resave_freeExact h.exact h.sound.layout hsb hd, h.sums.resave h.sound.layout hsb hd,
    hsb.branded h.branded⟩

theorem Intact.clerical (h : Intact v) {sb : Superblock} (hc : Clerical v.sb sb) : Intact { v with sb := sb } := by
  refine ⟨h.toReady.recore hc.core, ?_, h.sums.recore hc.core, ?_⟩
  · obtain ⟨a, b, c, d, e, f, g, rfl⟩ := hc
    exact h.exact
  · obtain ⟨a, b, c, d, e, f, g, rfl⟩ := hc
    exact h.branded

theorem housekeeping_intact : Housekeeping KeepsIntact where
  still := by
    rintro v _ ⟨c, rfl⟩ h
    exact h.resave (refl_of SameLedger v.sb) .atClock
  clerical := fun hc h => h.clerical hc
  saved := fun v => wp_superblockWrite (fun _ _ h => h.resave (.sealed v.sb) evolves_saved)
    (fun _ _ _ _ h => h.resave (.sealed v.sb) .atClock)

theorem Intact.mounted (h : Intact v) (hdisk : diskSb v = v.sb) : Intact (mount v).2 := by
  refine (housekeeping_intact.mounted fun c _ => ?_).state (I := fun v' => KeepsIntact v v') h
  rw [hdisk]
  exact h.resave (refl_of SameLedger v.sb) .atClock

theorem Intact.step (h : Intact v) (op : ApiOp) (hflushed : Flushed (event ApiOp.run op v)) : Intact (op.run v).2 := by
  have hkeep : ∀ {q : OwfsM Unit}, Preserves KeepsIntact q → Intact (q v).2 := fun hq =>
    (hq v).state (I := fun v' => KeepsIntact v v') h
  cases op with
  | data op =>
      obtain ⟨hr, hc, _⟩ := h.toReady.after (upholds_dataOp op)
      obtain ⟨a, b, hsb⟩ := hc.shape
      refine ⟨hr, hc.exact h.exact, hc.sums h.sums, ?_⟩
      change (op.run v).2.sb.Branded
      rw [hsb]
      exact h.branded
  | life op =>
      by_cases hop : op = .mount
      · subst hop
        exact h.mounted (hflushed rfl)
      · exact hkeep (housekeeping_intact.lifeOp hop)
  | cryptoSetKey key => exact hkeep (housekeeping_intact.cryptoSetKey key)
  | cryptoPurge => exact hkeep housekeeping_intact.cryptoPurge

theorem intact_of_opened {d₀ d : HtlDevice} {totalBlocks : UInt32} {label : Option (List UInt8)} (hff : d₀.FaultFree)
    (hformat : formatVolume totalBlocks label d₀ = (.ok (), d)) (hopen : Opened d v) : Intact v := by
  obtain ⟨sb, hfmt, _, hconf⟩ := formatted_of_formatVolume hformat
  have hff' : d.FaultFree := by
    unfold HtlConfig.FaultFree at hff ⊢
    rw [hconf]
    exact hff
  have hstart : Intact ⟨d, sb⟩ := ⟨hfmt.ready hff', hfmt.exact, hfmt.sums, branded_of_validate hfmt.valid⟩
  obtain ⟨hsb, hdev⟩ := resaved_of_opened hfmt hopen
  exact hstart.resave hsb hdev

/-- フォーマットしたボリュームからの、どの呼び出しの列の後でも成り立つ。 -/
theorem Intact.final (h : Intact v) {ops : List ApiOp} (hflushed : ∀ e ∈ trace ApiOp.run ops v, Flushed e) :
    Intact (final ApiOp.run ops v) :=
  (trace_invariant (P := Flushed) (fun op _ hv hf => hv.step op hf) ops v h hflushed).1

end

end OwStorage.Owfs
