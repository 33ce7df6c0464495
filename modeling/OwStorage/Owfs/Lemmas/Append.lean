import OwStorage.Owfs.Lemmas.Grow

/-!
# ブロックを一つずつ足す計算

中身を信じられない inode にも使えるように、次のブロックを足した後のディスクとスーパーブロックと inode を、足す前のものだけから
計算する。`blockmapEnsure` が成功すれば、状態はちょうどこの計算のとおりに変わる。
-/

namespace OwStorage.Owfs

open Lib Prog

/-! ## 印の書き換え -/

/-- データブロック `b` の印を `used` にしたディスク。 -/
def setMark (disk : Disk) (sb : Superblock) (b : UInt32) (used : Bool) : Disk :=
  Function.update disk (sb.bitmapBlockOf (sb.relOf b))
    ((disk (sb.bitmapBlockOf (sb.relOf b))).setBit (sb.relOf b % 32768 / 8) (sb.relOf b % 8) used)

section

variable {disk : Disk} {sb : Superblock} {b : UInt32} {used : Bool} (hl : Layout sb) (hb : sb.IsData b)
include hl hb

theorem bitOf_setMark {r : Nat} (hr : r < sb.bitmapBlockCount.toNat * 32768) :
    bitOf (setMark disk sb b used) sb r = if r = sb.relOf b then used else bitOf disk sb r :=
  bitOf_update hl (lt_of_lt_of_le hb.relOf_lt hl.bitmapCovers) hr (by omega) (by omega) (by omega)

theorem setMark_outside {x : UInt32} (hx : x ∉ sb.bitmapRegion) : setMark disk sb b used x = disk x := by
  refine Function.update_of_ne ?_ _ _
  rintro rfl
  exact hx (bitmapBlockOf_mem hl (lt_of_lt_of_le hb.relOf_lt hl.bitmapCovers))

theorem setMark_eq {disk' : Disk} (hin : ∀ r, r < sb.bitmapBlockCount.toNat * 32768 →
    bitOf disk' sb r = if r = sb.relOf b then used else bitOf disk sb r)
    (hout : ∀ x, x ∉ sb.bitmapRegion → disk' x = disk x) : disk' = setMark disk sb b used := by
  funext x
  by_cases hx : x ∈ sb.bitmapRegion
  · exact bitmap_eq_of_bitOf hl (fun r hr => (hin r hr).trans (bitOf_setMark hl hb hr).symm) x hx
  · rw [hout x hx, setMark_outside hl hb hx]

theorem setMark_self (h : bitOf disk sb (sb.relOf b) = used) : setMark disk sb b used = disk := by
  refine (setMark_eq hl hb (fun r _ => ?_) fun _ _ => rfl).symm
  split
  · rename_i hr
    rw [hr, h]
  · rfl

end

theorem Flipped.disk_eq {v v' : Vol} {b : UInt32} {used : Bool} (hl : Layout v.sb) (h : Flipped v v' b used) :
    v'.dev.disk = setMark v.dev.disk v.sb b used := setMark_eq hl h.isData h.whole h.dev.disk

theorem SameShape.setMark {sb sb' : Superblock} (h : SameShape sb sb') (disk : Disk) (b : UInt32) (used : Bool) :
    setMark disk sb' b used = setMark disk sb b used := by
  obtain ⟨a, b', rfl⟩ := h
  rfl

/-- 解放は、その印を下ろすだけである。失敗のない装置は、データブロックの解放を断らない。 -/
theorem bitmapFree_marks {v : Vol} (hl : Layout v.sb) (b : UInt32) :
    wp (bitmapFree b)
      (fun _ v' => v.sb.IsData b ∧ v'.dev.disk = setMark v.dev.disk v.sb b false ∧ SameShape v.sb v'.sb ∧
        v'.dev.toHtlConfig = v.dev.toHtlConfig)
      (fun _ _ => ¬ (v.sb.IsData b ∧ v.dev.FaultFree ∧ Serves v.dev.toHtlConfig v.sb)) v := by
  refine (bitmapFree_spec hl b).mono ?_ ?_
  · rintro _ v' ⟨hb, hf | ⟨hno, c, rfl⟩⟩
    · exact ⟨hb, hf.disk_eq hl, hf.sameShape, hf.dev.config⟩
    · refine ⟨hb, (setMark_self hl hb ?_).symm, refl_of SameShape v.sb, rfl⟩
      exact Bool.eq_false_iff.mpr fun hbit => hno ⟨hb, hbit⟩
  · rintro e v' ⟨_, ⟨_, hno⟩ | ⟨_, hno⟩⟩ ⟨hb, hok⟩
    · exact hno hb
    · exact hno hok

/-! ## 最初の空き -/

/-- 空きの数の欄が 0 でなければ、最も番号の小さい空きのデータブロック。 -/
def lowestFree (disk : Disk) (sb : Superblock) : Option UInt32 :=
  if sb.freeBlocks = 0 then none
  else ((List.range sb.dataCount).find? fun r => ! bitOf disk sb r).map fun r => sb.dataRegionStart + UInt32.ofNat r

section

variable {disk : Disk} {sb : Superblock} {b : UInt32}

theorem toNat_dataBlock {r : Nat} (hr : r < sb.dataCount) :
    (sb.dataRegionStart + UInt32.ofNat r).toNat = sb.dataRegionStart.toNat + r := by
  have htotal := sb.totalBlocks.toNat_lt
  unfold Superblock.dataCount at hr
  rw [toNat_add_lt (by rw [toNat_ofNat_lt (by omega)]; omega), toNat_ofNat_lt (by omega)]

theorem isData_dataBlock {r : Nat} (hr : r < sb.dataCount) : sb.IsData (sb.dataRegionStart + UInt32.ofNat r) := by
  have hat := toNat_dataBlock hr
  unfold Superblock.dataCount at hr
  exact ⟨by omega, by omega⟩

theorem relOf_dataBlock {r : Nat} (hr : r < sb.dataCount) : sb.relOf (sb.dataRegionStart + UInt32.ofNat r) = r := by
  unfold Superblock.relOf
  rw [toNat_dataBlock hr]
  omega

theorem dataBlock_relOf (hb : sb.IsData b) : sb.dataRegionStart + UInt32.ofNat (sb.relOf b) = b :=
  relOf_inj (isData_dataBlock hb.relOf_lt) hb (relOf_dataBlock hb.relOf_lt)

theorem lowestFree_eq_some (hfree : sb.freeBlocks ≠ 0) (hb : sb.IsData b) (hclear : bitOf disk sb (sb.relOf b) = false)
    (hlow : ∀ b', sb.IsData b' → b'.toNat < b.toNat → b' ∈ usedSet disk sb) : lowestFree disk sb = some b := by
  have hfind : ((List.range sb.dataCount).find? fun r => ! bitOf disk sb r) = some (sb.relOf b) := by
    rw [List.find?_range_eq_some]
    refine ⟨by rw [hclear]; rfl, List.mem_range.mpr hb.relOf_lt, fun r hr => ?_⟩
    have hlt : r < sb.dataCount := hr.trans hb.relOf_lt
    have hused := (hlow _ (isData_dataBlock hlt) (by
      have hstart := hb.1
      rw [toNat_dataBlock hlt]
      unfold Superblock.relOf at hr
      omega)).2
    rw [relOf_dataBlock hlt] at hused
    rw [hused]
    rfl
  unfold lowestFree
  rw [if_neg hfree, hfind, Option.map_some, dataBlock_relOf hb]

theorem lowestFree_eq_none (h : sb.freeBlocks = 0 ∨ ∀ b, sb.IsData b → b ∈ usedSet disk sb) :
    lowestFree disk sb = none := by
  unfold lowestFree
  split
  · rfl
  · rename_i hfree
    rw [Option.map_eq_none_iff, List.find?_range_eq_none]
    intro r hr
    have hused := (h.resolve_left hfree _ (isData_dataBlock hr)).2
    rw [relOf_dataBlock hr] at hused
    rw [hused]
    rfl

/-- 見つけたブロックはデータ領域の中の、空きのブロックである。 -/
theorem lowestFree_free (h : lowestFree disk sb = some b) : sb.IsData b ∧ b ∉ usedSet disk sb := by
  unfold lowestFree at h
  split at h
  · cases h
  · rw [Option.map_eq_some_iff] at h
    obtain ⟨r, hfind, rfl⟩ := h
    rw [List.find?_range_eq_some] at hfind
    have hr := List.mem_range.mp hfind.2.1
    refine ⟨isData_dataBlock hr, fun hused => ?_⟩
    have hbit := hused.2
    rw [relOf_dataBlock hr] at hbit
    rw [hbit] at hfind
    exact absurd hfind.1 (by decide)

end

/-! ## 追加の計算 -/

/-- ブロックの追加を決めるもの。 -/
structure Scene where
  disk : Disk
  sb : Superblock
  ino : Inode

namespace Scene

/-- 最初の空きブロックを取り、0 で埋める。 -/
def take (x : Scene) : Option (UInt32 × Scene) :=
  (lowestFree x.disk x.sb).map fun b => (b, { x with
    disk := Function.update (setMark x.disk x.sb b true) b (Bytes.zero 4096)
    sb := { x.sb with freeBlocks := x.sb.freeBlocks - 1 } })

def withInode (x : Scene) (ino : Inode) : Scene := { x with ino := ino }

/-- 間接ブロックに `b` のポインタを書く。 -/
def push (x : Scene) (b : UInt32) : Scene := { x with disk := pushPtr x.disk x.ino b, ino := x.ino.bump }

/-- 取ったブロック `b` のポインタを書く。間接ブロックがなければ、先に取る。 -/
def pushNext (x : Scene) (b : UInt32) : Option Scene :=
  if x.ino.indirectBlock = 0 then x.take.map fun p => (p.2.withInode (p.2.ino.withIndirect p.1)).push b
  else some (x.push b)

/-- 次の論理番号のブロックを足す。 -/
def next (x : Scene) : Option Scene :=
  if x.ino.blockCount.toNat < 10 then x.take.map fun p => p.2.withInode (p.2.ino.pushDirect p.1)
  else if x.ino.blockCount.toNat < 1034 then x.take.bind fun p => p.2.pushNext p.1
  else none

end Scene

/-- 装置の許す追加の一歩。前からある間接ブロックには書けなければならない。 -/
structure Appends (c : HtlConfig) (x y : Scene) : Prop where
  next : x.next = some y
  writes : 10 ≤ x.ino.blockCount.toNat → x.ino.indirectBlock ≠ 0 → c.Writes x.ino.indirectBlock

/-- 追加を 0 回以上繰り返した。 -/
def AppendsMany (c : HtlConfig) : Scene → Scene → Prop := Relation.ReflTransGen (Appends c)

section

variable {c c' : HtlConfig} {x y z : Scene} {b : UInt32}

theorem Scene.take_eq (h : x.take = some (b, y)) : lowestFree x.disk x.sb = some b ∧
    y = ⟨Function.update (setMark x.disk x.sb b true) b (Bytes.zero 4096),
      { x.sb with freeBlocks := x.sb.freeBlocks - 1 }, x.ino⟩ := by
  unfold Scene.take at h
  rw [Option.map_eq_some_iff] at h
  obtain ⟨b', hfree, hp⟩ := h
  obtain ⟨rfl, rfl⟩ := Prod.mk.inj hp
  exact ⟨hfree, rfl⟩

theorem Scene.next_cases (h : x.next = some y) :
    (∃ b x₁, x.take = some (b, x₁) ∧ x.ino.blockCount.toNat < 10 ∧ y = x₁.withInode (x₁.ino.pushDirect b)) ∨
    (∃ b x₁ ind x₂, x.take = some (b, x₁) ∧ 10 ≤ x.ino.blockCount.toNat ∧ x.ino.blockCount.toNat < 1034 ∧
      x.ino.indirectBlock = 0 ∧ x₁.take = some (ind, x₂) ∧ y = (x₂.withInode (x₂.ino.withIndirect ind)).push b) ∨
    (∃ b x₁, x.take = some (b, x₁) ∧ 10 ≤ x.ino.blockCount.toNat ∧ x.ino.blockCount.toNat < 1034 ∧
      x.ino.indirectBlock ≠ 0 ∧ y = x₁.push b) := by
  unfold Scene.next at h
  split at h
  · rename_i hten
    obtain ⟨⟨b, x₁⟩, htake, rfl⟩ := Option.map_eq_some_iff.mp h
    exact .inl ⟨b, x₁, htake, hten, rfl⟩
  · rename_i hten
    split at h
    · rename_i hmax
      obtain ⟨⟨b, x₁⟩, htake, hpush⟩ := Option.bind_eq_some_iff.mp h
      have hino : x₁.ino = x.ino := by rw [(Scene.take_eq htake).2]
      unfold Scene.pushNext at hpush
      split at hpush
      · rename_i hz
        obtain ⟨⟨ind, x₂⟩, htake₂, rfl⟩ := Option.map_eq_some_iff.mp hpush
        exact .inr (.inl ⟨b, x₁, ind, x₂, htake, by omega, hmax, hino ▸ hz, htake₂, rfl⟩)
      · rename_i hind
        exact .inr (.inr ⟨b, x₁, htake, by omega, hmax, hino ▸ hind, (Option.some.inj hpush).symm⟩)
    · cases h

theorem Scene.take_shape (h : x.take = some (b, y)) : SameShape x.sb y.sb := by
  rw [(Scene.take_eq h).2]
  exact ⟨_, _, rfl⟩

theorem Appends.shape (h : Appends c x y) : SameShape x.sb y.sb := by
  rcases Scene.next_cases h.next with ⟨b, x₁, htake, _, rfl⟩ | ⟨b, x₁, ind, x₂, htake, _, _, _, htake₂, rfl⟩ |
    ⟨b, x₁, htake, _, _, _, rfl⟩
  · have hshape := Scene.take_shape htake
    exact hshape
  · have hshape := trans_of SameShape (Scene.take_shape htake) (Scene.take_shape htake₂)
    exact hshape
  · have hshape := Scene.take_shape htake
    exact hshape

theorem Appends.blockCount (h : Appends c x y) :
    y.ino.blockCount.toNat = x.ino.blockCount.toNat + 1 ∧ x.ino.blockCount.toNat < 1034 := by
  have hmax : x.ino.blockCount.toNat < 1034 := by
    rcases Scene.next_cases h.next with ⟨_, _, _, hten, _⟩ | ⟨_, _, _, _, _, _, hmax, _⟩ | ⟨_, _, _, _, hmax, _⟩
    · omega
    · exact hmax
    · exact hmax
  have hsucc := toNat_blockCount_succ (p := x.ino) (by omega)
  refine ⟨?_, hmax⟩
  rcases Scene.next_cases h.next with ⟨b, x₁, htake, _, rfl⟩ | ⟨b, x₁, ind, x₂, htake, _, _, _, htake₂, rfl⟩ |
    ⟨b, x₁, htake, _, _, _, rfl⟩
  · rw [(Scene.take_eq htake).2]
    exact hsucc
  · rw [(Scene.take_eq htake₂).2, (Scene.take_eq htake).2]
    exact hsucc
  · rw [(Scene.take_eq htake).2]
    exact hsucc

theorem Appends.unique (h : Appends c x y) (h' : Appends c x z) : y = z := Option.some.inj (h.next.symm.trans h'.next)

theorem AppendsMany.shape (h : AppendsMany c x y) : SameShape x.sb y.sb := by
  induction h with
  | refl => exact refl_of SameShape x.sb
  | tail _ hstep ih => exact trans_of SameShape ih hstep.shape

theorem AppendsMany.blockCount_le (h : AppendsMany c x y) : x.ino.blockCount.toNat ≤ y.ino.blockCount.toNat := by
  induction h with
  | refl => exact le_rfl
  | tail _ hstep ih =>
      rw [hstep.blockCount.1]
      exact ih.trans (Nat.le_succ _)

/-- 一歩でも足していれば、ブロックの数は 1034 以下である。 -/
theorem AppendsMany.blockCount_max (h : AppendsMany c x y) : y = x ∨ y.ino.blockCount.toNat ≤ 1034 := by
  cases h with
  | refl => exact .inl rfl
  | tail _ hstep =>
      have hlast := hstep.blockCount
      exact .inr (by omega)

theorem AppendsMany.head (h : AppendsMany c x y) (hlt : x.ino.blockCount.toNat < y.ino.blockCount.toNat) :
    ∃ z, Appends c x z ∧ AppendsMany c z y := by
  rcases Relation.ReflTransGen.cases_head h with rfl | hstep
  · exact absurd hlt (Nat.lt_irrefl _)
  · exact hstep

theorem AppendsMany.eq_of_le (h : AppendsMany c x y)
    (hle : y.ino.blockCount.toNat ≤ x.ino.blockCount.toNat) : x = y := by
  rcases Relation.ReflTransGen.cases_head h with rfl | ⟨z, hstep, hrest⟩
  · rfl
  · have hlow := AppendsMany.blockCount_le hrest
    have hsucc := hstep.blockCount
    omega

theorem Appends.config (h : Appends c x y) (hc : ∀ b, c.Writes b → c'.Writes b) : Appends c' x y :=
  ⟨h.next, fun hten hind => hc _ (h.writes hten hind)⟩

theorem AppendsMany.config (h : AppendsMany c x y) (hc : ∀ b, c.Writes b → c'.Writes b) : AppendsMany c' x y :=
  Relation.ReflTransGen.mono (fun _ _ hstep => Appends.config hstep hc) _ _ h

end

/-! ## コードは計算のとおりに動く -/

def Vol.scene (v : Vol) (ino : Inode) : Scene := ⟨v.dev.disk, v.sb, ino⟩

def FileState.scene (s : FileState) : Scene := s.vol.scene s.inode

section

variable {v : Vol} {s : FileState}

theorem bitmapAlloc_counted : wp bitmapAlloc (fun _ _ => v.sb.freeBlocks ≠ 0) (fun _ _ => True) v := by
  unfold bitmapAlloc
  rw [wp_bind, wp_get, wp_bind, wp_failIf]
  exact ⟨fun _ => trivial, fun hfree => wp_trivial.mono (fun _ _ _ => hfree) (fun _ _ _ => trivial)⟩

theorem allocAndZero_takes (hl : Layout v.sb) (ino : Inode) :
    wp allocAndZero
      (fun b v' => (v.scene ino).take = some (b, v'.scene ino) ∧ v'.dev.toHtlConfig = v.dev.toHtlConfig)
      (fun _ _ => v.dev.FaultFree → Serves v.dev.toHtlConfig v.sb → (v.scene ino).take = none) v := by
  unfold allocAndZero
  rw [wp_bind]
  refine ((bitmapAlloc_spec hl).and bitmapAlloc_counted).mono ?_ ?_
  · rintro b v₁ ⟨⟨hf, hlow⟩, hfree⟩
    have hfind : lowestFree v.dev.disk v.sb = some b := lowestFree_eq_some hfree hf.isData hf.was hlow
    have hdisk := hf.disk_eq hl
    have hsb := hf.sb
    rw [wp_bind, wp_attempt]
    refine wp_zeroBlk (fun c _ => ⟨?_, hf.dev.config⟩) (fun e c _ hno => ?_)
    · unfold Scene.take Vol.scene
      rw [hfind]
      change some (b, Scene.mk _ _ _) = some (b, Scene.mk (Function.update v₁.dev.disk b (Bytes.zero 4096)) v₁.sb ino)
      rw [hdisk, hsb]
      rfl
    · have hbad : ¬ (v.dev.FaultFree ∧ Serves v.dev.toHtlConfig v.sb) := by
        rintro ⟨hff, hs⟩
        refine hno ⟨hf.dev.faultFree hff, ?_⟩
        rw [hf.dev.config]
        exact ⟨hs.writes b hf.isData.2, hs.wholeBlocks.le⟩
      change wp (Prog.attempt (bitmapFree b) >>= _) _ _ _
      rw [wp_bind, wp_attempt]
      exact wp_trivial.mono (fun _ _ _ hff hs => absurd ⟨hff, hs⟩ hbad) (fun _ _ _ hff hs => absurd ⟨hff, hs⟩ hbad)
  · rintro e v' ⟨⟨_, ⟨_, hnone⟩ | ⟨_, hno⟩⟩, _⟩ hff hs
    · unfold Scene.take Vol.scene
      rw [lowestFree_eq_none hnone]
      rfl
    · exact absurd ⟨hff, hs⟩ hno

theorem giveBack_throws {b ind : UInt32} {cond : Prop} [Decidable cond] {e : OwfsErr} :
    wp (Prog.attempt (ε := OwfsErr) (onVol (bitmapFree b)) >>= fun _ =>
      if cond then (Prog.attempt (ε := OwfsErr) (onVol (bitmapFree ind)) >>= fun _ =>
        modifyInode (fun ino => { ino with indirectBlock := 0 }) >>= fun _ => Prog.throw e : FileM Unit)
      else Prog.throw e) (fun _ _ => False) (fun _ _ => True) s := by
  rw [wp_bind, wp_attempt]
  refine wp_trivial.mono ?_ ?_ <;>
  · intro _ s₁ _
    rw [wp_ite]
    refine ⟨fun _ => ?_, fun _ => trivial⟩
    rw [wp_bind, wp_attempt]
    refine wp_trivial.mono ?_ ?_ <;>
    · intro _ s₂ _
      rw [wp_bind, wp_modifyInode]
      trivial

/-- 取ったブロックのポインタの書き込みは、計算のとおりに進む。失敗のない装置で断られるのは、計算にも続きのないときである。 -/
theorem ensureIndirect_appends (hl : Layout s.vol.sb) (hten : 10 ≤ s.inode.blockCount.toNat) (b : UInt32) :
    wp (ensureIndirect s.inode.blockCount b)
      (fun _ s' => s.scene.pushNext b = some (s'.vol.scene s'.inode.bump) ∧
        (s.inode.indirectBlock ≠ 0 → s.vol.dev.Writes s.inode.indirectBlock) ∧
        s'.vol.dev.toHtlConfig = s.vol.dev.toHtlConfig)
      (fun _ _ => s.vol.dev.FaultFree → Serves s.vol.dev.toHtlConfig s.vol.sb →
        (s.inode.indirectBlock ≠ 0 → s.vol.dev.Writes s.inode.indirectBlock) → s.scene.pushNext b = none) s := by
  have hentry : (s.inode.blockCount - 10).toNat = s.inode.blockCount.toNat - 10 := toNat_sub_le hten
  unfold ensureIndirect
  rw [wp_bind, wp_get, wp_bind, wp_ite]
  refine ⟨fun hz => ?_, fun hind => ?_⟩
  · -- 間接ブロックをいま取る。
    have hpush : s.scene.pushNext b =
        s.scene.take.map fun p => (p.2.withInode (p.2.ino.withIndirect p.1)).push b := if_pos hz
    rw [wp_bind, wp_attempt, wp_onVol]
    refine (allocAndZero_takes hl s.inode).mono ?_ ?_
    · rintro ind v₁ ⟨htake, hconfig⟩
      have hfull : s.scene.pushNext b = some (((v₁.scene s.inode).withInode (s.inode.withIndirect ind)).push b) := by
        rw [hpush, show s.scene.take = _ from htake]
        rfl
      have hzero : v₁.dev.disk ind = Bytes.zero 4096 := by
        have hdisk := congrArg Scene.disk (Scene.take_eq htake).2
        change v₁.dev.disk = _ at hdisk
        rw [hdisk]
        exact Function.update_self _ _ _
      have hdata := (lowestFree_free (Scene.take_eq htake).1).1
      change wp (modifyInode _ >>= _) _ _ _
      rw [wp_bind, wp_modifyInode, wp_pure, wp_bind, wp_get, wp_bind, wp_attempt, wp_onVol]
      refine wp_writeBlk (fun c _ => ⟨?_, fun hno => absurd hz hno, hconfig⟩) (fun e c _ hno => ?_)
      · rw [hfull, hentry, ← hzero]
        rfl
      · refine giveBack_throws.mono (fun _ _ h => h.elim) (fun _ _ _ hff hs _ => absurd ⟨?_, ?_⟩ hno)
        · unfold HtlConfig.FaultFree
          rw [hconfig]
          exact hff
        · rw [hconfig]
          exact hs.writes _ hdata.2
    · intro e v₁ hnone
      change wp (Prog.attempt (onVol (bitmapFree b)) >>= _) _ _ _
      rw [wp_bind, wp_attempt]
      refine wp_trivial.mono ?_ ?_ <;>
      · intro _ _ _ hff hs _
        rw [hpush, show s.scene.take = none from hnone hff hs]
        rfl
  · -- 間接ブロックは前からある。
    have hpush : s.scene.pushNext b = some (s.scene.push b) := if_neg hind
    rw [wp_bind, wp_attempt, wp_onVol]
    refine wp_readBlk (fun c hreads => ?_) (fun c hno => ?_)
    · change wp (pure (s.vol.dev.disk s.inode.indirectBlock) : FileM Block) _ _ _
      rw [wp_pure, wp_bind, wp_get, wp_bind, wp_attempt, wp_onVol]
      refine wp_writeBlk (fun c' hwrites => ⟨?_, fun _ => hwrites, rfl⟩) (fun e c' _ hno => ?_)
      · rw [hpush, hentry]
        rfl
      · exact giveBack_throws.mono (fun _ _ h => h.elim)
          (fun _ _ _ hff _ hw => absurd ⟨hff, hw hind⟩ hno)
    · change wp (Prog.attempt (onVol (bitmapFree b)) >>= _) _ _ _
      rw [wp_bind, wp_attempt]
      refine wp_trivial.mono ?_ ?_ <;>
      · intro _ _ _ hff _ hw
        exact absurd ⟨hff, (hw hind).toReads⟩ hno

/-- 次のブロックの用意は、計算のとおりに一歩進む。失敗のない装置で断られるのは、計算にも次の一歩のないときである。 -/
theorem blockmapEnsure_appends (hl : Layout s.vol.sb) (hw : volumeWritable s.vol.sb = .ok ()) :
    wp (blockmapEnsure s.inode.blockCount)
      (fun _ s' => Appends s.vol.dev.toHtlConfig s.scene s'.scene ∧ s'.vol.dev.toHtlConfig = s.vol.dev.toHtlConfig)
      (fun _ _ => s.vol.dev.FaultFree → Serves s.vol.dev.toHtlConfig s.vol.sb →
        ∀ y, ¬ Appends s.vol.dev.toHtlConfig s.scene y) s := by
  unfold blockmapEnsure
  rw [wp_bind, wp_get, wp_bind, wp_failIf]
  refine ⟨fun hmax _ _ y hy => ?_, fun hmax => ?_⟩
  · have hlt := hy.blockCount.2
    exact absurd (UInt32.le_iff_toNat_le.mp hmax) (Nat.not_le.mpr hlt)
  have hmax : s.inode.blockCount.toNat < 1034 := by
    rw [ge_iff_le, UInt32.not_le, UInt32.lt_iff_toNat_lt] at hmax
    exact hmax
  rw [wp_bind, wp_ofExcept]
  refine ⟨fun _ _ => ?_, fun e he => absurd (hw.symm.trans he) (by intro h; cases h)⟩
  rw [wp_ite]
  refine ⟨fun hself => absurd hself (UInt32.lt_irrefl _), fun _ => ?_⟩
  rw [wp_bind, wp_failIf]
  refine ⟨fun hne => absurd rfl hne, fun _ => ?_⟩
  rw [wp_bind, wp_onVol]
  refine (allocAndZero_takes hl s.inode).mono ?_ ?_
  · rintro b v₁ ⟨htake, hconfig⟩
    have htake : s.scene.take = some (b, v₁.scene s.inode) := htake
    have hshape : SameShape s.vol.sb v₁.sb := Scene.take_shape htake
    rw [wp_bind, wp_ite]
    refine ⟨fun hten => ?_, fun hten => ?_⟩
    · have hten : s.inode.blockCount.toNat < 10 := UInt32.lt_iff_toNat_lt.mp hten
      rw [wp_modifyInode, wp_bind, wp_modifyInode]
      refine ⟨⟨?_, fun hno => absurd hten (Nat.not_lt.mpr hno)⟩, hconfig⟩
      unfold Scene.next
      rw [if_pos (show s.scene.ino.blockCount.toNat < 10 from hten), htake]
      rfl
    · have hten : 10 ≤ s.inode.blockCount.toNat := by
        rw [UInt32.not_lt, UInt32.le_iff_toNat_le] at hten
        exact hten
      have hnext : s.scene.next = (v₁.scene s.inode).pushNext b := by
        unfold Scene.next
        rw [if_neg (show ¬ s.scene.ino.blockCount.toNat < 10 from Nat.not_lt.mpr hten),
          if_pos (show s.scene.ino.blockCount.toNat < 1034 from hmax), htake]
        rfl
      refine (ensureIndirect_appends (s := ⟨v₁, s.inode⟩) (hshape.layout hl) hten b).mono ?_ ?_
      · rintro _ s' ⟨hpush, hwrites, hconfig'⟩
        rw [wp_bind, wp_modifyInode]
        rw [hconfig] at hwrites
        exact ⟨⟨hnext.trans hpush, fun _ => hwrites⟩, hconfig'.trans hconfig⟩
      · intro e s' hnone hff hs y hy
        have hgone := hnone (by unfold HtlConfig.FaultFree; rw [hconfig]; exact hff)
          (by rw [hconfig]; exact hshape.serves hs)
          (by rw [hconfig]; exact hy.writes hten)
        have hsome := hnext.symm.trans hy.next
        rw [show (v₁.scene s.inode).pushNext b = none from hgone] at hsome
        cases hsome
  · intro e v₁ hnone hff hs y hy
    have hgone : s.scene.take = none := hnone hff hs
    have hsome := hy.next
    unfold Scene.next at hsome
    rw [hgone] at hsome
    split at hsome
    · cases hsome
    · split at hsome
      · cases hsome
      · cases hsome

/-- 失敗のない装置では、計算の着く先に、必ず着く。 -/
theorem ensureBlocks_reaches (hl : Layout s.vol.sb) (hw : volumeWritable s.vol.sb = .ok ()) (hff : s.vol.dev.FaultFree)
    (hs : Serves s.vol.dev.toHtlConfig s.vol.sb) {x : Scene}
    (hx : AppendsMany s.vol.dev.toHtlConfig s.scene x) {last : UInt32}
    (hlast : last.toNat + 1 = x.ino.blockCount.toNat ∨ (x = s.scene ∧ last.toNat < x.ino.blockCount.toNat)) :
    wp (ensureBlocks last) (fun _ s' => s'.scene = x ∧ s'.vol.dev.toHtlConfig = s.vol.dev.toHtlConfig)
      (fun _ _ => False) s := by
  have hlow := hx.blockCount_le
  have hcount : last.toNat + 1 - s.inode.blockCount.toNat = x.ino.blockCount.toNat - s.inode.blockCount.toNat := by
    rcases hlast with heq | ⟨rfl, hlt⟩
    · rw [heq]
    · change last.toNat + 1 - s.inode.blockCount.toNat = s.inode.blockCount.toNat - s.inode.blockCount.toNat
      change last.toNat < s.inode.blockCount.toNat at hlt
      omega
  unfold ensureBlocks
  rw [wp_bind, wp_get, wp_bind, hcount]
  refine wp_loop (fun k _ s' => AppendsMany s.vol.dev.toHtlConfig s'.scene x ∧ SameShape s.vol.sb s'.vol.sb ∧
    s'.inode.blockCount.toNat = s.inode.blockCount.toNat + k ∧ s'.vol.dev.toHtlConfig = s.vol.dev.toHtlConfig)
    ⟨hx, refl_of SameShape s.vol.sb, rfl, rfl⟩ ?_ ?_
  · rintro k _ s₁ hk ⟨hgrown, hshape, hat, hconfig⟩
    have hlt : s₁.inode.blockCount.toNat < x.ino.blockCount.toNat := by omega
    have hle : s₁.inode.blockCount ≤ last := by
      rw [UInt32.le_iff_toNat_le]
      rcases hlast with heq | ⟨rfl, _⟩
      · omega
      · exact absurd hk (by rw [show (FileState.scene s).ino = s.inode from rfl]; omega)
    obtain ⟨y, hstep, hrest⟩ := hgrown.head hlt
    rw [wp_bind, wp_get, wp_ite]
    refine ⟨fun _ => ?_, fun hno => absurd hle hno⟩
    rw [wp_bind]
    refine (blockmapEnsure_appends (hshape.layout hl) (hshape.volumeWritable.trans hw)).mono ?_ ?_
    · rintro _ s₂ ⟨hstep', hconfig'⟩
      rw [hconfig] at hstep'
      have hsame : s₂.scene = y := hstep'.unique hstep
      have hsucc := hstep'.blockCount.1
      change s₂.inode.blockCount.toNat = s₁.inode.blockCount.toNat + 1 at hsucc
      refine ⟨hsame ▸ hrest, trans_of SameShape hshape hstep'.shape, ?_, hconfig'.trans hconfig⟩
      omega
    · intro e s₂ hnone
      rw [hconfig] at hnone
      exact hnone hff (hshape.serves hs) y hstep
  · rintro _ s₁ ⟨hgrown, _, hat, hconfig⟩
    refine ⟨hgrown.eq_of_le ?_, hconfig⟩
    change x.ino.blockCount.toNat ≤ s₁.inode.blockCount.toNat
    omega

end

end OwStorage.Owfs
