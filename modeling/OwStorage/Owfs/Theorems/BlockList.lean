import OwStorage.Owfs.Lemmas.WriteCost
import OwStorage.Owfs.Lemmas.Check

/-!
# ブロックの並びとしての inode

inode の論理番号 `0, 1, …` に対応する物理ブロックの並びについて、次の番号の用意は末尾に空きブロックを一つ加え、解放は
前の部分だけを残す。ほかの inode の並びはどちらでも変わらない。
-/

namespace OwStorage.Owfs

open Lib Prog

/-- `blockmapGet` が、番号 `0` から `blockCount - 1` までに返す値の並び。 -/
def physicalMap (v : Vol) (ino : Inode) : List (Except OwfsErr UInt32) :=
  (List.range ino.blockCount.toNat).map fun i => (blockmapGet ino (UInt32.ofNat i) v).1

/-- 整ったボリュームと、その `n` 番の inode の、呼び出し側の持つ写し `ino`。 -/
structure Held (v : Vol) (n : UInt32) (ino : Inode) : Prop where
  inTable : n.toNat < v.sb.totalInodes.toNat
  sound : Sound v.dev.disk v.sb (Function.update (slotInode v.dev.disk v.sb) n ino)
  faultFree : v.dev.FaultFree
  serves : Serves v.dev.toHtlConfig v.sb

/-- `n` のほかの inode の記録と並びが変わらない。 -/
def OthersSame (n : UInt32) (v v' : Vol) : Prop :=
  ∀ m : UInt32, m.toNat < v.sb.totalInodes.toNat → m ≠ n → (inodeAt v.dev.disk v.sb m).entryType ≠ 0 →
    inodeAt v'.dev.disk v'.sb m = inodeAt v.dev.disk v.sb m ∧
      physicalMap v' (inodeAt v'.dev.disk v'.sb m) = physicalMap v (inodeAt v.dev.disk v.sb m)

/-- 末尾に、空いていたブロック `b` を 0 で埋めて加えた。 -/
structure Appended (n : UInt32) (s s' : FileState) (b : UInt32) : Prop where
  list : physicalMap s'.vol s'.inode = physicalMap s.vol s.inode ++ [.ok b]
  unused : b ∈ unusedData s.vol
  zeroed : s'.vol.dev.disk b = Bytes.zero 4096
  used : b ∈ usedSet s'.vol.dev.disk s'.vol.sb
  others : OthersSame n s.vol s'.vol

/-- 空きが足りないと断り、inode もビットマップも空きの数も変えない。 -/
structure TurnedDown (n : UInt32) (s s' : FileState) (e : OwfsErr) : Prop where
  error : e = .noFreeBlocks
  inode : s'.inode = s.inode
  unspent : Unspent s.vol s'.vol
  others : OthersSame n s.vol s'.vol

/-- 並びの先頭の `k` 個だけを残し、ほかのブロックをちょうど空きに戻した。 -/
structure Shortened (n : UInt32) (s s' : FileState) (k : Nat) : Prop where
  list : physicalMap s'.vol s'.inode = (physicalMap s.vol s.inode).take k
  held : ∀ b, .ok b ∈ (physicalMap s.vol s.inode).drop k ∨
      (k ≤ 10 ∧ 10 < s.inode.blockCount.toNat ∧ b = s.inode.indirectBlock) → b ∈ usedSet s.vol.dev.disk s.vol.sb
  used : usedSet s'.vol.dev.disk s'.vol.sb = usedSet s.vol.dev.disk s.vol.sb \
    { b | .ok b ∈ (physicalMap s.vol s.inode).drop k ∨
      (k ≤ 10 ∧ 10 < s.inode.blockCount.toNat ∧ b = s.inode.indirectBlock) }
  free : s'.vol.sb.freeBlocks = s.vol.sb.freeBlocks +
    UInt32.ofNat (s.inode.blockCount.toNat - k + if k ≤ 10 ∧ 10 < s.inode.blockCount.toNat then 1 else 0)
  exact : FreeExact s.vol.dev.disk s.vol.sb → s'.vol.sb.freeBlocks.toNat = s.vol.sb.freeBlocks.toNat +
    (s.inode.blockCount.toNat - k + if k ≤ 10 ∧ 10 < s.inode.blockCount.toNat then 1 else 0)
  others : OthersSame n s.vol s'.vol

section

variable {v v' : Vol} {f : UInt32 → Inode} {n : UInt32} {ino : Inode} {s s' : FileState} {k : Nat}

/-- 並びは、対応するブロックの並びである。 -/
theorem physicalMap_eq (h : Sound v.dev.disk v.sb (Function.update f n ino)) (hn : n.toNat < v.sb.totalInodes.toNat)
    (hf : v.dev.FaultFree) (hs : Serves v.dev.toHtlConfig v.sb) :
    physicalMap v ino = (List.range ino.blockCount.toNat).map fun i => .ok (mapBlock v.dev.disk ino i) := by
  refine List.map_congr_left fun i hi => ?_
  have hi := List.mem_range.mp hi
  have hlt := ino.blockCount.toNat_lt
  have hat : (UInt32.ofNat i).toNat = i := toNat_ofNat_lt (by omega)
  have hheld : (UInt32.ofNat i).toNat < ino.blockCount.toNat := by rwa [hat]
  have hget := (blockmapGet_spec h hn hheld).mono (fun _ _ hb => hb.1) (fun _ _ he => he.2 ⟨hf, hs.readsData⟩)
  obtain ⟨b, v₁, hrun, rfl⟩ := hget.exists_ok
  rw [hrun, hat]

/-- 対応の変わらない並び。 -/
theorem map_range_congr {disk disk' : Disk} {ino' : Inode}
    (h : ∀ i, i < k → mapBlock disk' ino' i = mapBlock disk ino i) :
    ((List.range k).map fun i => (.ok (mapBlock disk' ino' i) : Except OwfsErr UInt32)) =
      (List.range k).map fun i => .ok (mapBlock disk ino i) :=
  List.map_congr_left fun i hi => by rw [h i (List.mem_range.mp hi)]

/-- ほかの inode の参照の先と記録に触れない操作。 -/
theorem othersSame_of_untouched {ino' : Inode} (h : Held v n ino) (ho : Untouched (slotInode v.dev.disk v.sb) n v v')
    (hst : Staged v v') (h' : Sound v'.dev.disk v'.sb (Function.update (slotInode v.dev.disk v.sb) n ino')) :
    OthersSame n v v' := by
  intro m hm hmn ht
  have hrow := hst.table m hm
  refine ⟨hrow, ?_⟩
  have hself : Function.update (slotInode v.dev.disk v.sb) n ino m = inodeAt v.dev.disk v.sb m := by
    rw [Function.update_of_ne hmn, slotInode_of_live ht]
  have hself' : Function.update (slotInode v.dev.disk v.sb) n ino' m = inodeAt v.dev.disk v.sb m := by
    rw [Function.update_of_ne hmn, slotInode_of_live ht]
  have hs : Sound v.dev.disk v.sb (Function.update (Function.update (slotInode v.dev.disk v.sb) n ino) m
      (inodeAt v.dev.disk v.sb m)) := by
    rw [← hself, Function.update_eq_self]
    exact h.sound
  have hs' : Sound v'.dev.disk v'.sb (Function.update (Function.update (slotInode v.dev.disk v.sb) n ino') m
      (inodeAt v.dev.disk v.sb m)) := by
    rw [← hself', Function.update_eq_self]
    exact h'
  have hserves : Serves v'.dev.toHtlConfig v'.sb := by
    rw [hst.dev.config]
    exact hst.shape.serves h.serves
  rw [hrow, physicalMap_eq hs hm h.faultFree h.serves,
    physicalMap_eq hs' (by rwa [hst.shape.totalInodes]) (hst.dev.faultFree h.faultFree) hserves]
  refine map_range_congr fun i hi => ?_
  have hx : (m, some i) ∈ refs v.sb (slotInode v.dev.disk v.sb) := by
    refine ⟨hm, ?_⟩
    rw [slotInode_of_live ht]
    exact hi
  have htgt := ho.target_eq h.sound hx hmn
  unfold target at htgt
  rw [slotInode_of_live ht] at htgt
  exact htgt

theorem Pushed.list (hp : Pushed (slotInode s.vol.dev.disk s.vol.sb) n s s' b) (h : Held s.vol n s.inode) :
    physicalMap s'.vol s'.inode = physicalMap s.vol s.inode ++ [.ok b] := by
  have hserves : Serves s'.vol.dev.toHtlConfig s'.vol.sb := by
    rw [hp.ext.dev.config]
    exact hp.ext.shape.serves h.serves
  rw [physicalMap_eq hp.ext.sound (by rw [hp.ext.shape.totalInodes]; exact h.inTable) (hp.ext.dev.faultFree h.faultFree)
    hserves, physicalMap_eq h.sound h.inTable h.faultFree h.serves, hp.count, List.range_succ, List.map_append,
    map_range_congr hp.ext.keeps, List.map_singleton, hp.last]

/-- (a) 次の番号のブロックの用意。 -/
theorem ensure_appends (h : Held s.vol n s.inode) (hw : volumeWritable s.vol.sb = .ok ())
    (hc : s.inode.blockCount.toNat < 1034) :
    wp (blockmapEnsure s.inode.blockCount) (fun b s' => Appended n s s' b) (fun e s' => TurnedDown n s s' e) s := by
  refine ((blockmapEnsure_spec h.inTable h.sound).and
    (blockmapEnsure_exact h.inTable h.sound h.faultFree h.serves hw hc)).mono ?_ ?_
  · rintro b s' ⟨hp, S, hg⟩
    have hb : b ∈ S := by
      rw [hg.members]
      split <;> simp
    refine ⟨hp.list h, hg.drawn.unused b hb, hg.zeroed, ?_, ?_⟩
    · rw [hg.drawn.used]
      exact .inr hb
    · exact othersSame_of_untouched h (hp.ext.untouched h.sound h.inTable)
        (hp.ext.staged h.sound h.inTable) hp.ext.sound
  · rintro e s' ⟨⟨he, hino⟩, hd⟩
    exact ⟨hd.error, hino, hd.unspent,
      othersSame_of_untouched h (he.untouched h.sound h.inTable) (he.staged h.sound h.inTable) he.sound⟩

theorem drop_range {k n : Nat} (h : k ≤ n) : (List.range n).drop k = (List.range (n - k)).map (k + ·) := by
  obtain ⟨m, rfl⟩ := Nat.exists_eq_add_of_le h
  rw [List.range_add, Nat.add_sub_cancel_left]
  exact List.drop_left' List.length_range

/-- 返すブロックの集まりを、並びの言葉で言い直す。 -/
theorem mem_releasedBlocks (h : Held v n ino) (hk : k ≤ ino.blockCount.toNat) (b : UInt32) :
    b ∈ releasedBlocks v.dev.disk ino k ↔ .ok b ∈ (physicalMap v ino).drop k ∨
      (k ≤ 10 ∧ 10 < ino.blockCount.toNat ∧ b = ino.indirectBlock) := by
  unfold releasedBlocks
  rw [physicalMap_eq h.sound h.inTable h.faultFree h.serves, ← List.map_drop, drop_range hk, List.map_map,
    Finset.mem_union]
  refine or_congr ?_ ?_
  · simp only [Finset.mem_image, Finset.mem_range, List.mem_map, List.mem_range, Function.comp, Except.ok.injEq]
  · split <;> rename_i hdrop
    · rw [Finset.mem_singleton]
      exact ⟨fun he => ⟨hdrop.1, hdrop.2, he⟩, fun he => he.2.2⟩
    · exact ⟨fun he => absurd he (Finset.notMem_empty _), fun he => absurd ⟨he.1, he.2.1⟩ hdrop⟩

/-- (b) 番号 `k` からの解放。 -/
theorem release_shortens (h : Held s.vol n s.inode) (hw : volumeWritable s.vol.sb = .ok ()) {k : UInt32}
    (hk : k.toNat < s.inode.blockCount.toNat) :
    wp (blockmapRelease k) (fun _ s' => Shortened n s s' k.toNat) (fun _ _ => False) s := by
  have hcard := card_releasedBlocks h.inTable h.sound k.toNat
  have hmem := mem_releasedBlocks h hk.le
  refine ((blockmapRelease_spec h.sound h.inTable h.faultFree h.serves k).and
    (blockmapRelease_exact h.inTable h.sound h.faultFree h.serves hw k)).mono ?_ (fun _ _ hno => hno.2)
  rintro _ s' ⟨hrel, htrim⟩
  have hcount : s'.inode.blockCount.toNat = k.toNat := by
    rw [hrel.count]
    exact min_eq_left hk.le
  -- 解放は大きさの欄を変えないので、参照だけを比べるために大きさを 0 とみる。
  have hsound := hrel.sound h.sound h.inTable { s'.inode with sizeBytes := 0 } ⟨rfl, rfl, rfl, rfl⟩ (Nat.zero_le _)
  have hserves : Serves s'.vol.dev.toHtlConfig s'.vol.sb := by
    rw [hrel.dev.config]
    exact hrel.shape.serves h.serves
  have hlist' : physicalMap s'.vol s'.inode = (List.range k.toNat).map fun i =>
      .ok (mapBlock s'.vol.dev.disk s'.inode i) := by
    rw [← hcount]
    change physicalMap s'.vol { s'.inode with sizeBytes := 0 } = _
    exact physicalMap_eq hsound
      (by rw [hrel.shape.totalInodes]; exact h.inTable) (hrel.dev.faultFree h.faultFree) hserves
  refine ⟨?_, fun b hb => htrim.repaid.held b ((hmem b).mpr hb), ?_, ?_, fun hx => ?_, ?_⟩
  · rw [hlist', physicalMap_eq h.sound h.inTable h.faultFree h.serves, ← List.map_take, List.take_range,
      min_eq_left hk.le]
    exact map_range_congr fun i hi => htrim.keeps i hi (by omega)
  · rw [htrim.repaid.used]
    congr 1
    ext b
    exact hmem b
  · rw [htrim.repaid.sb, hcard]
  · rw [htrim.repaid.toNat_freeBlocks hx, hcard]
  · exact othersSame_of_untouched h (hrel.untouched h.sound) (hrel.staged h.sound.layout) hsound

/-- 書き込みを許さないボリュームでは、どちらもその誤りを返し、何も変えない。 -/
theorem ensure_gated {e : OwfsErr} (hw : volumeWritable s.vol.sb = .error e) (hc : s.inode.blockCount.toNat < 1034) :
    blockmapEnsure s.inode.blockCount s = (.error e, s) := by
  have hlim : ¬ s.inode.blockCount ≥ 1034 := fun hge => Nat.not_le.mpr hc (UInt32.le_iff_toNat_le.mp hge)
  refine run_bind rfl (run_bind (run_failIf hlim) (run_bind_error ?_))
  rw [hw]
  rfl

theorem release_gated {e : OwfsErr} (hw : volumeWritable s.vol.sb = .error e) (k : UInt32) :
    blockmapRelease k s = (.error e, s) := by
  refine run_bind rfl (run_bind_error ?_)
  rw [hw]
  rfl

end

/-- ブロック表は並びである。書き込みを許すボリュームでは、次の番号の用意は末尾に一つ加えるか、空きがないと断って何も変えず、
解放は先頭の部分だけを残す。許さないボリュームでは、どちらも断って何も変えない。 -/
theorem blockmap_is_list {v : Vol} {n : UInt32} {ino : Inode} (h : Held v n ino) :
    (volumeWritable v.sb = .ok () →
      (ino.blockCount.toNat < 1034 → wp (blockmapEnsure ino.blockCount) (fun b s' => Appended n ⟨v, ino⟩ s' b)
        (fun e s' => TurnedDown n ⟨v, ino⟩ s' e) ⟨v, ino⟩) ∧
      ∀ k : UInt32, k.toNat < ino.blockCount.toNat →
        wp (blockmapRelease k) (fun _ s' => Shortened n ⟨v, ino⟩ s' k.toNat) (fun _ _ => False) ⟨v, ino⟩) ∧
    ∀ e, volumeWritable v.sb = .error e →
      (ino.blockCount.toNat < 1034 → blockmapEnsure ino.blockCount ⟨v, ino⟩ = (.error e, ⟨v, ino⟩)) ∧
      ∀ k : UInt32, blockmapRelease k ⟨v, ino⟩ = (.error e, ⟨v, ino⟩) :=
  ⟨fun hw => ⟨fun hc => ensure_appends (s := ⟨v, ino⟩) h hw hc, fun _ hk => release_shortens (s := ⟨v, ino⟩) h hw hk⟩,
    fun _ hw => ⟨fun hc => ensure_gated (s := ⟨v, ino⟩) hw hc, fun k => release_gated (s := ⟨v, ino⟩) hw k⟩⟩

/-! ## 直接の参照の終わりでの例 -/

section

variable {v : Vol} {n : UInt32} {ino : Inode} {s' : FileState}

/-- 読み直した inode の写し。 -/
theorem Ready.held (hr : Ready v) (hn : n.toNat < v.sb.totalInodes.toNat)
    (ht : (inodeAt v.dev.disk v.sb n).entryType ≠ 0) :
    Held v n (inodeAt v.dev.disk v.sb n) := ⟨hn, hr.sound.fresh ht, hr.faultFree, hr.serves⟩

theorem Ext.held (he : Ext (slotInode v.dev.disk v.sb) n ⟨v, ino⟩ s') (h : Held v n ino) : Held s'.vol n s'.inode := by
  have hst := he.staged h.sound h.inTable
  refine ⟨by rw [he.shape.totalInodes]; exact h.inTable, he.sound.congr_table fun m hm => ?_,
    he.dev.faultFree h.faultFree, ?_⟩
  · rw [he.shape.totalInodes] at hm
    by_cases hmn : m = n
    · rw [hmn, Function.update_self, Function.update_self]
    · rw [Function.update_of_ne hmn, Function.update_of_ne hmn]
      unfold slotInode
      rw [hst.table m hm]
  · rw [he.dev.config]
    exact he.shape.serves h.serves

/-- 空きがあれば、並びは次の番号まで伸びる。 -/
theorem Held.push (h : Held v n ino) (hw : volumeWritable v.sb = .ok ()) (hx : FreeExact v.dev.disk v.sb)
    (hc : ino.blockCount.toNat < 1034) (hroom : stepCost ino.blockCount.toNat ≤ v.sb.freeBlocks.toNat) :
    ∃ v' ino', Held v' n ino' ∧ volumeWritable v'.sb = .ok () ∧ FreeExact v'.dev.disk v'.sb ∧
      ino'.blockCount.toNat = ino.blockCount.toNat + 1 ∧
      v'.sb.freeBlocks.toNat + stepCost ino.blockCount.toNat = v.sb.freeBlocks.toNat := by
  have hrun : wp (blockmapEnsure ino.blockCount)
      (fun b s' => Pushed (slotInode v.dev.disk v.sb) n ⟨v, ino⟩ s' b ∧
        ∃ S, Grown v s'.vol ino.blockCount.toNat s'.inode.indirectBlock b S) (fun _ _ => False) ⟨v, ino⟩ := by
    refine ((blockmapEnsure_spec (s := ⟨v, ino⟩) h.inTable h.sound).and
      (blockmapEnsure_exact (s := ⟨v, ino⟩) h.inTable h.sound h.faultFree h.serves hw hc)).mono (fun _ _ hp => hp) ?_
    rintro e s' ⟨_, hd⟩
    exact absurd hroom (Nat.not_le.mpr (hd.exact hx))
  obtain ⟨b, s', _, hp, S, hg⟩ := hrun.exists_ok
  refine ⟨s'.vol, s'.inode, hp.ext.held h, hp.ext.shape.volumeWritable.trans hw, hp.ext.exact hx, hp.count, ?_⟩
  have hfree := hg.exact hx
  omega

/-- 空きの足りるかぎり、並びは何番までも伸びる。 -/
theorem Held.reach (h : Held v n ino) (hw : volumeWritable v.sb = .ok ()) (hx : FreeExact v.dev.disk v.sb) :
    ∀ m, ino.blockCount.toNat + m ≤ 1034 →
      growCost ino.blockCount.toNat (ino.blockCount.toNat + m) ≤ v.sb.freeBlocks.toNat →
      ∃ v' ino', Held v' n ino' ∧ volumeWritable v'.sb = .ok () ∧ FreeExact v'.dev.disk v'.sb ∧
        ino'.blockCount.toNat = ino.blockCount.toNat + m ∧
        v'.sb.freeBlocks.toNat + growCost ino.blockCount.toNat (ino.blockCount.toNat + m) =
          v.sb.freeBlocks.toNat := by
  intro m
  induction m with
  | zero =>
      intro _ _
      exact ⟨v, ino, h, hw, hx, rfl, by rw [Nat.add_zero, growCost_of_le le_rfl, Nat.add_zero]⟩
  | succ m ih =>
      intro hm hroom
      have hcost := growCost_succ (c := ino.blockCount.toNat) (Nat.le_add_right _ m)
      rw [← Nat.add_assoc, hcost] at hroom ⊢
      obtain ⟨v₁, ino₁, h₁, hw₁, hx₁, hcount, hfree⟩ := ih (by omega) (by omega)
      rw [← hcount] at hroom ⊢
      obtain ⟨v', ino', h', hw', hx', hcount', hfree'⟩ := h₁.push hw₁ hx₁ (by omega) (by rw [← hcount] at hfree; omega)
      refine ⟨v', ino', h', hw', hx', hcount', ?_⟩
      rw [← hcount] at hfree
      omega

end

/-- 300 ブロックのボリューム。 -/
def roomyDevice : HtlDevice := { blankDevice with totalBlocks := 300 }

@[irreducible] def roomyVolume : Vol := (formatBody ⟨roomyDevice, freshSuperblock 300 none (Bytes.zero 12)⟩).2

theorem formatted_roomyVolume : Formatted roomyVolume ∧ roomyVolume.dev.toHtlConfig = roomyDevice.toHtlConfig := by
  have hrun : formatBody ⟨roomyDevice, freshSuperblock 300 none (Bytes.zero 12)⟩ = (.ok (), roomyVolume) := by
    unfold roomyVolume
    exact run_eq (by decide +kernel)
  obtain ⟨hfmt, _, hhoused⟩ := (formatBody_spec rfl (by decide) (by decide) (by decide)).ok hrun
  exact ⟨hfmt, hhoused.dev.config⟩

/-- 根のカタログは、`c` ブロックまで伸ばせる。 -/
theorem exists_held {c : Nat} (hlo : 1 ≤ c) (hhi : c ≤ 20) :
    ∃ v ino, Held v 0 ino ∧ volumeWritable v.sb = .ok () ∧ ino.blockCount.toNat = c := by
  obtain ⟨hfmt, hconf⟩ := formatted_roomyVolume
  have hff : roomyVolume.dev.FaultFree := by
    unfold HtlConfig.FaultFree
    rw [hconf]
    exact fun _ => rfl
  have hheld : Held roomyVolume 0 (inodeAt roomyVolume.dev.disk roomyVolume.sb 0) :=
    (hfmt.ready hff).held (by decide +kernel) (by decide +kernel)
  have hcount : (inodeAt roomyVolume.dev.disk roomyVolume.sb 0).blockCount.toNat = 1 := by decide +kernel
  have hfree : 22 ≤ roomyVolume.sb.freeBlocks.toNat := by decide +kernel
  have hcost : growCost 1 (1 + (c - 1)) ≤ 22 := by
    unfold growCost
    split <;> omega
  obtain ⟨v, ino, h, hw, _, hc, _⟩ := hheld.reach (by decide +kernel) hfmt.exact (c - 1) (by omega)
    (by rw [hcount]; omega)
  exact ⟨v, ino, h, hw, by omega⟩

/-- 11 番目のブロックの用意は間接ブロックを取り、10 番からの解放は間接ブロックも返す。 -/
theorem boundary_blockmap_is_list :
    (∃ v ino, ino.blockCount.toNat = 10 ∧ wp (blockmapEnsure ino.blockCount)
      (fun b s' => Appended 0 ⟨v, ino⟩ s' b) (fun e s' => TurnedDown 0 ⟨v, ino⟩ s' e) ⟨v, ino⟩) ∧
    ∃ v ino, ino.blockCount.toNat = 11 ∧
      wp (blockmapRelease 10) (fun _ s' => Shortened 0 ⟨v, ino⟩ s' 10) (fun _ _ => False) ⟨v, ino⟩ := by
  obtain ⟨v, ino, h, hw, hc⟩ := exists_held (c := 10) (by decide) (by decide)
  obtain ⟨v', ino', h', hw', hc'⟩ := exists_held (c := 11) (by decide) (by decide)
  exact ⟨⟨v, ino, hc, ((blockmap_is_list h).1 hw).1 (by omega)⟩,
    v', ino', hc', ((blockmap_is_list h').1 hw').2 10 (by rw [hc']; decide)⟩

/-- ロックされたボリューム。 -/
@[irreducible] def lockedMount : Vol := { mountedVolume with sb := setFlags stateLocked mountedVolume.sb }

theorem ready_lockedMount : Ready lockedMount := by
  unfold lockedMount
  exact inSession_mountedVolume.toReady.resave (SameLedger.setFlags _ _) (.refl _ _)

/-- 整ったボリュームでも、ロックされていれば、用意は加えも断りもしないで別の誤りを返す。 -/
theorem locked_volume_refuses_ensure : ¬ ∀ (v : Vol) (n : UInt32) (ino : Inode), Held v n ino →
    ino.blockCount.toNat < 1034 → wp (blockmapEnsure ino.blockCount) (fun b s' => Appended n ⟨v, ino⟩ s' b)
      (fun e s' => TurnedDown n ⟨v, ino⟩ s' e) ⟨v, ino⟩ := by
  intro hall
  have hheld := ready_lockedMount.held (n := 0) (by decide +kernel) (by decide +kernel)
  have hc : (inodeAt lockedMount.dev.disk lockedMount.sb 0).blockCount.toNat < 1034 := by decide +kernel
  have hgate : volumeWritable lockedMount.sb = .error .volumeDirty := by decide +kernel
  have hrun := ensure_gated (s := ⟨lockedMount, inodeAt lockedMount.dev.disk lockedMount.sb 0⟩) hgate hc
  have hspec := hall _ _ _ hheld hc
  unfold wp at hspec
  rw [hrun] at hspec
  exact absurd hspec.error (by decide)

end OwStorage.Owfs
