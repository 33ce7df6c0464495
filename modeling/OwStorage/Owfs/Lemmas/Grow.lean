import OwStorage.Owfs.Lemmas.Blockmap

/-!
# ブロックの追加

inode に一ブロックを加える操作は、成功しても失敗しても所有の関係を保ち、それまでに使用中だったブロックの内容を
（自分の間接ブロックのほかは）変えない。
-/

namespace OwStorage.Owfs

open Lib Prog

/-- ブロックの追加が書いてよいブロック。まだない間接ブロックは含まない。 -/
def growZone (s : FileState) : Set UInt32 :=
  s.vol.sb.bitmapRegion ∪ unusedData s.vol ∪ { b | b ≠ 0 ∧ b = s.inode.indirectBlock }

/-- 呼び出し側の inode `n` にいくつかのブロックを加えた。`f` は表のほかの inode である。 -/
structure Ext (f : UInt32 → Inode) (n : UInt32) (s s' : FileState) : Prop where
  sound : Sound s'.vol.dev.disk s'.vol.sb (Function.update f n s'.inode)
  shape : SameShape s.vol.sb s'.vol.sb
  dev : s.vol.dev.Evolves (growZone s) s'.vol.dev
  used : usedSet s.vol.dev.disk s.vol.sb ⊆ usedSet s'.vol.dev.disk s'.vol.sb
  exact : FreeExact s.vol.dev.disk s.vol.sb → FreeExact s'.vol.dev.disk s'.vol.sb
  count : s.inode.blockCount.toNat ≤ s'.inode.blockCount.toNat
  fields : s'.inode =
    { s.inode with
      blockCount := s'.inode.blockCount
      directBlocks := s'.inode.directBlocks
      indirectBlock := s'.inode.indirectBlock }
  keeps : ∀ i, i < s.inode.blockCount.toNat →
    mapBlock s'.vol.dev.disk s'.inode i = mapBlock s.vol.dev.disk s.inode i
  indirect : s'.inode.indirectBlock = s.inode.indirectBlock ∨
    (s.inode.indirectBlock = 0 ∧ s'.inode.indirectBlock ∈ unusedData s.vol)

namespace Ext

variable {f : UInt32 → Inode} {n : UInt32} {s s' s'' : FileState}

theorem ofRoom {v : Vol} (h : Room (Function.update f n s.inode) s.vol v)
    (hn : n.toNat < s.vol.sb.totalInodes.toNat) : Ext f n s ⟨v, s.inode⟩ := by
  refine ⟨h.sound, h.shape, h.dev.mono Set.subset_union_left, h.used, h.exact, le_rfl, rfl, ?_, .inl rfl⟩
  intro i hi
  have hmem : (n, some i) ∈ refs s.vol.sb (Function.update f n s.inode) := mem_refs_update_self.mpr ⟨hn, hi⟩
  have he := h.target_eq hmem
  rw [target_update_self, target_update_self] at he
  exact he

theorem zone_subset (h : Ext f n s s') : growZone s' ⊆ growZone s := by
  rintro b ((hb | hb) | hb)
  · rw [h.shape.bitmapRegion] at hb
    exact .inl (.inl hb)
  · exact .inl (.inr ⟨h.shape.isData.mp hb.1, fun hu => hb.2 (h.used hu)⟩)
  · obtain ⟨hne, rfl⟩ := hb
    rcases h.indirect with he | ⟨_, hz⟩
    · exact .inr ⟨hne, he⟩
    · exact .inl (.inr hz)

theorem trans (h : Ext f n s s') (h' : Ext f n s' s'') : Ext f n s s'' := by
  refine ⟨h'.sound, trans_of SameShape h.shape h'.shape, h.dev.trans (h'.dev.mono h.zone_subset),
    fun x hx => h'.used (h.used hx), fun he => h'.exact (h.exact he), h.count.trans h'.count, ?_, ?_, ?_⟩
  · rw [h'.fields, h.fields]
  · intro i hi
    rw [h'.keeps i (lt_of_lt_of_le hi h.count), h.keeps i hi]
  · rcases h.indirect with he | ⟨hz, hu⟩
    · rcases h'.indirect with he' | ⟨hz', hu'⟩
      · exact .inl (he'.trans he)
      · exact .inr ⟨he ▸ hz', h.shape.isData.mp hu'.1, fun hx => hu'.2 (h.used hx)⟩
    · rcases h'.indirect with he' | ⟨hz', hu'⟩
      · exact .inr ⟨hz, he' ▸ hu⟩
      · exact .inr ⟨hz, h.shape.isData.mp hu'.1, fun hx => hu'.2 (h.used hx)⟩

end Ext

/-- ちょうど一ブロック `b` を、次の論理番号に加えた。 -/
structure Pushed (f : UInt32 → Inode) (n : UInt32) (s s' : FileState) (b : UInt32) : Prop where
  ext : Ext f n s s'
  count : s'.inode.blockCount.toNat = s.inode.blockCount.toNat + 1
  last : mapBlock s'.vol.dev.disk s'.inode s.inode.blockCount.toNat = b

/-! ## 直接のポインタ -/

section

variable {f : UInt32 → Inode} {n : UInt32} {s : FileState} {v : Vol} {b : UInt32}

theorem toNat_blockCount_succ {p : Inode} (h : p.blockCount.toNat ≤ 1034) :
    (p.blockCount + 1).toNat = p.blockCount.toNat + 1 := toNat_add_one_lt (by omega)

/-- 直接のポインタを一つ加えた inode。 -/
def Inode.pushDirect (ino : Inode) (b : UInt32) : Inode :=
  { ino with
    directBlocks := ino.directBlocks.setIfInBounds ino.blockCount.toNat b
    blockCount := ino.blockCount + 1 }

@[simp] theorem blockCount_pushDirect {ino : Inode} : (ino.pushDirect b).blockCount = ino.blockCount + 1 := rfl
@[simp] theorem sizeBytes_pushDirect {ino : Inode} : (ino.pushDirect b).sizeBytes = ino.sizeBytes := rfl
@[simp] theorem indirectBlock_pushDirect {ino : Inode} :
    (ino.pushDirect b).indirectBlock = ino.indirectBlock := rfl

theorem mapBlock_pushDirect {ino : Inode} {disk : Disk} (hbc : ino.blockCount.toNat < 10) {i : Nat}
    (hi : i < ino.blockCount.toNat + 1) :
    mapBlock disk (ino.pushDirect b) i = if i = ino.blockCount.toNat then b else mapBlock disk ino i := by
  have h10 : i < 10 := by omega
  unfold mapBlock
  rw [if_pos h10, if_pos h10]
  by_cases he : i = ino.blockCount.toNat
  · rw [if_pos he, he]
    exact congrArg (Option.getD · 0) (Vector.getElem?_setIfInBounds_self_of_lt hbc)
  · rw [if_neg he]
    exact congrArg (Option.getD · 0) (Vector.getElem?_setIfInBounds_ne (Ne.symm he))

theorem shaped_pushDirect {ino : Inode} (h : ino.Shaped) (hbc : ino.blockCount.toNat < 10) :
    (ino.pushDirect b).Shaped := by
  have hsucc := toNat_blockCount_succ h.blocks
  refine ⟨?_, ?_, ?_⟩
  · rw [blockCount_pushDirect, hsucc]
    omega
  · rw [blockCount_pushDirect, sizeBytes_pushDirect, hsucc]
    exact h.size.trans (Nat.mul_le_mul_right _ (Nat.le_succ _))
  · rw [blockCount_pushDirect, indirectBlock_pushDirect, hsucc, h.indirect]
    omega

theorem pushed_direct (hn : n.toNat < s.vol.sb.totalInodes.toNat) (hbc : s.inode.blockCount.toNat < 10)
    (h : Taken (Function.update f n s.inode) s.vol s.vol v b) :
    Pushed f n s ⟨v, s.inode.pushDirect b⟩ b := by
  have hroom := h.room
  have hshaped := hroom.base.shaped_self hn
  have hsucc := toNat_blockCount_succ hshaped.blocks
  have hn' : n.toNat < v.sb.totalInodes.toNat := by rwa [hroom.shape.totalInodes]
  have hbase := Ext.ofRoom hroom hn
  refine ⟨⟨?_, hbase.shape, hbase.dev, hbase.used, hbase.exact, ?_, rfl, ?_, .inl rfl⟩, hsucc, ?_⟩
  · refine hroom.sound.replace (shaped_pushDirect hshaped hbc) ?_
    refine owns_grow (r := some s.inode.blockCount.toNat) hroom.sound.owns
      (fun x hx => hroom.unowned h.unused hx) h.used (fun _ h => h) (fun _ _ _ => rfl) ?_
    intro r hr
    cases r with
    | none => exact .inr ⟨hr, rfl⟩
    | some i =>
        have hi : i < s.inode.blockCount.toNat + 1 := by
          rw [← hsucc]
          exact hr
        change (_ ∧ mapBlock _ _ i = b) ∨ (i < _ ∧ mapBlock _ _ i = mapBlock _ _ i)
        rw [mapBlock_pushDirect hbc hi]
        by_cases he : i = s.inode.blockCount.toNat
        · exact .inl ⟨by rw [he], if_pos he⟩
        · exact .inr ⟨by omega, if_neg he⟩
  · change s.inode.blockCount.toNat ≤ (s.inode.blockCount + 1).toNat
    omega
  · intro i hi
    change mapBlock v.dev.disk (s.inode.pushDirect b) i = _
    rw [mapBlock_pushDirect hbc (by omega), if_neg (by omega)]
    exact hbase.keeps i hi
  · exact (mapBlock_pushDirect hbc (Nat.lt_succ_self _)).trans (if_pos rfl)

end

/-! ## 間接ブロックのポインタ -/

section

variable {f : UInt32 → Inode} {n : UInt32} {ino : Inode} {disk : Disk} {sb : Superblock} {b : UInt32}

/-- 間接ブロックに、次の番号のポインタを書いたディスク。 -/
def pushPtr (disk : Disk) (ino : Inode) (b : UInt32) : Disk :=
  Function.update disk ino.indirectBlock
    (ptrStore (disk ino.indirectBlock) (ino.blockCount.toNat - 10) b)

/-- ブロックの数だけを 1 増やした inode。 -/
def Inode.bump (ino : Inode) : Inode := { ino with blockCount := ino.blockCount + 1 }

@[simp] theorem blockCount_bump : ino.bump.blockCount = ino.blockCount + 1 := rfl
@[simp] theorem sizeBytes_bump : ino.bump.sizeBytes = ino.sizeBytes := rfl
@[simp] theorem indirectBlock_bump : ino.bump.indirectBlock = ino.indirectBlock := rfl

theorem mapBlock_pushPtr (ino : Inode) (hlo : 10 ≤ ino.blockCount.toNat) (hhi : ino.blockCount.toNat < 1034) {i : Nat} :
    mapBlock (pushPtr disk ino b) ino.bump i = if i = ino.blockCount.toNat then b else mapBlock disk ino i := by
  unfold mapBlock pushPtr
  rw [indirectBlock_bump, Function.update_self]
  by_cases he : i = ino.blockCount.toNat
  · rw [if_pos he, if_neg (by omega), he, ptrLoad_ptrStore_same _ (by omega)]
  · rw [if_neg he]
    by_cases h10 : i < 10
    · rw [if_pos h10, if_pos h10]
      rfl
    · rw [if_neg h10, if_neg h10, ptrLoad_ptrStore_other _ (by omega)]

theorem shaped_bump (hb : ino.blockCount.toNat < 1034) (hs : ino.sizeBytes.toNat ≤ ino.blockCount.toNat * 4096)
    (hlo : 10 ≤ ino.blockCount.toNat) (hind : ino.indirectBlock ≠ 0) : ino.bump.Shaped := by
  have hsucc := toNat_blockCount_succ (p := ino) (by omega)
  refine ⟨?_, ?_, ?_⟩
  · rw [blockCount_bump, hsucc]
    omega
  · rw [blockCount_bump, sizeBytes_bump, hsucc]
    exact hs.trans (Nat.mul_le_mul_right _ (Nat.le_succ _))
  · rw [blockCount_bump, indirectBlock_bump, hsucc]
    exact ⟨fun _ => by omega, fun _ => hind⟩

/-- 間接ブロックにポインタを書き足しても、参照はどれも別のブロックを指す。 -/
theorem owns_pushPtr {used : Set UInt32} (hn : n.toNat < sb.totalInodes.toNat)
    (hlo : 10 ≤ ino.blockCount.toNat) (hhi : ino.blockCount.toNat < 1034) (hind : ino.indirectBlock ≠ 0)
    (hshaped : ∀ m : UInt32, m.toNat < sb.totalInodes.toNat → m ≠ n → (f m).Shaped)
    (h : Owns (refs sb (Function.update f n ino)) (target disk (Function.update f n ino)) used)
    (hb : ∀ x ∈ refs sb (Function.update f n ino), target disk (Function.update f n ino) x ≠ b)
    (hu : b ∈ used) :
    Owns (refs sb (Function.update f n ino.bump)) (target (pushPtr disk ino b) (Function.update f n ino.bump))
      used := by
  have hsucc := toNat_blockCount_succ (p := ino) (by omega)
  refine owns_grow (r := some ino.blockCount.toNat) h hb hu (fun _ h => h) ?_ ?_
  · -- ほかの inode の間接ブロックは、書いたブロックとは別である。
    rintro ⟨m, r⟩ hx hm
    cases r with
    | none => rfl
    | some i =>
        refine mapBlock_congr fun hi => Function.update_of_ne ?_ _ _
        have hlive : (m, none) ∈ refs sb (Function.update f n ino) := by
          rw [mem_refs_update_other hm]
          refine ⟨hx.1, (hshaped m hx.1 hm).indirect.mpr ?_⟩
          have : i < (f m).blockCount.toNat := hx.2
          omega
        have hself : (n, none) ∈ refs sb (Function.update f n ino) := mem_refs_update_self.mpr ⟨hn, hind⟩
        have hne := h.ne hlive hself fun he => hm (congrArg Prod.fst he)
        rw [target_update_self, target_update_other hm] at hne
        exact hne
  · intro r hr
    cases r with
    | none => exact .inr ⟨hind, rfl⟩
    | some i =>
        have hi : i < ino.blockCount.toNat + 1 := by
          rw [← hsucc]
          exact hr
        change (_ ∧ mapBlock _ _ i = b) ∨ (i < _ ∧ mapBlock _ _ i = mapBlock _ _ i)
        rw [mapBlock_pushPtr _ hlo hhi]
        by_cases he : i = ino.blockCount.toNat
        · exact .inl ⟨by rw [he], if_pos he⟩
        · exact .inr ⟨by omega, if_neg he⟩

end

section

variable {f : UInt32 → Inode} {n : UInt32} {s : FileState} {v : Vol} {b ind : UInt32} {c : Nat}

/-- 間接ブロックを `ind` とした inode。 -/
def Inode.withIndirect (ino : Inode) (ind : UInt32) : Inode := { ino with indirectBlock := ind }

@[simp] theorem blockCount_withIndirect {ino : Inode} : (ino.withIndirect ind).blockCount = ino.blockCount := rfl
@[simp] theorem sizeBytes_withIndirect {ino : Inode} : (ino.withIndirect ind).sizeBytes = ino.sizeBytes := rfl
@[simp] theorem indirectBlock_withIndirect {ino : Inode} : (ino.withIndirect ind).indirectBlock = ind := rfl

/-- 間接ブロック `ind` にポインタを書いた後。`ind` は前からのものでも、いま取ったものでもよい。 -/
theorem pushed_ptr (hn : n.toNat < s.vol.sb.totalInodes.toNat) (hlo : 10 ≤ s.inode.blockCount.toNat)
    (hhi : s.inode.blockCount.toNat < 1034) (hroom : Room (Function.update f n s.inode) s.vol v)
    (hd : v.sb.IsData ind)
    (hind : ind = s.inode.indirectBlock ∨ (s.inode.indirectBlock = 0 ∧ ind ∈ unusedData s.vol))
    (ho : Owns (refs v.sb (Function.update f n (s.inode.withIndirect ind)))
      (target v.dev.disk (Function.update f n (s.inode.withIndirect ind))) (usedSet v.dev.disk v.sb))
    (hb : ∀ x ∈ refs v.sb (Function.update f n (s.inode.withIndirect ind)),
      target v.dev.disk (Function.update f n (s.inode.withIndirect ind)) x ≠ b)
    (hu : b ∈ usedSet v.dev.disk v.sb)
    (hkeep : ∀ i, i < s.inode.blockCount.toNat →
      mapBlock v.dev.disk (s.inode.withIndirect ind) i = mapBlock s.vol.dev.disk s.inode i) :
    Pushed f n s ⟨v.put ind (ptrStore (v.dev.disk ind) (s.inode.blockCount.toNat - 10) b) c,
      (s.inode.withIndirect ind).bump⟩ b := by
  have hl := hroom.sound.layout
  have hshaped := hroom.base.shaped_self hn
  have hsucc := toNat_blockCount_succ hshaped.blocks
  have hz : ind ≠ 0 := hl.data_ne_zero hd
  have hbit : ∀ x ∈ v.sb.bitmapRegion, (v.put ind (ptrStore (v.dev.disk ind)
      (s.inode.blockCount.toNat - 10) b) c).dev.disk x = v.dev.disk x := by
    intro x hx
    refine Function.update_of_ne ?_ _ _
    rintro rfl
    exact hl.data_not_bitmap hd hx
  have hused := usedSet_congr hl hbit
  have hbase := Ext.ofRoom hroom hn
  have hother : ∀ m : UInt32, m.toNat < v.sb.totalInodes.toNat → m ≠ n → (f m).Shaped := by
    intro m hm hne
    have := hroom.sound.shaped m hm
    rwa [Function.update_of_ne hne] at this
  have hn' : n.toNat < v.sb.totalInodes.toNat := by rwa [hroom.shape.totalInodes]
  refine ⟨⟨?_, hbase.shape, hbase.dev.trans (.store ?_), ?_, ?_, ?_, rfl, ?_, hind⟩, hsucc, ?_⟩
  · refine hroom.sound.replace ?_ ?_
    · exact shaped_bump hhi hshaped.size hlo hz
    · rw [hused]
      exact owns_pushPtr hn' hlo hhi hz hother ho hb hu
  · rcases hind with rfl | ⟨_, hun⟩
    · exact .inr ⟨hz, rfl⟩
    · exact .inl (.inr hun)
  · intro x hx
    exact hused ▸ hbase.used hx
  · exact fun he => (hbase.exact he).trans (freeCount_congr hl hbit).symm
  · change s.inode.blockCount.toNat ≤ (s.inode.blockCount + 1).toNat
    omega
  · intro i hi
    rw [← hkeep i hi]
    refine (mapBlock_pushPtr (s.inode.withIndirect ind) hlo hhi).trans ?_
    rw [if_neg (by rw [blockCount_withIndirect]; omega)]
  · exact (mapBlock_pushPtr (s.inode.withIndirect ind) hlo hhi).trans (if_pos rfl)

theorem pushed_newIndirect {v' : Vol} (hn : n.toNat < s.vol.sb.totalInodes.toNat)
    (hten : s.inode.blockCount.toNat = 10) (h : Taken (Function.update f n s.inode) s.vol s.vol v b)
    (ht : Taken (Function.update f n s.inode) s.vol v v' ind) :
    Pushed f n s ⟨v'.put ind (ptrStore (v'.dev.disk ind) (s.inode.blockCount.toNat - 10) b) c,
      (s.inode.withIndirect ind).bump⟩ b := by
  have hroom := ht.room
  have hz : s.inode.indirectBlock = 0 := by
    have := (hroom.base.shaped_self hn).indirect
    by_contra hne
    have := this.mp hne
    omega
  have hn' : n.toNat < v'.sb.totalInodes.toNat := by rwa [hroom.shape.totalInodes]
  have hdirect : ∀ i, i < s.inode.blockCount.toNat →
      mapBlock v'.dev.disk (s.inode.withIndirect ind) i = mapBlock v'.dev.disk s.inode i := by
    intro i hi
    unfold mapBlock
    rw [if_pos (by omega), if_pos (by omega)]
    rfl
  have ho : Owns (refs v'.sb (Function.update f n (s.inode.withIndirect ind)))
      (target v'.dev.disk (Function.update f n (s.inode.withIndirect ind))) (usedSet v'.dev.disk v'.sb) := by
    refine owns_grow (r := none) hroom.sound.owns (fun x hx => hroom.unowned ht.unused hx) ht.used
      (fun _ h => h) (fun _ _ _ => rfl) ?_
    intro r hr
    cases r with
    | none => exact .inl ⟨rfl, rfl⟩
    | some i => exact .inr ⟨hr, hdirect i hr⟩
  refine pushed_ptr hn (by omega) (by omega) hroom (hroom.shape.isData.mpr ht.unused.1)
    (.inr ⟨hz, ht.unused⟩) ho ?_ (ht.more h.used) ?_
  · rintro ⟨m, r⟩ hx
    by_cases hm : m = n
    · subst hm
      rw [mem_refs_update_self] at hx
      rw [target_update_self]
      cases r with
      | none =>
          rintro rfl
          exact ht.fresh h.used
      | some i =>
          change mapBlock _ _ i ≠ b
          rw [hdirect i hx.2]
          have hmem : (m, some i) ∈ refs v'.sb (Function.update f m s.inode) :=
            mem_refs_update_self.mpr ⟨hn', hx.2⟩
          have hne := hroom.unowned h.unused hmem
          rwa [target_update_self] at hne
    · have hmem : (m, r) ∈ refs v'.sb (Function.update f n s.inode) :=
        (mem_refs_update_other hm).mpr ((mem_refs_update_other hm).mp hx)
      have hne := hroom.unowned h.unused hmem
      rw [target_update_other hm] at hne ⊢
      exact hne
  · intro i hi
    rw [hdirect i hi]
    exact (Ext.ofRoom hroom hn).keeps i hi

theorem pushed_oldIndirect (hn : n.toNat < s.vol.sb.totalInodes.toNat) (hbig : 10 < s.inode.blockCount.toNat)
    (hhi : s.inode.blockCount.toNat < 1034) (h : Taken (Function.update f n s.inode) s.vol s.vol v b) :
    Pushed f n s ⟨v.put s.inode.indirectBlock
      (ptrStore (v.dev.disk s.inode.indirectBlock) (s.inode.blockCount.toNat - 10) b) c, s.inode.bump⟩ b := by
  have hroom := h.room
  have hn' : n.toNat < v.sb.totalInodes.toNat := by rwa [hroom.shape.totalInodes]
  have hlive : (n, none) ∈ refs v.sb (Function.update f n s.inode) :=
    mem_refs_update_self.mpr ⟨hn', (hroom.base.shaped_self hn).indirect.mpr hbig⟩
  have hd := hroom.sound.isData hlive
  rw [target_update_self] at hd
  exact pushed_ptr hn (by omega) hhi hroom hd (.inl rfl) hroom.sound.owns
    (fun x hx => hroom.unowned h.unused hx) h.used (Ext.ofRoom hroom hn).keeps

theorem Taken.still {F : UInt32 → Inode} {v₀ v₁ v₂ : Vol} (h : Taken F v₀ v₁ v b) (hs : Still v v₂) :
    Taken F v₀ v₁ v₂ b := by
  refine ⟨h.room.still hs, h.unused, h.fresh, ?_, ?_, ?_⟩ <;> obtain ⟨c, rfl⟩ := hs
  · exact h.used
  · exact h.more
  · exact h.zeroed

theorem ensureIndirect_spec (hn : n.toNat < s.vol.sb.totalInodes.toNat) (hlo : 10 ≤ s.inode.blockCount.toNat)
    (hhi : s.inode.blockCount.toNat < 1034)
    (h : Taken (Function.update f n s.inode) s.vol s.vol v b) :
    wp (ensureIndirect s.inode.blockCount b)
      (fun _ s' => Pushed f n s ⟨s'.vol, s'.inode.bump⟩ b)
      (fun _ s' => Ext f n s s' ∧ s'.inode = s.inode) ⟨v, s.inode⟩ := by
  have hshaped := h.room.base.shaped_self hn
  have hentry : (s.inode.blockCount - 10).toNat = s.inode.blockCount.toNat - 10 := toNat_sub_le hlo
  have hback : ∀ v', Room (Function.update f n s.inode) s.vol v' → Ext f n s ⟨v', s.inode⟩ :=
    fun v' hr => Ext.ofRoom hr hn
  unfold ensureIndirect
  simp only [wp_bind, wp_get, wp_ite]
  refine ⟨fun hz => ?_, fun hnz => ?_⟩
  · -- 間接ブロックをいま取る。
    have hten : s.inode.blockCount.toNat = 10 := by
      have := hshaped.indirect
      simp only [hz, ne_eq, not_true_eq_false, false_iff] at this
      omega
    have hten' : s.inode.blockCount = 10 := UInt32.toNat_inj.mp hten
    have hreset : { s.inode with indirectBlock := 0 } = s.inode := by
      rw [← hz]
    rw [wp_attempt, wp_onVol]
    refine (allocAndZero_room h.room).mono ?_ ?_
    · intro ind v' ht
      simp only [wp_bind, wp_modifyInode, wp_pure, wp_attempt, wp_onVol]
      refine wp_writeBlk (fun c _ => ?_) (fun e c _ _ => ?_)
      · rw [hentry, ← ht.zeroed]
        exact pushed_newIndirect hn hten h ht
      · simp only [wp_bind, wp_attempt, wp_onVol, wp_ite, wp_modifyInode, wp_throw, hreset]
        have hfree : ∀ v'', Room (Function.update f n s.inode) s.vol v'' →
            wp (bitmapFree ind) (fun _ v₃ => Ext f n s ⟨v₃, s.inode⟩ ∧ True)
              (fun _ v₃ => Ext f n s ⟨v₃, s.inode⟩ ∧ True) v'' := fun v'' hr =>
          (bitmapFree_room hr ht.unused).mono (fun _ v₃ hr' => ⟨hback v₃ hr', trivial⟩)
            (fun _ v₃ hr' => ⟨hback v₃ hr', trivial⟩)
        refine (bitmapFree_room (ht.room.still ⟨c, rfl⟩) h.unused).mono ?_ ?_ <;>
        · intro _ v'' hr
          exact ⟨fun _ => hfree v'' hr, fun hneg => absurd ⟨hten', by rw [hten']; rfl⟩ hneg⟩
    · intro e v' hr
      simp only [wp_bind, wp_attempt, wp_onVol, wp_throw]
      exact (bitmapFree_room hr h.unused).mono (fun _ v'' hr' => ⟨hback v'' hr', trivial⟩)
        (fun _ v'' hr' => ⟨hback v'' hr', trivial⟩)
  · -- 間接ブロックは前からある。
    have hbig : 10 < s.inode.blockCount.toNat := hshaped.indirect.mp hnz
    simp only [wp_attempt, wp_onVol]
    refine wp_readBlk (fun c _ => ?_) (fun c _ => ?_)
    · simp only [wp_pure, wp_bind, wp_attempt, wp_onVol]
      refine wp_writeBlk (fun c' _ => ?_) (fun e c' _ _ => ?_)
      · rw [hentry]
        exact pushed_oldIndirect hn hbig hhi (h.still ⟨c, rfl⟩)
      · simp only [wp_bind, wp_attempt, wp_onVol, wp_ite, wp_modifyInode, wp_throw]
        refine (bitmapFree_room (h.room.still ⟨c', rfl⟩) h.unused).mono ?_ ?_ <;>
        · intro _ v'' hr
          refine ⟨fun hten => absurd (congrArg UInt32.toNat hten.1) ?_, fun _ => ⟨hback v'' hr, trivial⟩⟩
          change s.inode.blockCount.toNat ≠ 10
          omega
    · simp only [wp_bind, wp_attempt, wp_onVol, wp_throw]
      exact (bitmapFree_room (h.room.still ⟨c, rfl⟩) h.unused).mono
        (fun _ v'' hr' => ⟨hback v'' hr', trivial⟩) (fun _ v'' hr' => ⟨hback v'' hr', trivial⟩)

/-- 次の番号のブロックを用意する。失敗しても inode は変わらない。 -/
theorem blockmapEnsure_spec (hn : n.toNat < s.vol.sb.totalInodes.toNat)
    (h : Sound s.vol.dev.disk s.vol.sb (Function.update f n s.inode)) :
    wp (blockmapEnsure s.inode.blockCount) (fun b s' => Pushed f n s s' b)
      (fun _ s' => Ext f n s s' ∧ s'.inode = s.inode) s := by
  have hrefl : Ext f n s s := Ext.ofRoom (Room.refl h) hn
  unfold blockmapEnsure
  simp only [wp_bind, wp_get, wp_failIf, wp_ofExcept, wp_ite]
  refine ⟨fun _ => ⟨hrefl, trivial⟩, fun hlim => ⟨fun _ _ => ⟨fun hlt => absurd hlt ?_, fun _ =>
    ⟨fun hne => absurd rfl hne, fun _ => ?_⟩⟩, fun _ _ => ⟨hrefl, trivial⟩⟩⟩
  · exact UInt32.lt_irrefl _
  · have hhi : s.inode.blockCount.toNat < 1034 := by
      rw [ge_iff_le, UInt32.not_le, UInt32.lt_iff_toNat_lt] at hlim
      exact hlim
    rw [wp_onVol]
    refine (allocAndZero_room (Room.refl h)).mono ?_ (fun _ v' hr => ⟨Ext.ofRoom hr hn, rfl⟩)
    intro b v' ht
    refine ⟨fun hlt => ?_, fun hge => ?_⟩
    · exact pushed_direct hn (UInt32.lt_iff_toNat_lt.mp hlt) ht
    · have hlo : 10 ≤ s.inode.blockCount.toNat := by
        rw [UInt32.not_lt, UInt32.le_iff_toNat_le] at hge
        exact hge
      exact (ensureIndirect_spec hn hlo hhi ht).mono (fun _ _ h => h) (fun _ _ h => h)

end

end OwStorage.Owfs
