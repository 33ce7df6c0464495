import OwStorage.Owfs.Lemmas.Release

/-!
# ファイルへの書き込み

書き込みは、要るブロックを先に用意し、データを書き、最後に inode を書く。途中で失敗すると、表の inode は前のままで、
新しく取ったブロックはどの inode からも指されない。
-/

namespace OwStorage.Owfs

open Lib Prog

/-! ## 内容の変わらない条件 -/

section

variable {disk disk' : Disk} {sb sb' : Superblock} {f : UInt32 → Inode} {ino ino' : Inode}

theorem cryptoXform_congr (hsb : SameShape sb sb') (hflags : ino'.securityFlags = ino.securityFlags)
    (buf : Block) (b : UInt32) : cryptoXform sb' ino' buf b = cryptoXform sb ino buf b := by
  obtain ⟨x, y, rfl⟩ := hsb
  unfold cryptoXform isEncrypted
  rw [hflags]

theorem plainBlock_congr (hsb : SameShape sb sb') (hflags : ino'.securityFlags = ino.securityFlags) {i : Nat}
    (hmap : mapBlock disk' ino' i = mapBlock disk ino i)
    (hdisk : disk' (mapBlock disk ino i) = disk (mapBlock disk ino i)) :
    plainBlock disk' sb' ino' i = plainBlock disk sb ino i := by
  unfold plainBlock
  rw [hmap, hdisk, cryptoXform_congr hsb hflags]

/-- 参照の先のブロックが変わらなければ、ファイルの内容は変わらない。 -/
theorem Sound.content_congr (h : Sound disk sb f) (hsb : SameShape sb sb') {m : UInt32}
    (hm : m.toNat < sb.totalInodes.toNat)
    (hd : ∀ x ∈ refs sb f, x.1 = m → disk' (target disk f x) = disk (target disk f x)) :
    fileContent disk' sb' (f m) = fileContent disk sb (f m) := by
  refine pages_congr fun i hi => ?_
  have hmem : (m, some i) ∈ refs sb f := ⟨hm, hi⟩
  have hmap : mapBlock disk' (f m) i = mapBlock disk (f m) i :=
    target_congr hmem fun hbc => hd (m, none) (h.indirect_live hm hbc) rfl
  exact plainBlock_congr hsb rfl hmap (hd (m, some i) hmem rfl)

end

/-! ## ブロックの用意 -/

/-- `n` のほかの inode の参照の先は書かれていない。 -/
def Untouched (f : UInt32 → Inode) (n : UInt32) (v v' : Vol) : Prop :=
  ∀ x ∈ refs v.sb f, x.1 ≠ n → v'.dev.disk (target v.dev.disk f x) = v.dev.disk (target v.dev.disk f x)

section

variable {f : UInt32 → Inode} {n m : UInt32} {s s' : FileState}

/-- ほかの inode の参照の先は、ブロックの追加では書かれない。 -/
theorem Sound.not_growZone (h : Sound s.vol.dev.disk s.vol.sb (Function.update f n s.inode))
    (hn : n.toNat < s.vol.sb.totalInodes.toNat) {x : Ref}
    (hx : x ∈ refs s.vol.sb (Function.update f n s.inode)) (hne : x ≠ (n, none)) :
    target s.vol.dev.disk (Function.update f n s.inode) x ∉ growZone s := by
  rintro ((hb | hb) | hb)
  · exact h.layout.data_not_bitmap (h.isData hx) hb
  · exact hb.2 (h.owns.mapsTo hx)
  · obtain ⟨hz, hb⟩ := hb
    rw [hb] at hz
    have hself : (n, none) ∈ refs s.vol.sb (Function.update f n s.inode) := mem_refs_update_self.mpr ⟨hn, hz⟩
    have ht := h.owns.ne hx hself hne
    rw [target_update_self] at ht
    exact ht hb

theorem untouched_of_update {v v' : Vol} (ino : Inode)
    (hd : ∀ x ∈ refs v.sb (Function.update f n ino), x.1 ≠ n →
      v'.dev.disk (target v.dev.disk (Function.update f n ino) x) =
        v.dev.disk (target v.dev.disk (Function.update f n ino) x)) : Untouched f n v v' := by
  rintro ⟨m, r⟩ hx hmn
  have hd := hd (m, r) ((mem_refs_update_other hmn).mpr hx) hmn
  rwa [target_update_other hmn] at hd

/-- ほかの inode の間接ブロックも書かれないので、参照の先は前後で同じである。 -/
theorem Untouched.target_eq {v v' : Vol} {ino : Inode} (ho : Untouched f n v v')
    (h : Sound v.dev.disk v.sb (Function.update f n ino)) {x : Ref} (hx : x ∈ refs v.sb f) (hxn : x.1 ≠ n) :
    target v'.dev.disk f x = target v.dev.disk f x := by
  obtain ⟨m, r⟩ := x
  have ht : target v'.dev.disk (Function.update f n ino) (m, r) =
    target v.dev.disk (Function.update f n ino) (m, r) := by
    refine target_congr ((mem_refs_update_other hxn).mpr hx) fun hbc => ?_
    have hlive := h.indirect_live hx.1 hbc
    rw [mem_refs_update_other hxn] at hlive
    rw [Function.update_of_ne hxn]
    exact ho (m, none) hlive hxn
  rwa [target_update_other hxn, target_update_other hxn] at ht

theorem Untouched.trans {v v₁ v₂ : Vol} {ino : Inode} (h₁ : Untouched f n v v₁) (h₂ : Untouched f n v₁ v₂)
    (h : Sound v.dev.disk v.sb (Function.update f n ino)) (hsb : SameShape v.sb v₁.sb) : Untouched f n v v₂ := by
  intro x hx hxn
  have h₂ := h₂ x (by rwa [hsb.refs]) hxn
  rw [h₁.target_eq h hx hxn] at h₂
  rw [h₂, h₁ x hx hxn]

theorem Untouched.content_eq {v v' : Vol} {ino : Inode} (ho : Untouched f n v v')
    (h : Sound v.dev.disk v.sb (Function.update f n ino)) (hsb : SameShape v.sb v'.sb)
    (hm : m.toNat < v.sb.totalInodes.toNat) (hmn : m ≠ n) :
    fileContent v'.dev.disk v'.sb (f m) = fileContent v.dev.disk v.sb (f m) := by
  have hc : fileContent v'.dev.disk v'.sb (Function.update f n ino m) =
      fileContent v.dev.disk v.sb (Function.update f n ino m) := by
    refine h.content_congr hsb hm fun x hx hxm => ?_
    obtain ⟨k, r⟩ := x
    have hkn : k ≠ n := by rwa [show k = m from hxm]
    rw [target_update_other hkn]
    exact ho (k, r) ((mem_refs_update_other hkn).mp hx) hkn
  rwa [Function.update_of_ne hmn] at hc

theorem Ext.untouched (he : Ext f n s s') (h : Sound s.vol.dev.disk s.vol.sb (Function.update f n s.inode))
    (hn : n.toNat < s.vol.sb.totalInodes.toNat) : Untouched f n s.vol s'.vol :=
  untouched_of_update _ fun _ hx hxn => he.dev.disk _ (h.not_growZone hn hx (by rintro rfl; exact hxn rfl))

theorem Ext.plainBlock_eq (he : Ext f n s s') (h : Sound s.vol.dev.disk s.vol.sb (Function.update f n s.inode))
    (hn : n.toNat < s.vol.sb.totalInodes.toNat) {i : Nat} (hi : i < s.inode.blockCount.toNat) :
    plainBlock s'.vol.dev.disk s'.vol.sb s'.inode i = plainBlock s.vol.dev.disk s.vol.sb s.inode i := by
  refine plainBlock_congr he.shape (by rw [he.fields]) (he.keeps i hi) (he.dev.disk _ ?_)
  have hz := h.not_growZone hn (mapped_mem_refs hn hi) (by simp)
  rwa [target_update_self] at hz

/-- 前からあったブロックは、追加の後も同じ所にある同じ内容である。 -/
theorem Ext.block_eq (he : Ext f n s s') (h : Sound s.vol.dev.disk s.vol.sb (Function.update f n s.inode))
    (hn : n.toNat < s.vol.sb.totalInodes.toNat) {i : Nat} (hi : i < s.inode.blockCount.toNat) :
    s'.vol.dev.disk (mapBlock s'.vol.dev.disk s'.inode i) = s.vol.dev.disk (mapBlock s.vol.dev.disk s.inode i) := by
  have hz := h.not_growZone hn (mapped_mem_refs hn hi) (by simp)
  rw [target_update_self] at hz
  rw [he.keeps i hi]
  exact he.dev.disk _ hz

theorem Ext.shrink (he : Ext f n s s') (h : Sound s.vol.dev.disk s.vol.sb (Function.update f n s.inode))
    (hn : n.toNat < s.vol.sb.totalInodes.toNat) :
    Sound s'.vol.dev.disk s'.vol.sb (Function.update f n s.inode) := by
  have hshaped := h.shaped_self hn
  have hkeep : s.inode.indirectBlock ≠ 0 → s'.inode.indirectBlock = s.inode.indirectBlock := by
    intro hz
    rcases he.indirect with hi | ⟨hi, _⟩
    · exact hi
    · exact absurd hi hz
  refine he.sound.replace hshaped (owns_shrink he.sound.owns fun r hr => ?_)
  cases r with
  | none => exact ⟨by change _ ≠ _; rw [hkeep hr]; exact hr, (hkeep hr).symm⟩
  | some i =>
      refine ⟨lt_of_lt_of_le hr he.count, ?_⟩
      change mapBlock _ _ i = mapBlock _ _ i
      by_cases h10 : i < 10
      · rw [he.keeps i hr]
        exact mapBlock_congr fun h => absurd h (by omega)
      · have hbig : 10 < s.inode.blockCount.toNat := by
          have : i < s.inode.blockCount.toNat := hr
          omega
        unfold mapBlock
        rw [if_neg h10, if_neg h10, hkeep (hshaped.indirect.mpr hbig)]

theorem ensureBlocks_spec (h : Sound s.vol.dev.disk s.vol.sb (Function.update f n s.inode))
    (hn : n.toNat < s.vol.sb.totalInodes.toNat) (lastBlock : UInt32) :
    wp (ensureBlocks lastBlock)
      (fun _ s' => Ext f n s s' ∧ lastBlock.toNat < s'.inode.blockCount.toNat)
      (fun _ s' => Ext f n s s') s := by
  unfold ensureBlocks
  simp only [wp_bind, wp_get]
  refine wp_loop (fun k _ s' => Ext f n s s' ∧ s'.inode.blockCount.toNat = s.inode.blockCount.toNat + k)
    ⟨Ext.ofRoom (Room.refl h) hn, rfl⟩ ?_ (fun _ s' hI => ⟨hI.1, by rw [hI.2]; omega⟩)
  rintro k _ s₁ hk ⟨he, hcount⟩
  have hn₁ : n.toNat < s₁.vol.sb.totalInodes.toNat := by rwa [he.shape.totalInodes]
  simp only [wp_bind, wp_get, wp_ite]
  refine ⟨fun _ => ?_, fun hgt => absurd (UInt32.le_iff_toNat_le.mpr (by omega)) hgt⟩
  refine (blockmapEnsure_spec hn₁ he.sound).mono ?_ (fun _ s₂ he' => he.trans he'.1)
  intro b s₂ hp
  exact ⟨he.trans hp.ext, by rw [hp.count, hcount]; omega⟩

end

/-! ## 操作の結果 -/

/-- スーパーブロックより後で、ボリュームの終わりより前のブロック。 -/
def Superblock.ownBlocks (sb : Superblock) : Set UInt32 :=
  { b | superblockBlock.toNat < b.toNat ∧ b.toNat < sb.totalBlocks.toNat }

theorem SameShape.ownBlocks {sb sb' : Superblock} (h : SameShape sb sb') : sb'.ownBlocks = sb.ownBlocks := by
  obtain ⟨a, b, rfl⟩ := h
  rfl

/-- 表を変えずに、データ領域とビットマップだけを書いた。 -/
structure Staged (v v' : Vol) : Prop where
  shape : SameShape v.sb v'.sb
  dev : v.dev.Evolves v.sb.ownBlocks v'.dev
  exact : FreeExact v.dev.disk v.sb → FreeExact v'.dev.disk v'.sb
  table : ∀ m : UInt32, m.toNat < v.sb.totalInodes.toNat →
    inodeAt v'.dev.disk v'.sb m = inodeAt v.dev.disk v.sb m

/-- 表の inode `n` を `p` とし、ほかの inode を `f` のまま保った。 -/
structure Settled (f : UInt32 → Inode) (n : UInt32) (v v' : Vol) (p : Inode) : Prop where
  sound : Sound v'.dev.disk v'.sb (Function.update f n p)
  shape : SameShape v.sb v'.sb
  dev : v.dev.Evolves v.sb.ownBlocks v'.dev
  exact : FreeExact v.dev.disk v.sb → FreeExact v'.dev.disk v'.sb
  table : ∀ m : UInt32, m.toNat < v.sb.totalInodes.toNat →
    inodeAt v'.dev.disk v'.sb m = if m = n then p else inodeAt v.dev.disk v.sb m
  others : Untouched f n v v'

instance : IsPreorder Vol Staged where
  refl v := ⟨refl_of SameShape v.sb, .refl _ _, fun he => he, fun _ _ => rfl⟩
  trans v v' v'' h h' := by
    refine ⟨trans_of SameShape h.shape h'.shape, h.dev.trans (h.shape.ownBlocks ▸ h'.dev), fun he =>
      h'.exact (h.exact he), ?_⟩
    intro m hm
    rw [h'.table m (by rwa [h.shape.totalInodes]), h.table m hm]

section

variable {f : UInt32 → Inode} {n : UInt32} {v v₁ v₂ : Vol} {p : Inode} {sb sb' : Superblock}

theorem toNat_superblockBlock : superblockBlock.toNat = 16 := rfl

/-- スーパーブロックより後のブロック。 -/
def innerBlocks : Set UInt32 := { b | superblockBlock.toNat < b.toNat }

theorem ne_superblock_of_inner {b : UInt32} (hb : b ∈ innerBlocks) : b ≠ superblockBlock := by
  rintro rfl
  exact absurd hb (Nat.lt_irrefl _)

theorem Layout.bitmap_inner (hl : Layout sb) {b : UInt32} (hb : b ∈ sb.bitmapRegion) : b ∈ innerBlocks :=
  lt_of_lt_of_le hl.bitmapAfter hb.1

theorem Layout.table_inner (hl : Layout sb) {b : UInt32} (hb : b ∈ sb.tableRegion) : b ∈ innerBlocks := by
  have := hl.bitmapAfter
  have := hl.tableAfter
  have := hb.1
  change superblockBlock.toNat < b.toNat
  rw [toNat_superblockBlock]
  omega

theorem Layout.data_inner (hl : Layout sb) {b : UInt32} (hb : sb.IsData b) : b ∈ innerBlocks := by
  have := hl.bitmapAfter
  have := hl.tableAfter
  have := hl.dataAfter
  have := hb.1
  change superblockBlock.toNat < b.toNat
  rw [toNat_superblockBlock]
  omega

theorem Layout.bitmap_own (hl : Layout sb) {b : UInt32} (hb : b ∈ sb.bitmapRegion) : b ∈ sb.ownBlocks := by
  have := hl.tableAfter
  have := hl.dataAfter
  have := hl.dataNonempty
  have := hb.2
  exact ⟨hl.bitmap_inner hb, by omega⟩

theorem Layout.table_own (hl : Layout sb) {b : UInt32} (hb : b ∈ sb.tableRegion) : b ∈ sb.ownBlocks := by
  have := hl.dataAfter
  have := hl.dataNonempty
  have := hb.2
  exact ⟨hl.table_inner hb, by omega⟩

theorem Layout.data_own (hl : Layout sb) {b : UInt32} (hb : sb.IsData b) : b ∈ sb.ownBlocks :=
  ⟨hl.data_inner hb, hb.2⟩

theorem Layout.bitmap_ne_superblock (hl : Layout sb) {b : UInt32} (hb : b ∈ sb.bitmapRegion) :
    b ≠ superblockBlock := ne_superblock_of_inner (hl.bitmap_inner hb)

theorem Layout.table_ne_superblock (hl : Layout sb) {b : UInt32} (hb : b ∈ sb.tableRegion) :
    b ≠ superblockBlock := ne_superblock_of_inner (hl.table_inner hb)

theorem Layout.data_ne_superblock (hl : Layout sb) {b : UInt32} (hb : sb.IsData b) : b ≠ superblockBlock :=
  ne_superblock_of_inner (hl.data_inner hb)

theorem SameShape.inodeAt {disk : Disk} (h : SameShape sb sb') {m : UInt32} :
    inodeAt disk sb' m = inodeAt disk sb m := by
  obtain ⟨a, b, rfl⟩ := h
  rfl

theorem SameShape.tableRegion (h : SameShape sb sb') : sb'.tableRegion = sb.tableRegion := by
  obtain ⟨a, b, rfl⟩ := h
  rfl

/-- ビットマップとデータ領域だけを書いたときは、表は変わらない。 -/
theorem inodeAt_of_evolves {S : Set UInt32} (hl : Layout v.sb) (hsb : SameShape v.sb v₁.sb)
    (hd : v.dev.Evolves S v₁.dev) (hS : ∀ b ∈ v.sb.tableRegion, b ∉ S) {m : UInt32}
    (hm : m.toNat < v.sb.totalInodes.toNat) :
    inodeAt v₁.dev.disk v₁.sb m = inodeAt v.dev.disk v.sb m := by
  rw [hsb.inodeAt]
  exact inodeAt_congr hl (fun b hb => hd.disk b (hS b hb)) hm

theorem Staged.settled (h : Staged v v₁) (hs : Sound v₁.dev.disk v₁.sb (Function.update f n p))
    (hp : inodeAt v.dev.disk v.sb n = p) (ho : Untouched f n v v₁) : Settled f n v v₁ p := by
  refine ⟨hs, h.shape, h.dev, h.exact, fun m hm => ?_, ho⟩
  rw [h.table m hm]
  split
  · rename_i hmn
    rw [hmn, hp]
  · rfl

theorem Staged.still (h : Staged v v₁) (hs : Still v₁ v₂) : Staged v v₂ := by
  obtain ⟨c, rfl⟩ := hs
  exact ⟨h.shape, h.dev.trans .atClock, h.exact, h.table⟩

theorem Staged.ofData {S : Set UInt32} (hl : Layout v.sb) (hsb : v₁.sb = v.sb) (hd : v.dev.Evolves S v₁.dev)
    (hS : ∀ b ∈ S, v.sb.IsData b) : Staged v v₁ := by
  have hbit : ∀ b ∈ v.sb.bitmapRegion, v₁.dev.disk b = v.dev.disk b :=
    fun b hb => hd.disk b fun hs => hl.data_not_bitmap (hS b hs) hb
  refine ⟨?_, hd.mono fun b hb => hl.data_own (hS b hb), fun he => ?_, fun m hm => ?_⟩
  · rw [hsb]
    exact refl_of SameShape v.sb
  · rw [hsb]
    exact he.trans (freeCount_congr hl hbit).symm
  · rw [hsb]
    exact inodeAt_congr hl (fun b hb => hd.disk b fun hs => hl.data_not_table (hS b hs) hb) hm

theorem Sound.growZone_own {s : FileState} (h : Sound s.vol.dev.disk s.vol.sb (Function.update f n s.inode))
    (hn : n.toNat < s.vol.sb.totalInodes.toNat) : growZone s ⊆ s.vol.sb.ownBlocks := by
  rintro b ((hb | hb) | ⟨hz, rfl⟩)
  · exact h.layout.bitmap_own hb
  · exact h.layout.data_own hb.1
  · have hd := h.isData (x := (n, none)) (mem_refs_update_self.mpr ⟨hn, hz⟩)
    rw [target_update_self] at hd
    exact h.layout.data_own hd

theorem Sound.growZone_not_table {s : FileState}
    (h : Sound s.vol.dev.disk s.vol.sb (Function.update f n s.inode))
    (hn : n.toNat < s.vol.sb.totalInodes.toNat) : ∀ b ∈ s.vol.sb.tableRegion, b ∉ growZone s := by
  rintro b hb ((hb' | hb') | ⟨hz, rfl⟩)
  · exact h.layout.table_not_bitmap hb hb'
  · exact h.layout.data_not_table hb'.1 hb
  · have hd := h.isData (x := (n, none)) (mem_refs_update_self.mpr ⟨hn, hz⟩)
    rw [target_update_self] at hd
    exact h.layout.data_not_table hd hb

theorem Room.staged {f : UInt32 → Inode} {v v' : Vol} (h : Room f v v') : Staged v v' := by
  have hl := h.base.layout
  refine ⟨h.shape, h.dev.mono ?_, h.exact, fun m hm => inodeAt_of_evolves hl h.shape h.dev ?_ hm⟩
  · rintro b (hb | hb)
    · exact hl.bitmap_own hb
    · exact hl.data_own hb.1
  · rintro b ht (hb | hb)
    · exact hl.table_not_bitmap ht hb
    · exact hl.data_not_table hb.1 ht

theorem Ext.staged {s s' : FileState} (he : Ext f n s s')
    (h : Sound s.vol.dev.disk s.vol.sb (Function.update f n s.inode))
    (hn : n.toNat < s.vol.sb.totalInodes.toNat) : Staged s.vol s'.vol :=
  ⟨he.shape, he.dev.mono (h.growZone_own hn), he.exact, fun _ hm =>
    inodeAt_of_evolves h.layout he.shape he.dev (h.growZone_not_table hn) hm⟩

theorem Ext.settled {s s' : FileState} (he : Ext f n s s')
    (h : Sound s.vol.dev.disk s.vol.sb (Function.update f n s.inode))
    (hn : n.toNat < s.vol.sb.totalInodes.toNat)
    (hp : inodeAt s.vol.dev.disk s.vol.sb n = s.inode) : Settled f n s.vol s'.vol s.inode :=
  (he.staged h hn).settled (he.shrink h hn) hp (he.untouched h hn)

/-- 表に inode を書いても、データ領域とビットマップは変わらない。 -/
theorem Recorded.settled {q ino : Inode} (hr : Recorded v₁ v₂ n q) (h : Staged v v₁)
    (hq : Sound v₁.dev.disk v₁.sb (Function.update f n q))
    (hv : Sound v.dev.disk v.sb (Function.update f n ino)) (ho : Untouched f n v v₁) : Settled f n v v₂ q := by
  have hl := hq.layout
  have hbit : ∀ b ∈ v₁.sb.bitmapRegion, v₂.dev.disk b = v₁.dev.disk b :=
    fun b hb => hr.dev.disk b fun ht => hl.table_not_bitmap ht hb
  refine ⟨?_, ?_, h.dev.trans (hr.dev.mono fun b hb => h.shape.ownBlocks ▸ hl.table_own hb), fun he =>
    ?_, fun m hm => ?_,
    ho.trans (untouched_of_update q fun x hx _ => hr.dev.disk _ fun ht => ?_) hv h.shape⟩
  · rw [hr.sb]
    refine hq.congr hbit fun m hm hbc => hr.dev.disk _ fun ht => ?_
    exact hl.data_not_table (hq.isData (hq.indirect_live hm hbc)) ht
  · rw [hr.sb]
    exact h.shape
  · rw [hr.sb]
    exact (h.exact he).trans (freeCount_congr hl hbit).symm
  · rw [hr.sb, hr.table m (by rwa [h.shape.totalInodes]), h.table m hm]
  · exact hl.data_not_table (hq.isData hx) ht

/-- 表に inode を書いても、ファイルの内容は変わらない。 -/
theorem Recorded.content_eq {q : Inode} (hr : Recorded v v₁ n q) {g : UInt32 → Inode} {m : UInt32}
    (h : Sound v.dev.disk v.sb g) (hm : m.toNat < v.sb.totalInodes.toNat) :
    fileContent v₁.dev.disk v₁.sb (g m) = fileContent v.dev.disk v.sb (g m) := by
  rw [hr.sb]
  exact h.content_congr (refl_of SameShape v.sb) hm fun x hx _ =>
    hr.dev.disk _ fun ht => h.layout.data_not_table (h.isData hx) ht

end

/-! ## 書き込みの全体 -/

/-- ブロックの対応と暗号化の有無が同じ inode。 -/
structure SameMap (ino ino' : Inode) : Prop where
  blockCount : ino'.blockCount = ino.blockCount
  directBlocks : ino'.directBlocks = ino.directBlocks
  indirectBlock : ino'.indirectBlock = ino.indirectBlock
  securityFlags : ino'.securityFlags = ino.securityFlags

/-- 書いた終わりまで大きさを伸ばした inode。 -/
def Inode.resized (ino : Inode) (fin : UInt32) : Inode :=
  if fin > ino.sizeBytes then { ino with sizeBytes := fin } else ino

section

variable {f : UInt32 → Inode} {n : UInt32} {ino ino' : Inode} {disk : Disk} {sb : Superblock} {fin : UInt32}

theorem SameMap.mapBlock_eq (h : SameMap ino ino') (i : Nat) : mapBlock disk ino' i = mapBlock disk ino i := by
  unfold mapBlock
  rw [h.directBlocks, h.indirectBlock]

theorem sameMap_resized (ino : Inode) (fin : UInt32) : SameMap ino (ino.resized fin).sealed := by
  unfold Inode.resized
  split <;> exact ⟨rfl, rfl, rfl, rfl⟩

theorem toNat_sizeBytes_resized (ino : Inode) (fin : UInt32) :
    (ino.resized fin).sealed.sizeBytes.toNat = max ino.sizeBytes.toNat fin.toNat := by
  unfold Inode.resized
  split
  · rename_i h
    have := UInt32.lt_iff_toNat_lt.mp h
    change fin.toNat = _
    omega
  · rename_i h
    have := UInt32.le_iff_toNat_le.mp (UInt32.not_lt.mp h)
    change ino.sizeBytes.toNat = _
    omega

theorem resized_fields : (ino.resized fin).sealed =
    { ino with
      sizeBytes := (ino.resized fin).sealed.sizeBytes
      checksum := (ino.resized fin).sealed.checksum } := by
  unfold Inode.resized
  split <;> rfl

theorem Sound.remap (h : Sound disk sb (Function.update f n ino)) (ino' : Inode) (hn : n.toNat < sb.totalInodes.toNat)
    (hmap : SameMap ino ino') (hsize : ino'.sizeBytes.toNat ≤ ino.blockCount.toNat * 4096) :
    Sound disk sb (Function.update f n ino') := by
  have hshaped := h.shaped_self hn
  refine h.replace ⟨?_, ?_, ?_⟩ (owns_shrink h.owns fun r hr => ?_)
  · rw [hmap.blockCount]
    exact hshaped.blocks
  · rw [hmap.blockCount]
    exact hsize
  · rw [hmap.blockCount, hmap.indirectBlock]
    exact hshaped.indirect
  · cases r with
    | none => exact ⟨by change _ ≠ _; rw [← hmap.indirectBlock]; exact hr, hmap.indirectBlock⟩
    | some i => exact ⟨by change i < _; rw [← hmap.blockCount]; exact hr, hmap.mapBlock_eq i⟩

end

/-- 書き込みの結果。`data` は実際に書いたバイトである。 -/
structure Overwritten (f : UInt32 → Inode) (n : UInt32) (s s' : FileState) (offset : Nat) (data : List UInt8) :
    Prop where
  settled : Settled f n s.vol s'.vol s'.inode
  fields : s'.inode =
    { s.inode with
      sizeBytes := s'.inode.sizeBytes
      blockCount := s'.inode.blockCount
      directBlocks := s'.inode.directBlocks
      indirectBlock := s'.inode.indirectBlock
      checksum := s'.inode.checksum }
  verified : inodeVerifyChecksum s.inode = true → inodeVerifyChecksum s'.inode = true
  size : offset ≤ s.inode.sizeBytes.toNat →
    s'.inode.sizeBytes.toNat = max s.inode.sizeBytes.toNat (offset + data.length)
  content : offset ≤ s.inode.sizeBytes.toNat →
    fileContent s'.vol.dev.disk s'.vol.sb s'.inode =
      splice (fileContent s.vol.dev.disk s.vol.sb s.inode) offset data

section

variable {f : UInt32 → Inode} {n : UInt32} {s s₁ s' : FileState} {v₂ : Vol} {offset w : UInt32} {data : List UInt8}

theorem Overwritten.entryType_eq {lo : Nat} (h : Overwritten f n s s' lo data) :
    s'.inode.entryType = s.inode.entryType := by rw [h.fields]

theorem Overwritten.none (h : Settled f n s.vol s.vol s.inode) : Overwritten f n s s offset.toNat [] := by
  refine ⟨h, rfl, fun hv => hv, fun hoff => ?_, fun _ => ?_⟩
  · rw [List.length_nil, Nat.add_zero, max_eq_left hoff]
  · unfold splice
    rw [List.append_nil, List.length_nil, Nat.add_zero, List.take_append_drop]

theorem Wrote.untouched {ino : Inode} {v v₁ : Vol} {lo : Nat} (hw : Wrote ino v v₁ lo data)
    (h : Sound v.dev.disk v.sb (Function.update f n ino)) (hn : n.toNat < v.sb.totalInodes.toNat) :
    Untouched f n v v₁ := by
  refine untouched_of_update ino fun x hx hxn => hw.dev.disk _ ?_
  rintro ⟨i, hi, he⟩
  have hne := h.owns.ne hx (mapped_mem_refs hn hi) (by rintro rfl; exact hxn rfl)
  rw [target_update_self] at hne
  exact hne he

theorem Wrote.staged {ino : Inode} {v v₁ : Vol} {lo : Nat} (hw : Wrote ino v v₁ lo data)
    (h : Sound v.dev.disk v.sb (Function.update f n ino)) (hn : n.toNat < v.sb.totalInodes.toNat) :
    Staged v v₁ := by
  refine .ofData h.layout hw.sb hw.dev ?_
  rintro b ⟨i, hi, rfl⟩
  exact h.mapBlock_isData hn hi

/-- データを書いた後も、加えたブロックを忘れればもとの inode に戻る。 -/
theorem Wrote.settled (hw : Wrote s₁.inode s₁.vol v₂ offset.toNat data) (he : Ext f n s s₁)
    (h : Sound s.vol.dev.disk s.vol.sb (Function.update f n s.inode))
    (hn : n.toNat < s.vol.sb.totalInodes.toNat)
    (hp : inodeAt s.vol.dev.disk s.vol.sb n = s.inode) : Settled f n s.vol v₂ s.inode := by
  have hn₁ : n.toNat < s₁.vol.sb.totalInodes.toNat := by rwa [he.shape.totalInodes]
  have hold := he.shrink h hn
  refine (trans_of Staged (he.staged h hn) (hw.staged he.sound hn₁)).settled ?_ hp
    ((he.untouched h hn).trans (hw.untouched he.sound hn₁) h he.shape)
  rw [hw.sb]
  refine hold.congr (fun b hb => hw.dev.disk b ?_) (fun m hm hbc => hw.dev.disk _ ?_)
  · rintro ⟨i, hi, rfl⟩
    exact hold.layout.data_not_bitmap (he.sound.mapBlock_isData hn₁ hi) hb
  · rintro ⟨i, hi, hmap⟩
    -- もとの inode の間接ブロックは、伸ばした後も間接ブロックである。
    have hlive : (m, none) ∈ refs s₁.vol.sb (Function.update f n s₁.inode) ∧
        (Function.update f n s.inode m).indirectBlock = (Function.update f n s₁.inode m).indirectBlock := by
      have hlive := hold.indirect_live hm hbc
      by_cases hmn : m = n
      · subst hmn
        rw [mem_refs_update_self] at hlive ⊢
        rw [Function.update_self, Function.update_self]
        rcases he.indirect with hi' | ⟨hi', _⟩
        · exact ⟨⟨hlive.1, by change _ ≠ _; rw [hi']; exact hlive.2⟩, hi'.symm⟩
        · exact absurd hi' hlive.2
      · rw [mem_refs_update_other hmn] at hlive ⊢
        rw [Function.update_of_ne hmn, Function.update_of_ne hmn]
        exact ⟨hlive, rfl⟩
    rw [hlive.2] at hmap
    exact he.sound.mapped_ne_indirect hn₁ hi hlive.1 hmap

/-- 書いた後の記録が表すファイルの内容は、書いたブロックの並びである。 -/
theorem Wrote.recorded_content {v₃ : Vol} (hw : Wrote s₁.inode s₁.vol v₂ offset.toNat data) (he : Ext f n s s₁)
    (hn : n.toNat < s.vol.sb.totalInodes.toNat) (hfin : (offset + w).toNat = offset.toNat + w.toNat)
    (hfit : offset.toNat + w.toNat ≤ s₁.inode.blockCount.toNat * 4096)
    (hr : Recorded v₂ v₃ n (s₁.inode.resized (offset + w)).sealed) :
    fileContent v₃.dev.disk v₃.sb (s₁.inode.resized (offset + w)).sealed =
      pages (plainBlock v₂.dev.disk s₁.vol.sb s₁.inode) s₁.inode.blockCount.toNat
        (max s.inode.sizeBytes.toNat (offset.toNat + w.toNat)) := by
  have hn₁ : n.toNat < s₁.vol.sb.totalInodes.toNat := by rwa [he.shape.totalInodes]
  have hn₂ : n.toNat < v₂.sb.totalInodes.toNat := by rwa [hw.sb]
  have hmap := sameMap_resized s₁.inode (offset + w)
  have hsize := toNat_sizeBytes_resized s₁.inode (offset + w)
  have hsame : s₁.inode.sizeBytes = s.inode.sizeBytes := by rw [he.fields]
  have hsound : Sound v₂.dev.disk v₂.sb (Function.update f n (s₁.inode.resized (offset + w)).sealed) := by
    refine (hw.sound he.sound hn₁).remap _ hn₂ hmap ?_
    rw [hsize, hfin]
    exact max_le (he.sound.shaped_self hn₁).size hfit
  have hc := hr.content_eq hsound hn₂
  rw [Function.update_self] at hc
  rw [hc]
  unfold fileContent
  rw [hsize, hfin, hsame, hmap.blockCount, hw.sb]
  exact pages_congr fun i _ => plainBlock_congr (refl_of SameShape _) hmap.securityFlags (hmap.mapBlock_eq _) rfl

/-- 用意したブロックにデータを書き、大きさを直した inode を記録した後。 -/
theorem Wrote.overwritten {v₃ : Vol} (hw : Wrote s₁.inode s₁.vol v₂ offset.toNat data) (he : Ext f n s s₁)
    (h : Sound s.vol.dev.disk s.vol.sb (Function.update f n s.inode))
    (hn : n.toNat < s.vol.sb.totalInodes.toNat) (hlen : data.length = w.toNat)
    (hfin : (offset + w).toNat = offset.toNat + w.toNat)
    (hfit : offset.toNat + w.toNat ≤ s₁.inode.blockCount.toNat * 4096)
    (hr : Recorded v₂ v₃ n (s₁.inode.resized (offset + w)).sealed) :
    Overwritten f n s ⟨v₃, (s₁.inode.resized (offset + w)).sealed⟩ offset.toNat data := by
  have hn₁ : n.toNat < s₁.vol.sb.totalInodes.toNat := by rwa [he.shape.totalInodes]
  have hn₂ : n.toNat < v₂.sb.totalInodes.toNat := by rwa [hw.sb]
  have hold := trans_of Staged (he.staged h hn) (hw.staged he.sound hn₁)
  have hmap := sameMap_resized s₁.inode (offset + w)
  have hsize := toNat_sizeBytes_resized s₁.inode (offset + w)
  have hsame : s₁.inode.sizeBytes = s.inode.sizeBytes := by rw [he.fields]
  have hshaped := h.shaped_self hn
  have hshaped₁ := he.sound.shaped_self hn₁
  have hsound : Sound v₂.dev.disk v₂.sb (Function.update f n (s₁.inode.resized (offset + w)).sealed) := by
    refine (hw.sound he.sound hn₁).remap _ hn₂ hmap ?_
    rw [hsize, hfin]
    exact max_le hshaped₁.size hfit
  have hothers := (he.untouched h hn).trans (hw.untouched he.sound hn₁) h he.shape
  refine ⟨hr.settled hold hsound h hothers, ?_, fun _ => verify_sealed _, fun _ => ?_, fun hoff => ?_⟩
  · rw [resized_fields, he.fields]
  · rw [hsize, hfin, hsame, hlen]
  · rw [hw.recorded_content he hn hfin hfit hr, ← hlen]
    rw [← hlen] at hfit
    refine pages_splice (by decide) hshaped.size ?_ hoff fun p hp => ?_
    · rw [← hsame]
      exact max_le hshaped₁.size hfit
    · have hpmax : p < s₁.inode.blockCount.toNat * 4096 := by
        have := hshaped₁.size
        rw [hsame] at this
        omega
      rw [hw.bytes p hpmax]
      split
      · rfl
      · -- 書いた範囲の外は、前からの大きさの中にある。
        have hi : p / 4096 < s.inode.blockCount.toNat :=
          Nat.div_lt_of_lt_mul (by have := hshaped.size; omega)
        unfold paged
        rw [he.plainBlock_eq h hn hi]

/-- 書き込みは、返した数のバイトだけを重ね書きする。誤りを返したときは、表の inode は前のままである。 -/
theorem fileWrite_spec (h : Sound s.vol.dev.disk s.vol.sb (Function.update f n s.inode))
    (hn : n.toNat < s.vol.sb.totalInodes.toNat) (hp : inodeAt s.vol.dev.disk s.vol.sb n = s.inode)
    (who : OwIdentity) {buf : List UInt8} {len : UInt32} (hbuf : len.toNat ≤ buf.length) :
    wp (fileWrite who n buf offset len)
      (fun w s' => s.inode.entryType &&& entryFile ≠ 0 ∧ w.toNat ≤ len.toNat ∧
        Overwritten f n s s' offset.toNat (buf.take w.toNat))
      (fun _ s' => Settled f n s.vol s'.vol s.inode ∨ Overwritten f n s s' offset.toNat []) s := by
  have hrefl := (refl_of Staged s.vol).settled h hp fun _ _ _ => rfl
  unfold fileWrite
  simp only [wp_bind, wp_get, wp_failIf, wp_ite, wp_ofExcept]
  refine ⟨fun _ => .inl hrefl, fun htype => ⟨fun _ => ⟨htype, by simp, .none hrefl⟩, fun hlen => ⟨fun _ _ => ?_,
    fun _ _ => .inl hrefl⟩⟩⟩
  refine ⟨fun _ => .inl hrefl, fun _ => ⟨fun _ _ => ⟨fun _ => .inl hrefl, fun hmax =>
    ⟨fun _ => .inl hrefl, fun _ => ?_⟩⟩, fun _ _ => .inl hrefl⟩⟩
  have hlen' : len.toNat ≠ 0 := fun hz => hlen (UInt32.toNat_inj.mp hz)
  have hsum : (offset + len).toNat = offset.toNat + len.toNat := toNat_add_lt (by omega)
  have hlast : ((offset + len - 1) >>> 12).toNat = (offset.toNat + len.toNat - 1) / 4096 := by
    rw [toNat_shiftRight_twelve, toNat_sub_le (by rw [hsum]; change 1 ≤ _; omega), hsum]
    rfl
  refine (ensureBlocks_spec h hn _).mono ?_ (fun _ s₁ he => .inl (he.settled h hn hp))
  rintro _ s₁ ⟨he, hcount⟩
  have hn₁ : n.toNat < s₁.vol.sb.totalInodes.toNat := by rwa [he.shape.totalInodes]
  have hend : offset.toNat + len.toNat ≤ s₁.inode.blockCount.toNat * 4096 := by
    rw [hlast] at hcount
    omega
  rw [wp_onVol]
  refine (writeLoop_spec he.sound hn₁ hbuf hend).mono ?_ (fun _ _ hf => hf.elim)
  rintro ⟨w, failure⟩ v₂ ⟨hle, _, hw, _⟩
  simp only at hle hw
  have hdata : (buf.take w.toNat).length = w.toNat := by
    rw [List.length_take]
    omega
  have hold := hw.settled he h hn hp
  rw [wp_modifyInode]
  refine (inodeWrite_spec hold.sound.layout n).mono ?_ ?_
  · rintro _ ⟨v₃, ino⟩ ⟨hino, hr⟩
    obtain rfl : ino = (s₁.inode.resized (offset + w)).sealed := hino
    have hover := hw.overwritten he h hn hdata (toNat_add_lt (by omega)) (by omega) hr
    cases failure with
    | none => exact ⟨htype, hle, hover⟩
    | some e =>
        rw [wp_ite]
        refine ⟨fun hz => .inr ?_, fun _ => ⟨htype, hle, hover⟩⟩
        obtain rfl : w = 0 := hz
        exact hover
  · rintro _ s₃ ⟨⟨c, hc⟩, _⟩
    rw [hc]
    exact .inl ⟨hold.sound, hold.shape, hold.dev.trans .atClock, hold.exact, hold.table, hold.others⟩

end

/-! ## 切り詰め -/

theorem toNat_blocksFor (size : UInt32) : (blocksFor size).toNat = (size.toNat + 4095) / 4096 := by
  have hoff := toNat_and_4095 size
  have hdiv := toNat_shiftRight_twelve size
  have := size.toNat_lt
  unfold blocksFor
  split
  · rename_i hne
    have hz : size.toNat % 4096 ≠ 0 := by
      rw [← hoff]
      exact fun h => hne (UInt32.toNat_inj.mp h)
    rw [toNat_add_one_lt (by omega), hdiv]
    omega
  · rename_i he
    have hz : size.toNat % 4096 = 0 := by
      rw [← hoff, not_not.mp he]
      rfl
    rw [hdiv]
    omega

section

variable {f : UInt32 → Inode} {n : UInt32} {s s' : FileState} {k : Nat}

/-- 失敗のない書き込みのできるボリュームでは、inode の記録は必ず成功する。 -/
theorem Staged.record {v : Vol} {ino : Inode} (h : Staged v s.vol) (hn : n.toNat < v.sb.totalInodes.toNat)
    (hf : v.dev.FaultFree) (hs : Serves v.dev.toHtlConfig v.sb) (hw : volumeWritable v.sb = .ok ())
    (hq : Sound s.vol.dev.disk s.vol.sb (Function.update f n s.inode.sealed))
    (hv : Sound v.dev.disk v.sb (Function.update f n ino)) (ho : Untouched f n v s.vol) :
    wp (inodeWrite n) (fun _ s' => s'.inode = s.inode.sealed ∧ Settled f n v s'.vol s.inode.sealed)
      (fun _ _ => False) s := by
  have hn' : n.toNat < s.vol.sb.totalInodes.toNat := by rwa [h.shape.totalInodes]
  have hw' : volumeWritable s.vol.sb = .ok () := by rwa [h.shape.volumeWritable]
  have hs' : Serves s.vol.dev.toHtlConfig s.vol.sb := by
    rw [h.dev.config]
    exact h.shape.serves hs
  refine (inodeWrite_spec hq.layout n).mono ?_ ?_
  · rintro _ s' ⟨hino, hrec⟩
    exact ⟨hino, hrec.settled h hq hv ho⟩
  · rintro _ s' ⟨_, hno⟩
    exact hno ⟨h.dev.faultFree hf, hs'⟩ ⟨hn', hw'⟩

theorem Released.refl (h : Sound s.vol.dev.disk s.vol.sb (Function.update f n s.inode))
    (hn : n.toNat < s.vol.sb.totalInodes.toNat) {lo : Nat} (hle : s.inode.blockCount.toNat ≤ lo) :
    Released f n s s lo :=
  ⟨refl_of SameShape s.vol.sb, .refl _ _, fun he => he, rfl, (min_eq_right hle).symm, (h.shaped_self hn).indirect,
    h.owns, .refl⟩

theorem Released.staged (hr : Released f n s s' k) (hl : Layout s.vol.sb) : Staged s.vol s'.vol :=
  ⟨hr.shape, hr.dev.mono fun _ hb => hl.bitmap_own hb, hr.exact, fun _ hm =>
    inodeAt_of_evolves hl hr.shape hr.dev (fun _ hb => hl.table_not_bitmap hb) hm⟩

theorem Released.untouched (hr : Released f n s s' k)
    (h : Sound s.vol.dev.disk s.vol.sb (Function.update f n s.inode)) : Untouched f n s.vol s'.vol :=
  untouched_of_update _ fun _ hx _ => hr.dev.disk _ (h.layout.data_not_bitmap (h.isData hx))

/-- 残したブロックに収まる大きさの inode とすれば、所有の関係が成り立つ。 -/
theorem Released.sound (hr : Released f n s s' k)
    (h : Sound s.vol.dev.disk s.vol.sb (Function.update f n s.inode))
    (hn : n.toNat < s.vol.sb.totalInodes.toNat) (ino : Inode) (hmap : SameMap s'.inode ino)
    (hsize : ino.sizeBytes.toNat ≤ s'.inode.blockCount.toNat * 4096) :
    Sound s'.vol.dev.disk s'.vol.sb (Function.update f n ino) := by
  have hblocks := (h.shaped_self hn).blocks
  refine (h.sameShape hr.shape).replace ⟨?_, ?_, ?_⟩ (owns_shrink hr.owns fun r hx => ?_)
  · rw [hmap.blockCount, hr.count]
    exact (min_le_right _ _).trans hblocks
  · rw [hmap.blockCount]
    exact hsize
  · rw [hmap.blockCount, hmap.indirectBlock]
    exact hr.indirect
  · cases r with
    | none => exact ⟨by change _ ≠ _; rw [← hmap.indirectBlock]; exact hx, hmap.indirectBlock⟩
    | some i => exact ⟨by change i < _; rw [← hmap.blockCount]; exact hx, hmap.mapBlock_eq i⟩

/-- 切り詰めは、失敗のない装置では、何も変えずに断るか、切った大きさを記録する。 -/
theorem fileTruncate_spec (h : Sound s.vol.dev.disk s.vol.sb (Function.update f n s.inode))
    (hn : n.toNat < s.vol.sb.totalInodes.toNat) (hp : inodeAt s.vol.dev.disk s.vol.sb n = s.inode)
    (hf : s.vol.dev.FaultFree) (hs : Serves s.vol.dev.toHtlConfig s.vol.sb) (who : OwIdentity)
    (newSize : UInt32) :
    wp (fileTruncate who n newSize)
      (fun _ s' => Settled f n s.vol s'.vol s'.inode ∧ s'.inode.entryType = s.inode.entryType ∧
        (inodeVerifyChecksum s.inode = true → inodeVerifyChecksum s'.inode = true))
      (fun _ s' => s' = s) s := by
  have hshaped := h.shaped_self hn
  have hrefl := (refl_of Staged s.vol).settled h hp fun _ _ _ => rfl
  unfold fileTruncate
  simp only [wp_bind, wp_get, wp_failIf, wp_ite, wp_ofExcept, wp_whenever]
  refine ⟨fun _ => trivial, fun _ => ⟨fun _ hwritable => ?_, fun _ _ => trivial⟩⟩
  refine ⟨fun _ => trivial, fun _ => ⟨fun _ _ => ⟨fun _ => ⟨hrefl, rfl, fun hv => hv⟩, fun hlt => ?_⟩,
    fun _ _ => trivial⟩⟩
  refine ⟨fun _ => trivial, fun _ => ?_⟩
  have hsize : newSize.toNat < s.inode.sizeBytes.toNat := by
    rw [ge_iff_le, UInt32.not_le] at hlt
    exact UInt32.lt_iff_toNat_lt.mp hlt
  have hneed := toNat_blocksFor newSize
  -- 解放した場合もしない場合も、残したブロックに新しい大きさが収まる。
  have hrecord : ∀ s₁ k, Released f n s s₁ k → newSize.toNat ≤ s₁.inode.blockCount.toNat * 4096 →
      wp (inodeWrite n)
        (fun _ s' => Settled f n s.vol s'.vol s'.inode ∧ s'.inode.entryType = s.inode.entryType ∧
          (inodeVerifyChecksum s.inode = true → inodeVerifyChecksum s'.inode = true))
        (fun _ s' => s' = s) { s₁ with inode := { s₁.inode with sizeBytes := newSize } } := by
    intro s₁ k hr hfit
    refine ((hr.staged h.layout).record (s := { s₁ with inode := { s₁.inode with sizeBytes := newSize } })
      hn hf hs hwritable (hr.sound h hn _ ⟨rfl, rfl, rfl, rfl⟩ hfit) h (hr.untouched h)).mono ?_
      (fun _ _ hno => hno.elim)
    rintro _ ⟨v₂, ino⟩ ⟨hino, hset⟩
    obtain rfl : ino = ({ s₁.inode with sizeBytes := newSize } : Inode).sealed := hino
    refine ⟨hset, ?_, fun _ => verify_sealed _⟩
    change s₁.inode.entryType = s.inode.entryType
    rw [hr.fields]
  refine ⟨fun hcut => ?_, fun hkeep => ?_⟩
  · refine (blockmapRelease_spec h hn hf hs _).mono ?_ (fun _ _ he => absurd hwritable he.2)
    intro _ s₁ hr
    rw [UInt32.lt_iff_toNat_lt] at hcut
    exact hrecord s₁ _ hr (by rw [hr.count, min_eq_left hcut.le, hneed]; omega)
  · exact hrecord s _ (.refl h hn le_rfl) (hsize.le.trans hshaped.size)

end

/-! ## 断られる操作 -/

/-- 主体 `who` がその inode に書き込むことを、旗か権限が許さない。 -/
def Fenced (who : OwIdentity) (ino : Inode) : Prop :=
  ino.securityFlags.toUInt32 &&& secReadonly ≠ 0 ∨ inodeAccessCheck who ino accessWrite ≠ .ok ()

section

variable {who : OwIdentity} {α : Type}

theorem Fenced.idle {σ : Type} {ino : Inode} (h : Fenced who ino) (g : Unit → Prog σ OwfsErr α) (s : σ) :
    Idle (Prog.failIf (ino.securityFlags.toUInt32 &&& secReadonly ≠ 0) .writeProtected >>= fun _ =>
      Prog.ofExcept (inodeAccessCheck who ino accessWrite) >>= g) s := by
  rcases h with h | h
  · exact .stopped h
  · exact .failIf_bind (.refused fun _ => h)

theorem Fenced.idle_fileWrite {s : FileState} (h : Fenced who s.inode) (n : UInt32) (buf : List UInt8)
    (offset len : UInt32) : Idle (fileWrite who n buf offset len) s :=
  .get_bind (.failIf_bind (.ite (.pure 0) (.ofExcept_bind fun _ => h.idle _ s)))

theorem Fenced.idle_fileTruncate {s : FileState} (h : Fenced who s.inode) (n newSize : UInt32) :
    Idle (fileTruncate who n newSize) s :=
  .get_bind (.failIf_bind (.ofExcept_bind fun _ => h.idle _ s))

end

end OwStorage.Owfs
