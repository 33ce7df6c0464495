import OwStorage.Usfs.Theorems.ReadBack
import OwStorage.Usfs.Theorems.GrowthSpace

/-!
# 重ね書き

書き込みは、ファイルの大きさを、書いた範囲の終わりに置き直す。書いた範囲が前の終わりまで届かなければ、残りの内容が失われる。
並びを移し替えるときは、ビットマップに書くブロックが、写す元と先のデータに重ならないことが要る。
-/

namespace OwStorage.Usfs

open Lib Prog

/-- 前の内容に `buf` の先頭の `len` バイトを重ねた内容になり、大きさは縮まない。 -/
structure Overwritten (v v' : Vol) (idx : UInt32) (buf : List UInt8) (offset len : UInt32) : Prop where
  content : fileContent v'.dev.disk v'.sb ((viewOf v').table idx) =
    splice (fileContent v.dev.disk v.sb ((viewOf v).table idx)) offset.toNat (buf.take len.toNat)
  size : ((viewOf v').table idx).sizeBytes.toNat =
    max ((viewOf v).table idx).sizeBytes.toNat (offset.toNat + len.toNat)

/-- 並びを用意しても、前の並びの内容は変わらない。 -/
structure Carried (s s₁ : EntryState) (need : UInt32) : Prop where
  setup : SameSetup s.vol s₁.vol
  houses : s₁.vol.sb.Houses s₁.entry
  enough : need.toNat ≤ s₁.entry.blockCount.toNat
  content : ∀ j < s.entry.blockCount.toNat,
    plainBlock s₁.vol.dev.disk s₁.vol.sb s₁.entry j = plainBlock s.vol.dev.disk s.vol.sb s.entry j

/-! ## 並びの移し替え -/

/-- 空きの番号 `s` への移し替えで書くビットマップのブロックが、写す元にも、写した先にもない。 -/
structure Sheltered (v : Vol) (e : Entry) (need : UInt32) (s : Nat) : Prop where
  source : ∀ b ∈ v.sb.bitBlocks s need.toNat, b ∉ e.run
  target : ∀ b ∈ v.sb.bitBlocks (v.sb.relOf e.firstBlock) e.blockCount.toNat,
    b ∉ (e.moved (v.sb.dataRegionStart + UInt32.ofNat s) e.blockCount).run

/-- 移し替えの先になる最も前の空きについて、そうである。 -/
def Relocatable (v : Vol) (e : Entry) (need : UInt32) : Prop :=
  ∀ s, FirstFit (bitOf v.dev.disk v.sb) v.sb.dataCount need.toNat s → Sheltered v e need s

/-- 時計は移し替えの先を変えない。 -/
theorem Relocatable.atClock {v : Vol} {e : Entry} {need : UInt32} (h : Relocatable v e need) (c : Nat) :
    Relocatable (v.atClock c) e need := fun s hs => ⟨(h s hs).source, (h s hs).target⟩

/-- 写す元が変わらず、前から `k` ブロックを写した。 -/
structure Shifted (v v' : Vol) (e : Entry) (first : UInt32) (k : Nat) : Prop where
  setup : SameSetup v v'
  source : ∀ b ∈ e.run, v'.dev.disk b = v.dev.disk b
  target : ∀ j < k, plainBlock v'.dev.disk v.sb (e.moved first e.blockCount) j = plainBlock v.dev.disk v.sb e j

section

variable {v v₁ : Vol} {e : Entry} {idx need first : UInt32}

theorem Shifted.copy {k : Nat} (h : Shifted v v₁ e first k) (hk : k < e.blockCount.toNat) (hold : e.Straight)
    (hnew : (e.moved first e.blockCount).Straight) (happart : ∀ b ∈ e.run, b ∉ (e.moved first e.blockCount).run)
    {sb : Superblock} (hsb : SameShape v.sb sb) :
    wp (orRelease first need (copyBlock sb e e.firstBlock first (UInt32.ofNat k)))
      (fun _ v' => Shifted v v' e first (k + 1)) (fun _ _ => True) v₁ := by
  unfold orRelease
  rw [wp_bind, wp_attempt]
  refine (copyBlock_spec sb e.firstBlock first (UInt32.ofNat k)).mono ?_ (fun _ v' _ => ?_)
  · rintro _ _ ⟨blk, c, rfl, hblk⟩
    have hmem : (e.moved first e.blockCount).block k ∈ (e.moved first e.blockCount).run := hnew.block_mem hk
    have hput : ∀ b, b ≠ (e.moved first e.blockCount).block k →
        (v₁.put (first + UInt32.ofNat k) blk c).dev.disk b = v₁.dev.disk b := by
      intro b hb
      rw [dev_put, HtlDevice.disk_atClock, HtlDevice.disk_store]
      exact Function.update_of_ne hb _ _
    have hsame : SameSetup v₁ (v₁.put (first + UInt32.ofNat k) blk c) := ⟨.refl v₁.sb, rfl⟩
    refine ⟨trans_of SameSetup h.setup hsame, fun b hb => ?_, fun j hj => ?_⟩
    · exact (hput b fun heq => happart b hb (heq ▸ hmem)).trans (h.source b hb)
    rcases Nat.lt_succ_iff_lt_or_eq.mp hj with hlt | rfl
    · rw [← h.target j hlt]
      unfold plainBlock
      rw [hput _ (hnew.block_ne (lt_trans hlt hk) hk (Nat.ne_of_lt hlt))]
    · rw [hsb.cryptoXform, hsb.cryptoXform] at hblk
      unfold plainBlock
      rw [dev_put, HtlDevice.disk_atClock, HtlDevice.disk_store]
      change cryptoXform v.sb e (Function.update v₁.dev.disk (first + UInt32.ofNat j) blk (first + UInt32.ofNat j))
        (first + UInt32.ofNat j) = _
      rw [Function.update_self, hblk]
      exact congrArg (fun blk => cryptoXform v.sb e blk (e.block j)) (h.source _ (hold.block_mem hk))
  · change wp (Prog.attempt (blockFree first need) >>= _) _ _ _
    rw [wp_bind, wp_attempt]
    exact (setup_blockFree first need v').mono (fun _ _ _ => trivial) (fun _ _ _ => trivial)

theorem Superblock.InRange.ofNat_relOf (h : v.sb.InRange first need) :
    v.sb.dataRegionStart + UInt32.ofNat (v.sb.relOf first) = first := by
  have hlow := h.low
  have hlt := first.toNat_lt
  have hrel : v.sb.relOf first = first.toNat - v.sb.dataRegionStart.toNat := rfl
  apply UInt32.toNat_inj.mp
  rw [toNat_add_lt (by rw [toNat_ofNat_lt (by omega)]; omega), toNat_ofNat_lt (by omega)]
  omega

/-- 移し替える先の並びは、今の並びと離れている。 -/
theorem apart_moved (hocc : Occupies v e) (hh : v.sb.Houses e) (hrange : v.sb.InRange first need)
    (hfit : FirstFit (bitOf v.dev.disk v.sb) v.sb.dataCount need.toNat (v.sb.relOf first)) {b : UInt32}
    (hb : b ∈ e.run) : b ∉ (e.moved first need).run := by
  intro hin
  have hhouse : v.sb.Houses (e.moved first need) := fun _ => hrange
  obtain ⟨hrel, hlt⟩ := hhouse.relOf hin
  have hclear := (firstFit_iff.mp hfit).vacant _ hlt
  change v.sb.relOf b = v.sb.relOf first + _ at hrel
  rw [← hrel, hocc.used hh hb] at hclear
  cases hclear

/-- 写し終えた並びは、項目を書き込んだ後も同じ内容である。 -/
theorem Shifted.recorded (h : Shifted v v₁ e first e.blockCount.toNat) (ht : TableApart v.sb)
    (hnew : v.sb.Houses (e.moved first e.blockCount)) {v₂ : Vol} (hsetup : SameSetup v v₂)
    (hkept : ∀ b ∈ (e.moved first e.blockCount).run, v₂.dev.disk b = v₁.dev.disk b) :
    wp (entryWrite idx) (fun _ s₁ => ∀ j < e.blockCount.toNat,
      plainBlock s₁.vol.dev.disk s₁.vol.sb s₁.entry j = plainBlock v.dev.disk v.sb e j) (fun _ _ => True)
      ⟨v₂, e.moved first need⟩ := by
  refine entryWrite_lands.mono ?_ (fun _ _ _ => trivial)
  rintro _ ⟨v₃, e₃⟩ ⟨he, hsb, hidx, hdev, _⟩ j hj
  simp only at he hsb hidx hdev
  subst he
  have hmem := hnew.straight.block_mem hj
  have hdata := hnew.isData hmem
  -- 項目の表への書き込みは、データのブロックを変えない。
  have hkeep : v₃.dev.disk ((e.moved first e.blockCount).block j) =
      v₂.dev.disk ((e.moved first e.blockCount).block j) := by
    refine hdev.disk _ fun hin => ?_
    rw [Set.mem_singleton_iff] at hin
    refine ht idx ?_ ?_
    · rwa [hsetup.shape.totalEntries] at hidx
    · obtain ⟨_, _, hshape⟩ := hsetup.shape
      rw [hshape] at hin
      rwa [hin] at hdata
  rw [← h.target j hj, hsb]
  unfold plainBlock
  change cryptoXform v₂.sb e (v₃.dev.disk ((e.moved first e.blockCount).block j)) _ = _
  rw [hkeep, hkept _ hmem]
  exact hsetup.shape.cryptoXform e _ _

/-- 移し替えがビットマップを介してデータを壊さなければ、前の内容は運ばれる。 -/
theorem growFile_keeps (ht : TableApart v.sb) (hh : v.sb.Houses e) (hocc : Occupies v e)
    (hsafe : need.toNat ≤ e.blockCount.toNat ∨ Relocatable v e need) :
    wp (growFile idx need) (fun _ s₁ => ∀ j < e.blockCount.toNat,
      plainBlock s₁.vol.dev.disk s₁.vol.sb s₁.entry j = plainBlock v.dev.disk v.sb e j) (fun _ _ => True) ⟨v, e⟩ := by
  unfold growFile
  rw [wp_bind, wp_get, wp_ite]
  refine ⟨fun _ _ _ => rfl, fun hless => ?_⟩
  have hshort : e.blockCount.toNat < need.toNat := by
    rw [ge_iff_le, UInt32.not_le] at hless
    exact UInt32.lt_iff_toNat_lt.mp hless
  have hsafe := hsafe.resolve_left (Nat.not_le.mpr hshort)
  rw [wp_bind, wp_onVol]
  refine (@blockAlloc_claims v need).mono ?_ (fun _ _ _ => trivial)
  rintro first v₁ ⟨hrange, hsetup₁, hfit, hdev₁⟩
  have hshelter := hsafe _ hfit
  have htarget := hshelter.target
  rw [hrange.ofNat_relOf] at htarget
  have hsub : (e.moved first e.blockCount).run ⊆ (e.moved first need).run := fun b hb =>
    ⟨hb.1, lt_of_lt_of_le hb.2 (Nat.add_le_add_left hshort.le _)⟩
  have hnew : v.sb.Houses (e.moved first e.blockCount) := fun hpos =>
    ⟨hpos, hrange.low, (Nat.add_le_add_left hshort.le _).trans hrange.high⟩
  simp only [wp_bind, wp_get]
  refine wp_forUpto (fun k s' => s'.entry = e ∧ Shifted v s'.vol e first k)
    ⟨rfl, hsetup₁, fun b hb => hdev₁.disk b fun hin => hshelter.source b hin hb,
      fun j hj => absurd hj (Nat.not_lt_zero j)⟩
    ?_ ?_
  · rintro k ⟨v₂, e₂⟩ hk ⟨he, hc⟩
    change e₂ = e at he
    subst he
    rw [wp_onVol]
    exact (hc.copy hk hh.straight hnew.straight (fun b hb hin => apart_moved hocc hh hrange hfit hb (hsub hin))
      hsetup₁.shape).mono (fun _ _ h => ⟨rfl, h⟩) (fun _ _ _ => trivial)
  rintro ⟨v₂, e₂⟩ ⟨he, hc⟩
  change e₂ = e at he
  subst he
  rw [wp_whenever]
  refine ⟨fun _ => ?_, fun _ => hc.recorded ht hnew hc.setup fun _ _ => rfl⟩
  · rw [wp_onVol]
    unfold orRelease
    rw [wp_bind, wp_attempt]
    refine ((blockFree_confined e₂.firstBlock e₂.blockCount).and (setup_blockFree e₂.firstBlock e₂.blockCount v₂)).mono
      ?_ ?_
    · rintro _ v₃ ⟨hdev₃, hsetup₃⟩
      refine hc.recorded ht hnew (trans_of SameSetup hc.setup hsetup₃) fun b hb => hdev₃.disk b fun hin => ?_
      rw [hc.setup.shape.bitBlocks, hc.setup.shape.relOf] at hin
      exact htarget b hin hb
    · rintro err v₃ _
      change wp (Prog.attempt (blockFree first need) >>= _) _ _ _
      rw [wp_bind, wp_attempt]
      exact (setup_blockFree first need v₃).mono (fun _ _ _ => trivial) (fun _ _ _ => trivial)

/-- ビットマップがデータ領域を覆えば、移し替えはデータを壊さない。 -/
theorem relocatable_of_ready (hr : Ready v) (hh : v.sb.Houses e) (hshort : e.blockCount.toNat < need.toNat) :
    Relocatable v e need := by
  intro s hs
  have hl := hr.layout
  have hfits := hs.fits
  have hne := hr.nonempty
  have htot := v.sb.totalBlocks.toNat_lt
  have hcount : v.sb.dataCount = v.sb.totalBlocks.toNat - v.sb.dataRegionStart.toNat := rfl
  have hfirst : (v.sb.dataRegionStart + UInt32.ofNat s).toNat = v.sb.dataRegionStart.toNat + s := by
    rw [toNat_add_lt (by rw [toNat_ofNat_lt (by omega)]; omega), toNat_ofNat_lt (by omega)]
  have hmoved : v.sb.Houses (e.moved (v.sb.dataRegionStart + UInt32.ofNat s) need) :=
    moved_houses hr (firstFit_iff.mp hs) hfirst
  have hclear : ∀ {r b : _}, r < v.sb.dataCount → v.sb.IsData b → b ≠ v.sb.bitmapBlockOf r := by
    rintro r _ hlt hb rfl
    exact data_not_bitmap hl hb (bitmapBlockOf_mem hl (lt_bitmap_of_lt_data hl hlt))
  constructor
  case source =>
    rintro b ⟨r, _, hr', heq⟩ hb
    exact hclear (by omega) (hh.isData hb) heq
  case target =>
    rintro b ⟨r, _, hr', heq⟩ hb
    have hrel := (hh (by omega)).rel_le
    exact hclear (by omega) (hmoved.isData ⟨hb.1, lt_of_lt_of_le hb.2 (Nat.add_le_add_left hshort.le _)⟩) heq

/-- 今の並びで足りるか、移し替えがデータを壊さなければ、並びの用意は内容を保つ。 -/
theorem growFile_carries (ht : TableApart v.sb) (hh : v.sb.Houses e) (hocc : Occupies v e)
    (hsafe : need.toNat ≤ e.blockCount.toNat ∨ Relocatable v e need) :
    wp (growFile idx need) (fun _ s₁ => Carried ⟨v, e⟩ s₁ need) (fun _ _ => True) ⟨v, e⟩ :=
  ((growFile_lands (s := ⟨v, e⟩) hh need).and (growFile_keeps ht hh hocc hsafe)).mono
    (fun _ _ h => ⟨h.1.1, h.1.2.1, h.1.2.2.1, h.2⟩) (fun _ _ _ => trivial)

end

/-! ## 重ね書きの条件 -/

section

variable {s s₁ s' : EntryState} {idx offset len need : UInt32} {buf : List UInt8}

theorem Settled.size (h : Settled s₁ s' idx buf offset len) (hend : offset.toNat + len.toNat < 2 ^ 32) :
    s'.entry.sizeBytes.toNat = offset.toNat + len.toNat := by
  rw [h.entry]
  exact toNat_ofNat_lt hend

theorem Settled.blockCount (h : Settled s₁ s' idx buf offset len) : s'.entry.blockCount = s₁.entry.blockCount := by
  rw [h.entry]
  rfl

/-- 重ね書きになったのなら、前の終わりまで届いていて、前の内容は書く範囲の手前まで続いていた。 -/
theorem Overwritten.reaches (h : Overwritten s.vol s'.vol idx buf offset len) (hset : Settled s₁ s' idx buf offset len)
    (hroom : offset.toNat + len.toNat ≤ s₁.entry.blockCount.toNat * 4096) (hbuf : len.toNat ≤ buf.length)
    (hend : offset.toNat + len.toNat < 2 ^ 32) (hbefore : (viewOf s.vol).table idx = s.entry)
    (hafter : (viewOf s'.vol).table idx = s'.entry) :
    s.entry.sizeBytes.toNat ≤ offset.toNat + len.toNat ∧ offset.toNat ≤ s.entry.blockCount.toNat * 4096 := by
  have hlen : (buf.take len.toNat).length = len.toNat := List.length_take_of_le hbuf
  have hmax := h.size
  have hcont := h.content
  rw [hafter, hbefore, hset.size hend] at hmax
  rw [hafter, hbefore] at hcont
  unfold fileContent at hcont
  rw [hset.size hend, hset.blockCount] at hcont
  have hcap := @le_of_pages_splice 4096 (plainBlock s.vol.dev.disk s.vol.sb s.entry)
    (plainBlock s'.vol.dev.disk s'.vol.sb s'.entry) s.entry.blockCount.toNat s₁.entry.blockCount.toNat
    s.entry.sizeBytes.toNat offset.toNat (buf.take len.toNat)
  rw [hlen] at hcap
  exact ⟨by omega, (hcap hroom hcont).trans (Nat.min_le_right _ _)⟩

/-- 前の内容を運んだ並びに、前の終わりまで届く書き込みを終えると、重ね書きになる。 -/
theorem Carried.overwritten (h : Carried s s₁ need) (hset : Settled s₁ s' idx buf offset len)
    (hroom : offset.toNat + len.toNat ≤ s₁.entry.blockCount.toNat * 4096) (hbuf : len.toNat ≤ buf.length)
    (hend : offset.toNat + len.toNat < 2 ^ 32) (hoff : offset.toNat ≤ s.entry.sizeBytes.toNat)
    (hbefore : (viewOf s.vol).table idx = s.entry) (hafter : (viewOf s'.vol).table idx = s'.entry)
    (hreach : s.entry.sizeBytes.toNat ≤ offset.toNat + len.toNat)
    (hcap : offset.toNat ≤ s.entry.blockCount.toNat * 4096) : Overwritten s.vol s'.vol idx buf offset len := by
  have hlen : (buf.take len.toNat).length = len.toNat := List.length_take_of_le hbuf
  constructor
  case content =>
    rw [hafter, hbefore]
    unfold fileContent
    rw [hset.size hend, hset.blockCount]
    have hsplice := @pages_splice_end 4096 (plainBlock s.vol.dev.disk s.vol.sb s.entry)
      (plainBlock s'.vol.dev.disk s'.vol.sb s'.entry) s.entry.blockCount.toNat s₁.entry.blockCount.toNat
      s.entry.sizeBytes.toNat offset.toNat (buf.take len.toNat) (by decide)
    rw [hlen] at hsplice
    refine hsplice hroom hreach (le_min hoff hcap) fun p hp hkept => ?_
    rw [hset.bytes hend.le p (by omega)]
    by_cases hin : offset.toNat ≤ p ∧ p < offset.toNat + len.toNat
    · rw [if_pos hin, if_pos hin]
    · rw [if_neg hin, if_neg hin]
      unfold paged
      rw [h.content (p / 4096) (Nat.div_lt_of_lt_mul (by omega))]
  case size =>
    rw [hafter, hbefore, hset.size hend]
    omega

theorem SameSetup.tableFits {v v' : Vol} (h : SameSetup v v') (hfit : TableFits v.sb) : TableFits v'.sb := by
  obtain ⟨_, _, hshape⟩ := h.shape
  rw [hshape]
  exact ⟨hfit.entries, hfit.room⟩

/-- 時計は内容を変えない。 -/
theorem overwritten_atClock {v v' : Vol} {c : Nat} :
    Overwritten (v.atClock c) v' idx buf offset len ↔ Overwritten v v' idx buf offset len :=
  ⟨fun h => ⟨h.content, h.size⟩, fun h => ⟨h.content, h.size⟩⟩

end

section

variable {total : UInt32} {v : Vol}

/-- 通った書き込みの項目は、生きたファイルである。 -/
theorem file_of_written (ha : Apart v) {idx : UInt32} {e : Entry} {v₀ : Vol} (hread : entryRead idx v = (.ok e, v₀))
    {who : OwIdentity} {buf : List UInt8} {offset len done : UInt32} {s' : EntryState}
    (hwrite : fileWrite who idx buf offset len ⟨v₀, e⟩ = (.ok done, s')) : v.sb.Houses e ∧ Occupies v e := by
  have htype : e.entryType = entryFile := by
    by_contra hno
    exact (fileWrite_refused hno).ok hwrite
  rw [(entryRead_table hread).1] at htype ⊢
  have hlive := Entry.live_of_file htype
  exact ⟨ha.housed idx hlive, ha.occupied idx hlive⟩

/-- 通った書き込みは、用意した並びに書き終えて、項目を記録している。 -/
theorem written_settled (hv : VolumeOf total v) (ha : Apart v) {idx : UInt32} {e : Entry} {v₀ : Vol}
    (hread : entryRead idx v = (.ok e, v₀)) {who : OwIdentity} {buf : List UInt8} {offset len : UInt32}
    (hbuf : len.toNat ≤ buf.length) (hlen : len ≠ 0) {done : UInt32} {s' : EntryState}
    (hwrite : fileWrite who idx buf offset len ⟨v₀, e⟩ = (.ok done, s')) :
    ∃ s₁, offset.toNat + len.toNat ≤ s₁.entry.blockCount.toNat * 4096 ∧ Settled s₁ s' idx buf offset len ∧
      (viewOf s'.vol).table idx = s'.entry := by
  obtain ⟨hhouse, _⟩ := file_of_written ha hread hwrite
  obtain ⟨_, c, rfl⟩ := entryRead_table hread
  obtain ⟨_, s₁, ⟨hsetup, _, henough, _⟩, hset⟩ := (fileWrite_settles (s := ⟨v.atClock c, e⟩) hv.tableApart hbuf hlen
    (growFile_lands hhouse _) fun s₁ h => ⟨h.1, h.2.1, h.2.2.1⟩).ok hwrite
  exact ⟨s₁, need_le_room henough, hset, hset.stored (SameSetup.tableFits hsetup hv.tableFits)⟩

/-- 通った書き込みが重ね書きになるのは、前の終わりまで届くときに限る。ビットマップがデータ領域を覆うか、移し替えが要らないか、
移し替えの書くビットマップがデータに重ならなければ、それで足りる。 -/
theorem overwrite_keeps_iff (hv : VolumeOf total v) (ha : Apart v) {idx : UInt32} {e : Entry} {v₀ : Vol}
    (hread : entryRead idx v = (.ok e, v₀)) {who : OwIdentity} {buf : List UInt8} {offset len : UInt32}
    (hbuf : len.toNat ≤ buf.length) (hlen : len ≠ 0) (hoff : offset.toNat ≤ e.sizeBytes.toNat)
    (hend : offset.toNat + len.toNat < 2 ^ 32) {done : UInt32} {s' : EntryState}
    (hwrite : fileWrite who idx buf offset len ⟨v₀, e⟩ = (.ok done, s')) :
    (Overwritten v s'.vol idx buf offset len →
      e.sizeBytes.toNat ≤ offset.toNat + len.toNat ∧ offset.toNat ≤ e.blockCount.toNat * 4096) ∧
    (total.toNat < 2 ^ 32 - 32749 ∨ (blocksFor (offset.toNat + len.toNat)).toNat ≤ e.blockCount.toNat ∨
        Relocatable v e (blocksFor (offset.toNat + len.toNat)) →
      e.sizeBytes.toNat ≤ offset.toNat + len.toNat → offset.toNat ≤ e.blockCount.toNat * 4096 →
      Overwritten v s'.vol idx buf offset len) := by
  obtain ⟨s₁, hroom, hset, hstored⟩ := written_settled hv ha hread hbuf hlen hwrite
  obtain ⟨hhouse, hocc⟩ := file_of_written ha hread hwrite
  obtain ⟨he, c, rfl⟩ := entryRead_table hread
  constructor
  · intro hover
    exact @Overwritten.reaches ⟨v.atClock c, e⟩ s₁ s' idx offset len buf (overwritten_atClock.mpr hover) hset hroom hbuf
      hend he.symm hstored
  · intro hcov hreach hcap
    have hsafe : (blocksFor (offset.toNat + len.toNat)).toNat ≤ e.blockCount.toNat ∨
        Relocatable v e (blocksFor (offset.toNat + len.toNat)) := by
      rcases hcov with hfit | hsafe
      · exact (Nat.lt_or_ge _ _).symm.imp_right (relocatable_of_ready (hv.ready hfit) hhouse)
      · exact hsafe
    obtain ⟨_, s₁, hc, hset⟩ := (fileWrite_settles (s := ⟨v.atClock c, e⟩) hv.tableApart hbuf hlen
      (@growFile_carries (v.atClock c) e idx _ hv.tableApart hhouse hocc (hsafe.imp_right (·.atClock c)))
      fun s₁ h => ⟨h.setup, h.houses, h.enough⟩).ok hwrite
    exact overwritten_atClock.mp
      (hc.overwritten hset (need_le_room hc.enough) hbuf hend hoff he.symm hstored hreach hcap)

end

/-! ## 前の終わりまで届かない書き込み -/

theorem Balanced.apart {v : Vol} (h : Balanced v) : Apart v := by
  refine ⟨fun idx _ => h.housed idx, fun idx _ => h.occupies idx, fun i j hij _ _ b hi hj => ?_⟩
  obtain ⟨hreli, hlti⟩ := (h.housed i).relOf hi
  obtain ⟨hrelj, hltj⟩ := (h.housed j).relOf hj
  have hin : v.sb.relOf b ∈ v.sb.extent ((viewOf v).table i) := ⟨by omega, by omega⟩
  exact Set.disjoint_left.mp (h.allotted.disjoint hij) hin ⟨by omega, by omega⟩

theorem VolumeOf.shape {total : UInt32} {v v' : Vol} (h : VolumeOf total v) (hs : SameSetup v v') :
    VolumeOf total v' := by
  have hff := h.faultFree
  have hserves := h.serves
  unfold HtlConfig.FaultFree at hff
  rw [← hs.config] at hff hserves
  obtain ⟨_, _, hsb⟩ := hs.shape
  refine ⟨h.large, ?_, ?_, ?_, ?_, ?_, ?_, ?_, hff, ?_⟩ <;> rw [hsb]
  · exact h.totalBlocks
  · exact h.tableStart
  · exact h.tableBlocks
  · exact h.entries
  · exact h.bitmapStart
  · exact h.bitmapBlocks
  · exact h.dataStart
  · exact ⟨hserves.writes, hserves.wholeBlocks⟩

/-- 空きの数が零でなければ、一ブロックの空きがある。 -/
theorem Balanced.hasRoom_one {v : Vol} (h : Balanced v) (hfree : v.sb.freeBlocks ≠ 0) (e : Entry) {need : UInt32}
    (hone : need = 1) : HasRoom v e need := by
  subst hone
  by_contra hno
  refine hfree (UInt32.toNat_inj.mp (h.freeExact.trans ?_))
  refine vacancies_eq_zero.mpr fun r hr => ?_
  rw [Nat.zero_add]
  by_contra hclear
  refine hno (.inr ⟨r, hr, fun j hj => ?_⟩)
  obtain rfl : j = 0 := Nat.lt_one_iff.mp hj
  exact Bool.eq_false_iff.mpr hclear

/-- フォーマットしたばかりのボリュームは、その大きさのボリュームである。 -/
theorem Fresh.volumeOf {who : OwIdentity} {total b : UInt32} {label : Option (List UInt8)} {nonce : Bytes 12} {v : Vol}
    (h : Fresh who (freshSuperblock total b label nonce) v) (hlarge : 19 ≤ total.toNat)
    (hb : layoutBitmapBlocks total = some b) : VolumeOf total v := by
  obtain ⟨_, _, _, _, _, _, hsb⟩ := h.geometry
  refine ⟨hlarge, ?_, ?_, ?_, ?_, ?_, ?_, ?_, h.ready.faultFree, h.ready.serves⟩
  case refine_6 =>
    rw [hsb]
    exact hb
  all_goals
    rw [hsb]
    rfl

theorem length_twoBytes : UInt32.toNat 2 ≤ [(1 : UInt8), 2].length := Nat.le_refl 2

theorem blocksFor_twoBytes : blocksFor ((0 : UInt32).toNat + (2 : UInt32).toNat) = 1 := by decide

/-- 番号 1 のファイルの先頭に二バイトを書く呼び出し。 -/
def twoBytes (held : Entry) : EntryOp := .write ⟨0, 0⟩ 1 held [1, 2] 0 2 length_twoBytes

/-- 六十四ブロックのボリュームの番号 1 に、二バイトのファイルがある。 -/
structure TwoBytes (v : Vol) : Prop where
  sturdy : Sturdy v
  volume : VolumeOf 64 v
  editable : Editable v ⟨0, 0⟩ ((viewOf v).table 1)
  size : ((viewOf v).table 1).sizeBytes = 2
  room : 2 ≤ ((viewOf v).table 1).blockCount.toNat * 4096

theorem Sturdy.read {v : Vol} (h : Sturdy v) {idx : UInt32} (hlive : ((viewOf v).table idx).Live) :
    ∃ v₀, entryRead idx v = (.ok ((viewOf v).table idx), v₀) :=
  entryRead_summed h.balanced.ready.stable (live_inTable hlive) (h.kept.summed idx hlive.1)

/-- 空きのあるボリュームで、書けるファイルの先頭に二バイトを書く。 -/
theorem Sturdy.twoBytes {v : Vol} (h : Sturdy v) (hv : VolumeOf 64 v) (hfree : v.sb.freeBlocks ≠ 0)
    (hedit : Editable v ⟨0, 0⟩ ((viewOf v).table 1)) :
    TwoBytes (EntryOp.run (Usfs.twoBytes ((viewOf v).table 1)) v).2 := by
  have hlive := Entry.live_of_file hedit.file
  obtain ⟨v₀, hread⟩ := h.read hlive
  obtain ⟨s₂, hwrite, _⟩ := (h.write_decided (live_inTable hlive) hedit length_twoBytes (by decide)).passes
    (h.balanced.hasRoom_one hfree _ blocksFor_twoBytes)
  have hrun : EntryOp.run (Usfs.twoBytes ((viewOf v).table 1)) v = (.ok (), s₂.vol) := by
    unfold Usfs.twoBytes EntryOp.run
    refine run_bind (a := (2, s₂.entry)) ?_ rfl
    unfold withEntry
    rw [hwrite]
  have hsturdy := h.step (Usfs.twoBytes ((viewOf v).table 1)) (by exact congrArg Prod.fst hread)
  rw [hrun] at hsturdy ⊢
  obtain ⟨_, s₁, ⟨hsetup, _, henough, halike⟩, hset⟩ := (fileWrite_settles (s := ⟨v, (viewOf v).table 1⟩)
    hv.tableApart length_twoBytes (by decide) (growFile_lands (h.balanced.housed 1) _)
    fun s₁ h => ⟨h.1, h.2.1, h.2.2.1⟩).ok hwrite
  have hsetup₂ : SameSetup v s₂.vol := by
    refine ⟨?_, hset.config.trans hsetup.config⟩
    rw [hset.sb]
    exact hsetup.shape
  refine ⟨hsturdy, hv.shape hsetup₂, ?_, ?_, ?_⟩ <;> rw [hset.stored (SameSetup.tableFits hsetup hv.tableFits)]
  · rw [hset.entry]
    obtain ⟨_, _, _, _, he⟩ := halike
    rw [he]
    exact ⟨hedit.file, hsetup₂.shape.writable.trans hedit.writable, hedit.notReadonly, hedit.access⟩
  · rw [hset.entry]
    rfl
  · rw [hset.blockCount]
    exact need_le_room henough

/-- フォーマットし、ファイルを作り、二バイトを書く。 -/
theorem exists_twoBytes : ∃ d' u held, formatVolume ⟨0, 0⟩ 64 none (zeroDevice 0) = (.ok (), d') ∧ Opened d' u ∧
    (entryRead 1 (final EntryOp.run [createFile 0x61 0] u)).1 = .ok held ∧
    TwoBytes (final EntryOp.run [createFile 0x61 0, twoBytes held] u) := by
  obtain ⟨d', u, hfmt, hopen⟩ := exists_opened_zeroDevice ⟨0, 0⟩ (n := 0) (.inl rfl)
  obtain ⟨hsturdy, _⟩ := sturdy_of_format (reliable_zeroDevice 0) layoutBitmapBlocks_small
    (.mk' (by decide) (by decide) (by decide)) (.inl rfl) hfmt hopen
  obtain ⟨b, nonce, hb, hunused, hfresh, _⟩ := fresh_of_format (reliable_zeroDevice 0) (by decide) hfmt hopen
  obtain ⟨v₁, hrun, hwork, hsetup, hfree, _, _, _, _, htable⟩ := first_file hfmt hopen
  have hedit := hwork.editable htable
  have hsturdy₁ := hsturdy.step (createFile 0x61 0) trivial
  rw [hrun] at hsturdy₁
  obtain ⟨v₀, hread⟩ := hsturdy₁.read (Entry.live_of_file hedit.file)
  have hspare : v₁.sb.freeBlocks ≠ 0 := by
    obtain rfl : b = 1 := Option.some.inj (hb.symm.trans layoutBitmapBlocks_small)
    obtain ⟨_, _, _, _, _, _, hsb⟩ := hfresh.geometry
    rw [hfree, hsb]
    exact (by decide : (64 - (17 + 1) - 1 : UInt32) ≠ 0)
  refine ⟨d', u, (viewOf v₁).table 1, hfmt, hopen, ?_, ?_⟩
  · change (entryRead 1 (EntryOp.run (createFile 0x61 0) u).2).1 = _
    rw [hrun, hread]
  · change TwoBytes (EntryOp.run (twoBytes _) (EntryOp.run (createFile 0x61 0) u).2).2
    rw [hrun]
    exact hsturdy₁.twoBytes ((hfresh.volumeOf (by decide) hb).shape hsetup) hspare hedit

theorem TwoBytes.write {v : Vol} (h : TwoBytes v) (offset : UInt32) {buf : List UInt8} {len : UInt32}
    (hbuf : len.toNat ≤ buf.length) (hone : blocksFor (offset.toNat + len.toNat) = 1) :
    ∃ v₀ s', entryRead 1 v = (.ok ((viewOf v).table 1), v₀) ∧
      fileWrite ⟨0, 0⟩ 1 buf offset len ⟨v₀, (viewOf v).table 1⟩ = (.ok len, s') := by
  have hready := h.sturdy.balanced.ready
  have henough : (blocksFor (offset.toNat + len.toNat)).toNat ≤ ((viewOf v).table 1).blockCount.toNat := by
    have hroom := h.room
    rw [hone]
    change 1 ≤ _
    omega
  have hlive := Entry.live_of_file h.editable.file
  obtain ⟨v₀, hread⟩ := h.sturdy.read hlive
  obtain ⟨_, c, rfl⟩ := entryRead_table hread
  obtain ⟨s', hwrite⟩ := @fileWrite_fits (v.atClock c) (Still.ready ⟨c, rfl⟩ hready) 1 _ (live_inTable hlive)
    (h.sturdy.balanced.housed 1) (h.sturdy.balanced.occupies 1) ⟨0, 0⟩
    ⟨h.editable.file, h.editable.writable, h.editable.notReadonly, h.editable.access⟩ h.sturdy.writes buf offset
      len hbuf henough
  exact ⟨_, s', hread, hwrite⟩

/-- 二バイトのファイルの二バイト目だけを書き換えると、重ね書きになる。 -/
theorem overwrite_keeps_small : ∃ d' u held e v₀ s', formatVolume ⟨0, 0⟩ 64 none (zeroDevice 0) = (.ok (), d') ∧
    Opened d' u ∧ entryRead 1 (final EntryOp.run [createFile 0x61 0, twoBytes held] u) = (.ok e, v₀) ∧
    fileWrite ⟨0, 0⟩ 1 [7] 1 1 ⟨v₀, e⟩ = (.ok 1, s') ∧
    Overwritten (final EntryOp.run [createFile 0x61 0, twoBytes held] u) s'.vol 1 [7] 1 1 := by
  obtain ⟨d', u, held, hfmt, hopen, _, h⟩ := exists_twoBytes
  have hbuf : (1 : UInt32).toNat ≤ [(7 : UInt8)].length := by decide
  obtain ⟨v₀, s', hread, hwrite⟩ := h.write 1 hbuf (by decide)
  have hsize := h.size
  obtain ⟨_, hkeeps⟩ := overwrite_keeps_iff h.volume h.sturdy.balanced.apart hread hbuf (by decide)
    (by rw [hsize]; decide) (by decide) hwrite
  refine ⟨d', u, held, _, v₀, s', hfmt, hopen, hread, hwrite, hkeeps (.inl (by decide)) (by rw [hsize]; decide) ?_⟩
  exact le_trans (by decide) h.room

/-- 二バイトのファイルの一バイト目だけを書き換えると、二バイト目が失われる。 -/
theorem tail_lost : ∃ d' u held e v₀ s', formatVolume ⟨0, 0⟩ 64 none (zeroDevice 0) = (.ok (), d') ∧ Opened d' u ∧
    (entryRead 1 (final EntryOp.run [createFile 0x61 0] u)).1 = .ok held ∧
    VolumeOf 64 (final EntryOp.run [createFile 0x61 0, twoBytes held] u) ∧
    Apart (final EntryOp.run [createFile 0x61 0, twoBytes held] u) ∧
    entryRead 1 (final EntryOp.run [createFile 0x61 0, twoBytes held] u) = (.ok e, v₀) ∧ e.sizeBytes = 2 ∧
    fileWrite ⟨0, 0⟩ 1 [7] 0 1 ⟨v₀, e⟩ = (.ok 1, s') ∧
    ¬ Overwritten (final EntryOp.run [createFile 0x61 0, twoBytes held] u) s'.vol 1 [7] 0 1 := by
  obtain ⟨d', u, held, hfmt, hopen, hheld, h⟩ := exists_twoBytes
  have hbuf : (1 : UInt32).toNat ≤ [(7 : UInt8)].length := by decide
  have happart := h.sturdy.balanced.apart
  obtain ⟨v₀, s', hread, hwrite⟩ := h.write 0 hbuf (by decide)
  refine ⟨d', u, held, _, v₀, s', hfmt, hopen, hheld, h.volume, happart, hread, h.size, hwrite, fun hover => ?_⟩
  obtain ⟨s₁, _, hset, hstored⟩ := written_settled h.volume happart hread hbuf (by decide) hwrite
  have hmax := hover.size
  rw [hstored, hset.size (by decide), h.size] at hmax
  exact absurd hmax (by decide)

end OwStorage.Usfs
