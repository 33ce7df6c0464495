import OwStorage.Usfs.Lemmas.Extent
import OwStorage.Usfs.Theorems.Isolation

/-!
# 書いたものを読み返す

通った書き込みの後に同じ範囲を読むと、書いたバイトが返る。終わりの位置が 2^32 に届くと、32 ビットの大きさの欄が位置に追いつかず、
読み取りは何も返さない。ビットマップがデータ領域を覆うことは仮定しない。
-/

namespace OwStorage.Usfs

open Lib Prog

/-! ## 並びと大きさだけの違い -/

/-- 並びと大きさと検査値のほかは同じ項目。 -/
def Entry.Alike (e e' : Entry) : Prop :=
  ∃ first count size sum, e' = { e with firstBlock := first, blockCount := count, sizeBytes := size, checksum := sum }

section

variable {e e' e'' : Entry}

theorem Entry.Alike.refl (e : Entry) : e.Alike e := ⟨e.firstBlock, e.blockCount, e.sizeBytes, e.checksum, rfl⟩

theorem Entry.Alike.trans (h : e.Alike e') (h' : e'.Alike e'') : e.Alike e'' := by
  obtain ⟨_, _, _, _, rfl⟩ := h
  obtain ⟨first, count, size, sum, rfl⟩ := h'
  exact ⟨first, count, size, sum, rfl⟩

theorem Entry.Alike.access (h : e.Alike e') (who : OwIdentity) (want : UInt8) :
    entryAccessCheck who e' want = entryAccessCheck who e want := by
  obtain ⟨_, _, _, _, rfl⟩ := h
  rfl

theorem Entry.Alike.entryType (h : e.Alike e') : e'.entryType = e.entryType := by
  obtain ⟨_, _, _, _, rfl⟩ := h
  rfl

end

/-! ## 並びを伸ばした先 -/

section

variable {s : EntryState} {idx : UInt32}

/-- 項目の表のブロックだけを書き、項目には検査値を付ける。 -/
theorem entryWrite_lands :
    wp (entryWrite idx)
      (fun _ s' => s'.entry = s.entry.sealed ∧ s'.vol.sb = s.vol.sb ∧ idx.toNat < s.vol.sb.totalEntries.toNat ∧
        s.vol.dev.Evolves {entryBlockOffset s.vol.sb idx} s'.vol.dev ∧
        s'.vol.dev.disk = putEntry s.vol.dev.disk s.vol.sb idx s.entry.sealed) (fun _ _ => True) s := by
  unfold entryWrite
  simp only [wp_bind, wp_get, wp_failIf, wp_ofExcept, wp_onVol, wp_modifyEntry]
  refine ⟨fun _ => trivial, fun hidx => ⟨fun _ _ => ?_, fun _ _ => trivial⟩⟩
  rw [ge_iff_le, UInt32.not_le, UInt32.lt_iff_toNat_lt] at hidx
  refine wp_readBlk (fun c _ => ?_) (fun _ _ => trivial)
  refine wp_writeBlk (fun c' _ => ⟨rfl, rfl, hidx, ?_, rfl⟩) (fun _ _ _ _ => trivial)
  exact HtlDevice.Evolves.store (Set.mem_singleton _)

theorem setup_copyBlock (sb : Superblock) (e : Entry) (oldFirst newFirst i : UInt32) :
    Preserves SameSetup (copyBlock sb e oldFirst newFirst i) := by
  unfold copyBlock
  exact .bind (setup_readBlk _) fun _ => setup_writeBlk _ _

theorem setup_orRelease {first count : UInt32} {p : UsfsM Unit} (hp : Preserves SameSetup p) :
    Preserves SameSetup (orRelease first count p) := by
  unfold orRelease
  refine .bind hp.attempt fun r => ?_
  cases r with
  | ok _ => exact .pure _
  | error err => exact .bind (setup_blockFree _ _).attempt fun _ => .throw _

/-- 伸ばした後の項目は、データ領域に収まる並びを持つ。 -/
theorem growFile_lands (hh : s.vol.sb.Houses s.entry) (need : UInt32) :
    wp (growFile idx need)
      (fun _ s' => SameSetup s.vol s'.vol ∧ s'.vol.sb.Houses s'.entry ∧ need.toNat ≤ s'.entry.blockCount.toNat ∧
        s.entry.Alike s'.entry) (fun _ _ => True) s := by
  unfold growFile
  rw [wp_bind, wp_get, wp_ite]
  refine ⟨fun hge => ⟨refl_of SameSetup s.vol, hh, UInt32.le_iff_toNat_le.mp hge, .refl _⟩, fun _ => ?_⟩
  rw [wp_bind, wp_onVol]
  refine (@blockAlloc_lands s.vol need).mono ?_ (fun _ _ _ => trivial)
  rintro first v₁ ⟨hrange, hsetup⟩
  simp only [wp_bind, wp_get]
  refine wp_forUpto (fun _ s' => SameSetup s.vol s'.vol ∧ s'.entry = s.entry) ⟨hsetup, rfl⟩ ?_ ?_
  · rintro k s₂ _ ⟨hsetup₂, he⟩
    rw [wp_onVol]
    exact (setup_orRelease (setup_copyBlock _ _ _ _ _) s₂.vol).mono
      (fun _ _ h => ⟨trans_of SameSetup hsetup₂ h, he⟩) (fun _ _ _ => trivial)
  rintro s₂ ⟨hsetup₂, he⟩
  have hfinish : ∀ v₃, SameSetup s.vol v₃ →
      wp (entryWrite idx) (fun _ s' => SameSetup s.vol s'.vol ∧ s'.vol.sb.Houses s'.entry ∧
        need.toNat ≤ s'.entry.blockCount.toNat ∧ s.entry.Alike s'.entry) (fun _ _ => True)
        ⟨v₃, { s₂.entry with firstBlock := first, blockCount := need }⟩ := by
    intro v₃ hsetup₃
    refine entryWrite_lands.mono ?_ (fun _ _ _ => trivial)
    rintro _ s₄ ⟨hent, hsb, _, hdev, _⟩
    have hsetup₄ : SameSetup s.vol s₄.vol :=
      ⟨by rw [hsb]; exact hsetup₃.shape, hdev.config.trans hsetup₃.config⟩
    rw [he] at hent
    refine ⟨hsetup₄, hsetup₄.shape.houses.mpr ?_, ?_, ?_⟩
    · rw [hent]
      exact fun _ => hrange
    · rw [hent]
      exact le_refl _
    · rw [hent]
      exact ⟨first, need, s.entry.sizeBytes, _, rfl⟩
  rw [wp_whenever]
  refine ⟨fun _ => ?_, fun _ => hfinish _ hsetup₂⟩
  rw [wp_onVol]
  exact (setup_orRelease (setup_blockFree _ _) s₂.vol).mono (fun _ v₃ h => hfinish v₃ (trans_of SameSetup hsetup₂ h))
    (fun _ _ _ => trivial)

end

/-! ## 書き込みと読み取り -/

/-- 項目の表のブロックは、どれもデータ領域の外にある。 -/
def TableApart (sb : Superblock) : Prop :=
  ∀ idx : UInt32, idx.toNat < sb.totalEntries.toNat → ¬ sb.IsData (entryBlockOffset sb idx)

/-- 並びを用意した所 `s₁` から、書き終えた所 `s'` まで。 -/
structure Settled (s₁ s' : EntryState) (idx : UInt32) (buf : List UInt8) (offset len : UInt32) : Prop where
  entry : s'.entry = Entry.sealed { s₁.entry with sizeBytes := UInt32.ofNat (offset.toNat + len.toNat) }
  sb : s'.vol.sb = s₁.vol.sb
  config : s'.vol.dev.toHtlConfig = s₁.vol.dev.toHtlConfig
  reach : offset.toNat + len.toNat ≤ 2 ^ 32 → ∀ p, offset.toNat ≤ p → p < offset.toNat + len.toNat →
    s₁.vol.dev.Reads (s₁.entry.block (p / 4096))
  bytes : offset.toNat + len.toNat ≤ 2 ^ 32 → ∀ p, p < s₁.entry.blockCount.toNat * 4096 →
    paged (plainBlock s'.vol.dev.disk s'.vol.sb s'.entry) p =
      if offset.toNat ≤ p ∧ p < offset.toNat + len.toNat then (buf.take len.toNat)[p - offset.toNat]?.getD 0
      else paged (plainBlock s₁.vol.dev.disk s₁.vol.sb s₁.entry) p
  stored : TableFits s₁.vol.sb → (viewOf s'.vol).table idx = s'.entry

/-- 書いた後のボリューム `v'` と項目 `e'`。 -/
structure Landed (e : Entry) (v' : Vol) (e' : Entry) (buf : List UInt8) (offset len : UInt32) : Prop where
  alike : e.Alike e'
  houses : v'.sb.Houses e'
  size : e'.sizeBytes = UInt32.ofNat (offset.toNat + len.toNat)
  room : offset.toNat + len.toNat ≤ e'.blockCount.toNat * 4096
  reads : offset.toNat + len.toNat ≤ 2 ^ 32 → ∀ p, offset.toNat ≤ p → p < offset.toNat + len.toNat →
    v'.dev.Reads (e'.block (p / 4096))
  bytes : offset.toNat + len.toNat ≤ 2 ^ 32 → ∀ j < len.toNat,
    paged (plainBlock v'.dev.disk v'.sb e') (offset.toNat + j) = (buf.take len.toNat)[j]?.getD 0

section

variable {s : EntryState} {who : OwIdentity} {idx offset len : UInt32} {buf : List UInt8}

/-- 並びを用意する部分の働き `R` が分かれば、書き込み全体の働きが分かる。 -/
theorem fileWrite_settles (ht : TableApart s.vol.sb) (hbuf : len.toNat ≤ buf.length) (hlen : len ≠ 0)
    {R : EntryState → Prop}
    (hgrow : wp (growFile idx (blocksFor (offset.toNat + len.toNat))) (fun _ s₁ => R s₁) (fun _ _ => True) s)
    (hsetup : ∀ s₁, R s₁ → SameSetup s.vol s₁.vol ∧ s₁.vol.sb.Houses s₁.entry ∧
      (blocksFor (offset.toNat + len.toNat)).toNat ≤ s₁.entry.blockCount.toNat) :
    wp (fileWrite who idx buf offset len)
      (fun _ s' => s.entry.entryType = entryFile ∧ ∃ s₁, R s₁ ∧ Settled s₁ s' idx buf offset len)
      (fun _ _ => True) s := by
  have hoff := offset.toNat_lt
  have hlt := len.toNat_lt
  unfold fileWrite
  simp only [wp_bind, wp_get, wp_failIf, wp_ofExcept, wp_ite]
  refine ⟨fun _ => trivial, fun htype => ⟨fun _ _ => ⟨fun _ => trivial, fun _ => ⟨fun _ _ => ⟨fun hz => absurd hz hlen,
    fun _ => ?_⟩, fun _ _ => trivial⟩⟩, fun _ _ => trivial⟩⟩
  refine hgrow.mono ?_ (fun _ _ _ => trivial)
  rintro _ ⟨v₁, e₁⟩ hR
  obtain ⟨hsame, hhouse, henough⟩ := hsetup _ hR
  simp only at hsame hhouse henough
  have hfits : offset.toNat + len.toNat ≤ e₁.blockCount.toNat * 4096 :=
    (le_blocksFor (by omega)).trans (Nat.mul_le_mul_right 4096 henough)
  rw [wp_onVol]
  refine (writeLoop_spec hhouse.straight hbuf hfits).mono ?_ (fun _ _ _ => trivial)
  rintro _ v₂ ⟨_, hw⟩
  rw [wp_modifyEntry]
  refine entryWrite_lands.mono ?_ (fun _ _ _ => trivial)
  rintro _ ⟨v₃, e₃⟩ ⟨he, hsb, hidx, hdev, hdisk⟩
  simp only at he hsb hidx hdev hdisk
  subst he
  have hcount : (buf.take len.toNat).length = len.toNat := List.length_take_of_le hbuf
  have hsb₃ : v₃.sb = v₁.sb := hsb.trans hw.sb
  refine ⟨not_not.mp htype, ⟨v₁, e₁⟩, hR, rfl, hsb₃, hdev.config.trans hw.dev.config, fun hend p hlo hhi => ?_,
    fun hend p hp => ?_, fun hfit => ?_⟩
  · exact hw.reach (by rw [hcount]; exact hend) p hlo (by rw [hcount]; exact hhi)
  · have hwrote := hw.bytes (by rw [hcount]; exact hend) p hp
    rw [hcount] at hwrote
    rw [← hwrote]
    have hmem := hhouse.straight.block_mem (i := p / 4096) (Nat.div_lt_of_lt_mul (by rw [Nat.mul_comm]; exact hp))
    have hdata := hhouse.isData hmem
    -- 項目の表への書き込みは、データのブロックを変えない。
    have hkeep : v₃.dev.disk (e₁.block (p / 4096)) = v₂.dev.disk (e₁.block (p / 4096)) := by
      refine hdev.disk _ fun hin => ?_
      rw [Set.mem_singleton_iff] at hin
      rw [hw.sb] at hidx hin
      rw [hsame.shape.totalEntries] at hidx
      refine ht idx hidx ?_
      rw [hin, hsame.shape.isData] at hdata
      obtain ⟨_, _, hshape⟩ := hsame.shape
      rw [hshape] at hdata
      exact hdata
    unfold paged plainBlock
    rw [hsb₃]
    change (cryptoXform v₁.sb e₁ (v₃.dev.disk (e₁.block _)) (e₁.block _))[_]?.getD 0 = _
    rw [hkeep]
  · rw [hw.sb] at hidx hdisk
    change tableView v₃.dev.disk v₃.sb idx = _
    rw [hsb₃, tableView_eq hidx, hdisk, entryAt_putEntry hfit hidx hidx, if_pos rfl]

theorem fileWrite_lands (ht : TableApart s.vol.sb) (hh : s.vol.sb.Houses s.entry) (hbuf : len.toNat ≤ buf.length)
    (hlen : len ≠ 0) :
    wp (fileWrite who idx buf offset len)
      (fun _ s' => s.entry.entryType = entryFile ∧ s'.vol.dev.toHtlConfig = s.vol.dev.toHtlConfig ∧
        Landed s.entry s'.vol s'.entry buf offset len) (fun _ _ => True) s := by
  have hoff := offset.toNat_lt
  have hlt := len.toNat_lt
  refine (fileWrite_settles ht hbuf hlen (growFile_lands hh _) fun s₁ h => ⟨h.1, h.2.1, h.2.2.1⟩).mono ?_
    (fun _ _ _ => trivial)
  rintro _ ⟨v', e'⟩ ⟨htype, ⟨v₁, e₁⟩, ⟨hsetup, hhouse, henough, halike⟩, hset⟩
  obtain ⟨he, hsb, hconfig, hreach, hbytes, _⟩ := hset
  simp only at hsetup hhouse henough halike he hsb hconfig hreach hbytes
  subst he
  have hfits : offset.toNat + len.toNat ≤ e₁.blockCount.toNat * 4096 :=
    (le_blocksFor (by omega)).trans (Nat.mul_le_mul_right 4096 henough)
  refine ⟨htype, hconfig.trans hsetup.config, ?_, ?_, rfl, hfits, fun hend p hlo hhi => ?_, fun hend j hj => ?_⟩
  · exact halike.trans ⟨e₁.firstBlock, e₁.blockCount, _, _, rfl⟩
  · rw [hsb]
    exact hhouse
  · rw [hconfig]
    exact hreach hend p hlo hhi
  · have hbyte := hbytes hend (offset.toNat + j) (by omega)
    rwa [if_pos (by omega), Nat.add_sub_cancel_left] at hbyte

theorem fileWrite_refused {v : Vol} {e : Entry} (h : e.entryType ≠ entryFile) :
    wp (fileWrite who idx buf offset len) (fun _ _ => False) (fun _ _ => True) ⟨v, e⟩ := by
  unfold fileWrite
  simp only [wp_bind, wp_get, wp_failIf]
  exact ⟨fun _ => trivial, fun hno => absurd h hno⟩

theorem fileRead_denied {v : Vol} {e : Entry} (h : entryAccessCheck who e accessRead ≠ .ok ()) :
    wp (fileRead who e offset len) (fun _ _ => False) (fun _ _ => True) v := by
  unfold fileRead
  simp only [wp_bind, wp_failIf, wp_ofExcept]
  exact ⟨fun _ => trivial, fun _ => ⟨fun _ hok => absurd hok h, fun _ _ => trivial⟩⟩

/-- 書いた範囲の読み取り。 -/
theorem read_landed {e e' : Entry} {v' : Vol} (h : Landed e v' e' buf offset len) (hff : v'.dev.FaultFree)
    (htype : e.entryType = entryFile) (hbuf : len.toNat ≤ buf.length) (hlen : len ≠ 0) :
    (∃ v'', fileRead who e' offset len v' = (.ok (buf.take len.toNat), v'')) ↔
      offset.toNat + len.toNat < 2 ^ 32 ∧ entryAccessCheck who e accessRead = .ok () := by
  have hoff := offset.toNat_lt
  have hlt := len.toNat_lt
  have hpos : 0 < len.toNat := Nat.pos_of_ne_zero fun hz => hlen (UInt32.toNat_inj.mp hz)
  have hsize : e'.sizeBytes.toNat = (offset.toNat + len.toNat) % 2 ^ 32 := by
    rw [h.size]
    exact UInt32.toNat_ofNat'
  have hcap : e'.sizeBytes.toNat ≤ e'.blockCount.toNat * 4096 := by
    rw [hsize]
    exact (Nat.mod_le _ _).trans h.room
  have hspec := fileRead_spec (v := v') hcap who offset len
  constructor
  · rintro ⟨v'', hrun⟩
    obtain ⟨_, hout⟩ := hspec.ok hrun
    refine ⟨?_, ?_⟩
    · by_contra hover
      -- 大きさの欄は位置を越えないので、何も読まれない。
      have hnil : (fileContent v'.dev.disk v'.sb e').drop offset.toNat = [] := by
        refine List.drop_eq_nil_of_le ?_
        unfold fileContent
        rw [length_pages hcap, hsize]
        omega
      have hlength := congrArg List.length hout
      rw [hnil, List.take_nil, List.length_take_of_le hbuf, List.length_nil] at hlength
      omega
    · by_contra hno
      rw [← h.alike.access] at hno
      exact (fileRead_denied hno).ok hrun
  · rintro ⟨hfit, hacc⟩
    rw [Nat.mod_eq_of_lt hfit] at hsize
    obtain ⟨out, v'', hrun, _, hout⟩ := hspec.exists_ok_of fun err _ ⟨_, hno⟩ => hno (h.alike.entryType.trans htype)
      ((h.alike.access _ _).trans hacc) ⟨hff, fun p hlo hhi _ => h.reads hfit.le p hlo hhi⟩
    have heq : out = buf.take len.toNat := by
      rw [hout]
      unfold fileContent
      rw [slice_pages (by decide) hcap (le_of_eq hsize.symm)]
      refine List.ext_getElem? fun j => ?_
      rw [List.getElem?_map]
      by_cases hj : j < len.toNat
      · rw [List.getElem?_range hj, Option.map_some, h.bytes hfit.le j hj,
          List.getElem?_eq_getElem (by rw [List.length_take_of_le hbuf]; exact hj), Option.getD_some]
      · rw [List.getElem?_eq_none (by rw [List.length_range]; omega), Option.map_none,
          List.getElem?_eq_none (by rw [List.length_take_of_le hbuf]; omega)]
    rw [heq] at hrun
    exact ⟨v'', hrun⟩

end

/-! ## 大きさごとの配置 -/

section

variable {total : UInt32} {v : Vol}

theorem VolumeOf.tableFits (h : VolumeOf total v) : TableFits v.sb := by
  refine ⟨?_, ?_⟩
  · rw [h.entries, h.tableBlocks]
    decide
  · rw [h.tableStart, h.tableBlocks]
    decide

theorem VolumeOf.tableApart (h : VolumeOf total v) : TableApart v.sb := by
  have h17 : (17 : UInt32).toNat = 17 := rfl
  have hdata : 17 ≤ v.sb.dataRegionStart.toNat := by
    by_cases hfit : total.toNat < 2 ^ 32 - 32749
    · have hl := (h.ready hfit).layout.dataAfter
      rw [h.bitmapStart, h17] at hl
      omega
    · have hb := h.bitmapBlocks
      rw [layoutBitmapBlocks_of_overflow (Nat.not_lt.mp hfit), Option.some.injEq] at hb
      rw [h.dataStart, ← hb]
      decide
  intro idx hidx hd
  have hat := h.tableFits.toNat_blockOffset hidx
  have hlow := hd.1
  rw [h.tableStart] at hat
  rw [h.entries] at hidx
  have h1 : (1 : UInt32).toNat = 1 := rfl
  have h256 : (256 : UInt32).toNat = 256 := rfl
  omega

/-- 読めた項目は、表の記録である。 -/
theorem entryRead_table {idx : UInt32} {e : Entry} {v₀ : Vol} (hread : entryRead idx v = (.ok e, v₀)) :
    e = (viewOf v).table idx ∧ ∃ c, v₀ = v.atClock c := by
  have hspec : wp (entryRead idx) (fun e v' => e = (viewOf v).table idx ∧ Still v v') (fun _ _ => True) v := by
    unfold entryRead
    simp only [wp_bind, wp_get, wp_failIf]
    refine ⟨fun _ => trivial, fun hidx => wp_readBlk (fun c _ => ⟨fun _ => trivial, fun _ => ?_⟩) (fun _ _ => trivial)⟩
    rw [ge_iff_le, UInt32.not_le, UInt32.lt_iff_toNat_lt] at hidx
    exact ⟨(tableView_eq hidx).symm, c, rfl⟩
  exact hspec.ok hread

/-- 通った書き込みの後に同じ範囲を読むと、終わりの位置が 2^32 に届かず、読む権利があるときに、かつそのときに限って、書いたものが
返る。 -/
theorem read_your_write_iff (hv : VolumeOf total v) (ha : Apart v) {idx : UInt32} {e : Entry} {v₀ : Vol}
    (hread : entryRead idx v = (.ok e, v₀)) {who : OwIdentity} {buf : List UInt8} {offset len : UInt32}
    (hbuf : len.toNat ≤ buf.length) (hlen : len ≠ 0) {s' : EntryState}
    (hwrite : fileWrite who idx buf offset len ⟨v₀, e⟩ = (.ok len, s')) :
    (∃ v'', fileRead who s'.entry offset len s'.vol = (.ok (buf.take len.toNat), v'')) ↔
      offset.toNat + len.toNat < 2 ^ 32 ∧ entryAccessCheck who e accessRead = .ok () := by
  obtain ⟨he, c, rfl⟩ := entryRead_table hread
  have hhouse : e.entryType = entryFile → v.sb.Houses e := by
    intro htype
    rw [he] at htype ⊢
    exact ha.housed idx (Entry.live_of_file htype)
  by_cases htype : e.entryType = entryFile
  · obtain ⟨_, hconfig, hland⟩ :=
      (fileWrite_lands (s := ⟨v.atClock c, e⟩) hv.tableApart (hhouse htype) hbuf hlen).ok hwrite
    refine read_landed hland ?_ htype hbuf hlen
    unfold HtlConfig.FaultFree
    rw [hconfig]
    exact hv.faultFree
  · exact ((fileWrite_refused htype).ok hwrite).elim

end

/-! ## 高いファイルを持つボリューム -/

/-- 根のブロックのほかの、データ領域の全部を並びに持つファイル。 -/
def tallFile : Entry := Entry.sealed { oneBlock 1 entryFile modeDefaultFile 52 0 with blockCount := 1114060 }

def tallTable (idx : UInt32) : Entry :=
  if idx = 1 then tallFile
  else if idx = 0 then oneBlock 0 entryCatalog modeDefaultDir 51 0
  else Entry.zero

def tallSb : Superblock := { freshSuperblock 0x110000 34 none (Bytes.zero 12) with usedEntries := 2, freeBlocks := 0 }

/-- すべての印が立ったブロック。 -/
def onesBlock : Block := Bytes.ofList 4096 (List.replicate 4096 0xFF)

def tallMarks : Disk := fun b => if 17 ≤ b.toNat ∧ b.toNat < 51 then onesBlock else Bytes.zero 4096

def tallDisk : Disk := putEntry (putEntry tallMarks tallSb 0 (tallTable 0)) tallSb 1 (tallTable 1)

def tallVolume : Vol := ⟨{ zeroDevice 0 with disk := tallDisk }, tallSb⟩

theorem layout_tall : layoutBitmapBlocks 0x110000 = some 34 := by
  have hone : bitmapBlocksNeeded 0x110000 1 = 34 := by decide
  have hnext : bitmapBlocksNeeded 0x110000 34 = 34 := by decide
  unfold layoutBitmapBlocks
  rw [layoutFrom, if_neg (by decide), hone, if_pos (by decide), layoutFrom, if_neg
    (by decide), hnext, if_neg (by decide)]

theorem volumeOf_tall : VolumeOf 0x110000 tallVolume :=
  ⟨by decide, rfl, rfl, rfl, rfl, rfl, layout_tall, rfl, fun _ => rfl,
    ⟨fun _ _ => writes_zeroDevice (.inl rfl), rfl⟩⟩

theorem tableFits_tall : TableFits tallSb := by
  refine ⟨?_, ?_⟩
  · change (256 : UInt32).toNat ≤ 16 * (16 : UInt32).toNat
    decide
  · change (1 : UInt32).toNat + (16 : UInt32).toNat < 2 ^ 32
    decide

theorem toNat_tallOffset {j : UInt32} (hj : j.toNat < 256) : (entryBlockOffset tallSb j).toNat = 1 + j.toNat / 16 :=
  tableFits_tall.toNat_blockOffset hj

theorem table_tall (idx : UInt32) : (viewOf tallVolume).table idx = tallTable idx := by
  change tableView tallDisk tallSb idx = _
  have hin : ∀ j : UInt32, j.toNat < 256 → j.toNat < tallSb.totalEntries.toNat := fun _ h => h
  unfold tableView
  split
  · rename_i hidx
    unfold tallDisk
    rw [entryAt_putEntry tableFits_tall (hin 1 (by decide)) hidx]
    by_cases h1 : idx = 1
    · rw [if_pos h1, h1]
    · rw [if_neg h1, entryAt_putEntry tableFits_tall (hin 0 (by decide)) hidx]
      by_cases h0 : idx = 0
      · rw [if_pos h0, h0]
      · rw [if_neg h0]
        have hat := toNat_tallOffset hidx
        have hzero : tallMarks (entryBlockOffset tallSb idx) = Bytes.zero 4096 := if_neg (by
          change idx.toNat < 256 at hidx
          omega)
        unfold entryAt tallTable
        rw [hzero, if_neg h1, if_neg h0]
        exact entryIn_zero idx
  · rename_i hout
    have hne : ∀ j : UInt32, j.toNat < 256 → idx ≠ j := by
      rintro j hj rfl
      exact hout hj
    unfold tallTable
    rw [if_neg (hne 1 (by decide)), if_neg (hne 0 (by decide))]

theorem bitAt_onesBlock {r : Nat} (hr : r < 32768) : onesBlock.bitAt r = true := by
  have hall : ∀ k < 8, bitSet 0xFF k = true := by decide
  have hbyte : onesBlock[r / 8]? = some 0xFF := by
    unfold onesBlock Bytes.ofList
    rw [Vector.getElem?_eq_getElem (by omega), Bytes.getElem_build, List.getElem?_replicate, if_pos (by omega)]
    rfl
  unfold Bytes.bitAt Bytes.testBit
  rw [hbyte]
  exact hall _ (Nat.mod_lt _ (by decide))

theorem used_tall {r : Nat} (hr : r < 1114061) : (viewOf tallVolume).used r = true := by
  change bitsView tallDisk tallSb r = true
  have hcount : r < tallSb.dataCount := hr
  have hblock : (tallSb.bitmapBlockOf r).toNat = 17 + r / 32768 := by
    unfold Superblock.bitmapBlockOf
    change (17 + UInt32.ofNat (r / 32768)).toNat = _
    rw [toNat_add_lt (by rw [toNat_ofNat_lt (by omega)]; change 17 + _ < _; omega), toNat_ofNat_lt (by omega)]
    rfl
  have hne : ∀ j : UInt32, j.toNat < 256 → tallSb.bitmapBlockOf r ≠ entryBlockOffset tallSb j := by
    intro j hj heq
    have hat := toNat_tallOffset hj
    rw [← heq, hblock] at hat
    omega
  rw [bitsView_eq hcount]
  unfold bitOf tallDisk putEntry
  rw [Function.update_of_ne (hne 1 (by decide)), Function.update_of_ne (hne 0 (by decide))]
  unfold tallMarks
  rw [if_pos (by rw [hblock]; omega)]
  exact bitAt_onesBlock (Nat.mod_lt _ (by decide))

theorem tall_live {idx : UInt32} (h : (tallTable idx).Live) : idx = 1 ∨ idx = 0 := by
  by_contra hno
  rw [not_or] at hno
  unfold tallTable at h
  rw [if_neg hno.1, if_neg hno.2] at h
  exact h.1 rfl

theorem apart_tall : Apart tallVolume := by
  constructor
  case housed =>
    intro idx hlive
    rw [table_tall] at hlive ⊢
    rcases tall_live hlive with rfl | rfl
    · exact fun _ => ⟨by decide, by decide, by decide⟩
    · exact fun _ => ⟨by decide, by decide, by decide⟩
  case occupied =>
    intro idx hlive
    rw [table_tall] at hlive ⊢
    rcases tall_live hlive with rfl | rfl
    · intro j hj
      change j < 1114060 at hj
      exact used_tall (by change 1 + j < _; omega)
    · intro j hj
      change j < 1 at hj
      exact used_tall (by change 0 + j < _; omega)
  case disjoint =>
    have hfile : ∀ b, b ∈ tallFile.run ↔ 52 ≤ b.toNat ∧ b.toNat < 52 + 1114060 := fun b => Iff.rfl
    intro i j hne hi hj
    rw [table_tall] at hi hj ⊢
    rw [table_tall]
    intro b hbi hbj
    rcases tall_live hi with rfl | rfl <;> rcases tall_live hj with rfl | rfl
    · exact hne rfl
    · rw [mem_run_oneBlock.mp hbj] at hbi
      exact absurd ((hfile 51).mp hbi).1 (by decide)
    · rw [mem_run_oneBlock.mp hbi] at hbj
      exact absurd ((hfile 51).mp hbj).1 (by decide)
    · exact hne rfl

theorem ready_tall : Ready tallVolume := volumeOf_tall.ready (by decide)

/-- 並びに収まる書き込みは通る。 -/
theorem fileWrite_fits {v : Vol} (hr : Ready v) {idx : UInt32} {e : Entry} (hidx : idx.toNat < v.sb.totalEntries.toNat)
    (hh : v.sb.Houses e) (hocc : Occupies v e) {who : OwIdentity} (hedit : Editable v who e)
    (hserve : ∀ b, v.sb.IsData b → v.dev.Writes b) {buf : List UInt8} {offset len : UInt32}
    (hbuf : len.toNat ≤ buf.length) (hroom : (blocksFor (offset.toNat + len.toNat)).toNat ≤ e.blockCount.toNat) :
    ∃ s', fileWrite who idx buf offset len ⟨v, e⟩ = (.ok len, s') := by
  have hrun : wp (fileWrite who idx buf offset len) (fun done _ => done = len) (fun _ _ => False) ⟨v, e⟩ := by
    refine (fileWrite_ready hr hidx hh hocc who hbuf).mono (fun _ _ h => h.2.1) ?_
    rintro _ _ ⟨_, hno⟩
    exact absurd (hno hedit hserve).1 (Nat.not_lt.mpr hroom)
  obtain ⟨_, s', hwrite, rfl⟩ := hrun.exists_ok
  exact ⟨s', hwrite⟩

theorem read_tall : ∃ v₀, entryRead 1 tallVolume = (.ok tallFile, v₀) := by
  have hread := @entryRead_summed tallVolume ready_tall.stable 1 (by decide : (1 : UInt32).toNat < 256)
  rw [table_tall] at hread
  exact hread (verify_sealed _)

theorem tall_open : volumeWritable tallSb = .ok () := by
  change volumeWritable { Superblock.zero with stateFlags := 0, securityFlags := 0 } = _
  decide

theorem write_tall {v₀ : Vol} (hread : entryRead 1 tallVolume = (.ok tallFile, v₀)) {buf : List UInt8}
    (offset len : UInt32) (hbuf : len.toNat ≤ buf.length) (hend : offset.toNat + len.toNat ≤ 2 ^ 32) :
    ∃ s', fileWrite ⟨0, 0⟩ 1 buf offset len ⟨v₀, tallFile⟩ = (.ok len, s') := by
  obtain ⟨_, c, rfl⟩ := entryRead_table hread
  have hlive : ((viewOf tallVolume).table 1).Live := by
    rw [table_tall]
    exact Entry.live_of_file rfl
  have hhouse := apart_tall.housed 1 hlive
  have hocc := apart_tall.occupied 1 hlive
  rw [table_tall] at hhouse hocc
  refine @fileWrite_fits (tallVolume.atClock c) (Still.ready ⟨c, rfl⟩ ready_tall) 1 tallFile
    (by decide : (1 : UInt32).toNat < (256 : UInt32).toNat) hhouse hocc ⟨0, 0⟩ ⟨rfl, tall_open, by decide, by decide⟩
    (fun _ _ => writes_zeroDevice (.inl rfl)) buf offset len hbuf ?_
  unfold blocksFor
  rw [toNat_ofNat_lt (by omega)]
  change _ ≤ 1114060
  omega

theorem read_your_write_on_tall : ∃ v₀ s' v'', entryRead 1 tallVolume = (.ok tallFile, v₀) ∧
    fileWrite ⟨0, 0⟩ 1 [7] 0 1 ⟨v₀, tallFile⟩ = (.ok 1, s') ∧
    fileRead ⟨0, 0⟩ s'.entry 0 1 s'.vol = (.ok [7], v'') := by
  obtain ⟨v₀, hread⟩ := read_tall
  have hbuf : (1 : UInt32).toNat ≤ [(7 : UInt8)].length := by decide
  obtain ⟨s', hwrite⟩ := write_tall hread 0 1 hbuf (by decide)
  obtain ⟨v'', hrun⟩ := (read_your_write_iff volumeOf_tall apart_tall hread hbuf (by decide) hwrite).mpr
    ⟨by decide, by decide⟩
  exact ⟨v₀, s', v'', hread, hwrite, hrun⟩

/-- 位置 2^32 - 1 へ書いた一バイトは、通った書き込みの後に読んでも返らない。 -/
theorem last_byte_unread : ∃ v₀ s', VolumeOf 0x110000 tallVolume ∧ Apart tallVolume ∧
    entryRead 1 tallVolume = (.ok tallFile, v₀) ∧
    fileWrite ⟨0, 0⟩ 1 [7] 0xFFFFFFFF 1 ⟨v₀, tallFile⟩ = (.ok 1, s') ∧
    ¬ ∃ v'', fileRead ⟨0, 0⟩ s'.entry 0xFFFFFFFF 1 s'.vol = (.ok [7], v'') := by
  obtain ⟨v₀, hread⟩ := read_tall
  have hbuf : (1 : UInt32).toNat ≤ [(7 : UInt8)].length := by decide
  obtain ⟨s', hwrite⟩ := write_tall hread 0xFFFFFFFF 1 hbuf (by decide)
  refine ⟨v₀, s', volumeOf_tall, apart_tall, hread, hwrite, fun hback => ?_⟩
  obtain ⟨_, c, rfl⟩ := entryRead_table hread
  have hlive : ((viewOf tallVolume).table 1).Live := by
    rw [table_tall]
    exact Entry.live_of_file rfl
  have hhouse := apart_tall.housed 1 hlive
  rw [table_tall] at hhouse
  obtain ⟨htype, hconfig, hland⟩ := (fileWrite_lands (s := ⟨tallVolume.atClock c, tallFile⟩) volumeOf_tall.tableApart
    hhouse hbuf (by decide)).ok hwrite
  have hff : s'.vol.dev.FaultFree := by
    unfold HtlConfig.FaultFree
    rw [hconfig]
    exact fun _ => rfl
  exact absurd ((read_landed hland hff htype hbuf (by decide)).mp hback).1 (by decide)

end OwStorage.Usfs
