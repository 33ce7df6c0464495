import OwStorage.Usfs.Lemmas.Superblock
import OwStorage.Usfs.Run
import OwStorage.Lib.Runs

/-!
# 連続した割り当ての規則

割り当ても解放も、通し番号 `r` のビット `bitOf` の範囲の書き換えとして述べる。書き込みはビットマップのブロックごとに
行われるので、途中で止まったときに書き終えたブロックの数も述べる。
-/

namespace OwStorage.Usfs

open Lib Prog

/-! ## 配置 -/

/-- 領域の並びと大きさの条件。 -/
structure Layout (sb : Superblock) : Prop where
  tableAfter : 0 < sb.entryTableStart.toNat
  bitmapAfter : sb.entryTableStart.toNat + sb.entryTableBlocks.toNat ≤ sb.bitmapStartBlock.toNat
  dataAfter : sb.bitmapStartBlock.toNat + sb.bitmapBlockCount.toNat ≤ sb.dataRegionStart.toNat
  entriesFit : sb.totalEntries.toNat ≤ 16 * sb.entryTableBlocks.toNat
  bitmapCovers : sb.totalBlocks.toNat - sb.dataRegionStart.toNat ≤ sb.bitmapBlockCount.toNat * 32768

def Superblock.dataCount (sb : Superblock) : Nat := sb.totalBlocks.toNat - sb.dataRegionStart.toNat

/-- データ領域のブロック。 -/
def Superblock.IsData (sb : Superblock) (b : UInt32) : Prop :=
  sb.dataRegionStart.toNat ≤ b.toNat ∧ b.toNat < sb.totalBlocks.toNat

/-- データ領域の中での番号。 -/
def Superblock.relOf (sb : Superblock) (b : UInt32) : Nat := b.toNat - sb.dataRegionStart.toNat

/-- ビットマップのブロック。 -/
def Superblock.bitmapRegion (sb : Superblock) : Set UInt32 :=
  { b | sb.bitmapStartBlock.toNat ≤ b.toNat ∧
    b.toNat < sb.bitmapStartBlock.toNat + sb.bitmapBlockCount.toNat }

/-- 番号 `r` のビットを含むビットマップのブロック。 -/
def Superblock.bitmapBlockOf (sb : Superblock) (r : Nat) : UInt32 :=
  sb.bitmapStartBlock + UInt32.ofNat (r / 32768)

/-- 番号 `r` のビット。 -/
def bitOf (disk : Disk) (sb : Superblock) (r : Nat) : Bool :=
  (disk (sb.bitmapBlockOf r)).bitAt (r % 32768)

/-- 印のないデータブロックの数。 -/
def freeCount (disk : Disk) (sb : Superblock) : Nat := vacancies (bitOf disk sb) 0 sb.dataCount

/-- 空きの数の欄は、印のないデータブロックの数に等しい。 -/
def FreeExact (disk : Disk) (sb : Superblock) : Prop := sb.freeBlocks.toNat = freeCount disk sb

/-- 解放の引数として受け入れられる範囲。 -/
structure Superblock.InRange (sb : Superblock) (first count : UInt32) : Prop where
  pos : 0 < count.toNat
  low : sb.dataRegionStart.toNat ≤ first.toNat
  high : first.toNat + count.toNat ≤ sb.totalBlocks.toNat

section

variable {sb : Superblock} {disk : Disk} {r q : Nat}

theorem Superblock.InRange.rel_le {first count : UInt32} (h : sb.InRange first count) :
    sb.relOf first + count.toNat ≤ sb.dataCount := by
  have := h.low
  have := h.high
  unfold Superblock.relOf Superblock.dataCount
  omega

variable (hl : Layout sb)
include hl

theorem toNat_bitmapBlockOf (hr : r < sb.bitmapBlockCount.toNat * 32768) :
    (sb.bitmapBlockOf r).toNat = sb.bitmapStartBlock.toNat + r / 32768 := by
  have hq : r / 32768 < sb.bitmapBlockCount.toNat := Nat.div_lt_of_lt_mul (by omega)
  have := hl.dataAfter
  have := sb.dataRegionStart.toNat_lt
  unfold Superblock.bitmapBlockOf
  rw [toNat_add_lt (by rw [toNat_ofNat_lt (by omega)]; omega), toNat_ofNat_lt (by omega)]

theorem bitmapBlockOf_mem (hr : r < sb.bitmapBlockCount.toNat * 32768) :
    sb.bitmapBlockOf r ∈ sb.bitmapRegion := by
  have hq : r / 32768 < sb.bitmapBlockCount.toNat := Nat.div_lt_of_lt_mul (by omega)
  change _ ∧ _
  rw [toNat_bitmapBlockOf hl hr]
  omega

theorem lt_bitmap_of_lt_data (hr : r < sb.dataCount) : r < sb.bitmapBlockCount.toNat * 32768 :=
  lt_of_lt_of_le hr hl.bitmapCovers

theorem bitOf_congr {disk' : Disk} (h : ∀ b ∈ sb.bitmapRegion, disk' b = disk b)
    (hr : r < sb.bitmapBlockCount.toNat * 32768) : bitOf disk' sb r = bitOf disk sb r := by
  unfold bitOf
  rw [h _ (bitmapBlockOf_mem hl hr)]

theorem freeCount_congr {disk' : Disk} (h : ∀ b ∈ sb.bitmapRegion, disk' b = disk b) :
    freeCount disk' sb = freeCount disk sb := by
  refine vacancies_congr fun r hr => ?_
  rw [Nat.zero_add]
  exact bitOf_congr hl h (lt_bitmap_of_lt_data hl hr)

theorem bitmap_eq_of_bitOf {disk' : Disk}
    (h : ∀ r, r < sb.bitmapBlockCount.toNat * 32768 → bitOf disk' sb r = bitOf disk sb r) :
    ∀ x ∈ sb.bitmapRegion, disk' x = disk x := by
  intro x hx
  refine Bytes.eq_of_bitAt fun r hr => ?_
  have hq : (x.toNat - sb.bitmapStartBlock.toNat) * 32768 + r < sb.bitmapBlockCount.toNat * 32768 := by
    have := hx.1
    have := hx.2
    omega
  have hblk : sb.bitmapBlockOf ((x.toNat - sb.bitmapStartBlock.toNat) * 32768 + r) = x := by
    apply UInt32.toNat_inj.mp
    rw [toNat_bitmapBlockOf hl hq]
    have := hx.1
    omega
  have hbit := h _ hq
  unfold bitOf at hbit
  rw [hblk, show ((x.toNat - sb.bitmapStartBlock.toNat) * 32768 + r) % 32768 = r by omega] at hbit
  exact hbit

theorem bitOf_update {blk : Block} (hq : q < sb.bitmapBlockCount.toNat)
    (hr : r < sb.bitmapBlockCount.toNat * 32768) :
    bitOf (Function.update disk (sb.bitmapBlockOf (q * 32768)) blk) sb r =
      if r / 32768 = q then blk.bitAt (r % 32768) else bitOf disk sb r := by
  unfold bitOf
  by_cases hrq : r / 32768 = q
  · have hblk : sb.bitmapBlockOf r = sb.bitmapBlockOf (q * 32768) := by
      unfold Superblock.bitmapBlockOf
      rw [hrq, Nat.mul_div_cancel _ (by decide)]
    rw [hblk, Function.update_self, if_pos hrq]
  · have hblk : sb.bitmapBlockOf r ≠ sb.bitmapBlockOf (q * 32768) := by
      intro he
      have := congrArg UInt32.toNat he
      rw [toNat_bitmapBlockOf hl hr, toNat_bitmapBlockOf hl (by omega)] at this
      omega
    rw [Function.update_of_ne hblk, if_neg hrq]

end

/-! ## 一つのブロックの中のビット -/

section

variable {buf : Block} {rel first last : UInt32} {r : Nat} {used : Bool}

theorem bitIsSet_eq (buf : Block) (rel : UInt32) : bitIsSet buf rel = buf.bitAt rel.toNat := by
  unfold bitIsSet Bytes.bitAt
  rw [toNat_shiftRight_three, toNat_and_seven]

theorem bitAt_bitStore (h : rel.toNat < 32768) :
    (bitStore buf rel used).bitAt r = if r = rel.toNat then used else buf.bitAt r := by
  unfold bitStore
  rw [toNat_shiftRight_three, toNat_and_seven, Bytes.bitAt_setBit _ (by omega) (Nat.mod_lt _ (by decide)),
    show rel.toNat / 8 * 8 + rel.toNat % 8 = rel.toNat by omega]

theorem bitAt_fillBits (hlast : last.toNat < 32768) :
    (fillBits buf first last used).bitAt r =
      fill buf.bitAt first.toNat (last.toNat + 1 - first.toNat) used r := by
  have hfold : ∀ m, first.toNat + m ≤ 32768 →
      ((List.range m).foldl (fun buf i => bitStore buf (first + UInt32.ofNat i) used) buf).bitAt r =
        fill buf.bitAt first.toNat m used r := by
    intro m
    induction m with
    | zero => simp
    | succ m ih =>
        intro hm
        have hrel : (first + UInt32.ofNat m).toNat = first.toNat + m := by
          rw [toNat_add_lt (by rw [toNat_ofNat_lt (by omega)]; omega), toNat_ofNat_lt (by omega)]
        rw [List.range_succ, List.foldl_append, List.foldl_cons, List.foldl_nil, bitAt_bitStore (by omega),
          ih (by omega), hrel]
        unfold fill
        by_cases hr : r = first.toNat + m
        · rw [if_pos hr, if_pos (by omega)]
        · rw [if_neg hr]
          by_cases hin : first.toNat ≤ r ∧ r < first.toNat + m
          · rw [if_pos hin, if_pos (by omega)]
          · rw [if_neg hin, if_neg (by omega)]
  unfold fillBits
  by_cases hle : first.toNat ≤ last.toNat + 1
  · exact hfold _ (by omega)
  · rw [show last.toNat + 1 - first.toNat = 0 by omega]
    simp

end

/-! ## 走査 -/

/-- 装置がビットマップを読める。 -/
structure ReadsBitmap (c : HtlConfig) (sb : Superblock) : Prop where
  reads : ∀ b ∈ sb.bitmapRegion, c.Reads b
  wholeBlocks : c.WholeBlocks

/-- 装置がビットマップに書ける。 -/
structure WritesBitmap (c : HtlConfig) (sb : Superblock) : Prop where
  writes : ∀ b ∈ sb.bitmapRegion, c.Writes b
  wholeBlocks : c.WholeBlocks

theorem ReadsBitmap.bit {c : HtlConfig} {sb : Superblock} (h : ReadsBitmap c sb) (hl : Layout sb) {r : Nat}
    (hr : r < sb.dataCount) : c.Reads (sb.bitmapBlockOf r) :=
  h.reads _ (bitmapBlockOf_mem hl (lt_bitmap_of_lt_data hl hr))

theorem WritesBitmap.reads {c : HtlConfig} {sb : Superblock} (h : WritesBitmap c sb) : ReadsBitmap c sb :=
  ⟨fun b hb => (h.writes b hb).toReads, h.wholeBlocks⟩

theorem WritesBitmap.unprotected {c : HtlConfig} {sb : Superblock} (h : WritesBitmap c sb) (hl : Layout sb)
    (hpos : 0 < sb.dataCount) : c.writeProtect = 0 :=
  (h.writes _ (bitmapBlockOf_mem hl (lt_bitmap_of_lt_data hl hpos))).unprotected

/-- 番号 `i` の前までを調べた走査が持つブロック。 -/
def cacheAt (v : Vol) (i : Nat) : Cached :=
  if i = 0 then none
  else some (UInt32.ofNat ((i - 1) / 32768), v.dev.disk (v.sb.bitmapBlockOf (i - 1)))

theorem cacheAt_succ (v : Vol) (i : Nat) :
    cacheAt v (i + 1) = some (UInt32.ofNat (i / 32768), v.dev.disk (v.sb.bitmapBlockOf i)) := by
  rw [cacheAt, if_neg (Nat.succ_ne_zero i), Nat.add_sub_cancel]

/-- 番号 `i` の前までを調べるのに要る読み取りの回数。 -/
def readsAt (i : Nat) : Nat := (i + 32767) / 32768

section

variable {v : Vol}

/-- 番号 `i` のビットを含むブロックは、走査の前の番号と同じブロックでないときだけ読む。 -/
theorem fetchFor_spec {i : Nat} (hi : i < v.sb.dataCount) (hcalm : v.dev.Calm (readsAt i)) :
    wp (fetchFor (UInt32.ofNat i) (cacheAt v i))
      (fun a v' => a = (UInt32.ofNat (i / 32768), v.dev.disk (v.sb.bitmapBlockOf i)) ∧
        v' = v.atClock (v.dev.clock + readsAt (i + 1)) ∧ v.dev.Calm (readsAt (i + 1)))
      (fun e v' => Still v v' ∧ (¬ v.dev.Reads (v.sb.bitmapBlockOf i) ∨
        (e = .io ∧ i = readsAt i * 32768 ∧ v.dev.fault (v.dev.clock + readsAt i) ≠ none)))
      (v.atClock (v.dev.clock + readsAt i)) := by
  have hlt := v.sb.totalBlocks.toNat_lt
  have hi32 : i < 2 ^ 32 := lt_trans (lt_of_lt_of_le hi (Nat.sub_le _ _)) hlt
  have hrel : (UInt32.ofNat i).toNat = i := toNat_ofNat_lt hi32
  have hblk : UInt32.ofNat i / bitsPerBlock = UInt32.ofNat (i / 32768) := by
    apply UInt32.toNat_inj.mp
    rw [UInt32.toNat_div, hrel, toNat_ofNat_lt (by omega)]
    rfl
  -- 読み取り一回で、ブロックの先頭から次のブロックの先頭まで足りる。
  have hread : i = readsAt i * 32768 →
      wp (do
          let buf ← readBlk ((v.atClock (v.dev.clock + readsAt i)).sb.bitmapStartBlock + UInt32.ofNat (i / 32768))
          pure (UInt32.ofNat (i / 32768), buf))
        (fun a v' => a = (UInt32.ofNat (i / 32768), v.dev.disk (v.sb.bitmapBlockOf i)) ∧
          v' = v.atClock (v.dev.clock + readsAt (i + 1)) ∧ v.dev.Calm (readsAt (i + 1)))
        (fun e v' => Still v v' ∧ (¬ v.dev.Reads (v.sb.bitmapBlockOf i) ∨
          (e = .io ∧ i = readsAt i * 32768 ∧ v.dev.fault (v.dev.clock + readsAt i) ≠ none)))
        (v.atClock (v.dev.clock + readsAt i)) := by
    intro hstart
    have hnext : readsAt (i + 1) = readsAt i + 1 := by
      unfold readsAt at hstart ⊢
      omega
    rw [wp_bind]
    by_cases hserved : v.dev.Reads (v.sb.bitmapBlockOf i)
    · refine wp_readBlk_clock hserved (fun hok => ⟨rfl, ?_, ?_⟩)
        (fun herr => ⟨⟨_, rfl⟩, .inr ⟨rfl, hstart, herr⟩⟩)
      · rw [hnext]
        rfl
      · rw [hnext]
        exact hcalm.succ hok
    · exact wp_readBlk (fun _ h => absurd h hserved) (fun c _ => ⟨⟨c, rfl⟩, .inl hserved⟩)
  unfold fetchFor
  simp only [wp_bind, wp_get, hblk]
  by_cases hz : i = 0
  · rw [cacheAt, if_pos hz]
    refine hread ?_
    rw [hz]
    rfl
  · rw [cacheAt, if_neg hz]
    simp only [wp_ite]
    have heq : UInt32.ofNat (i / 32768) = UInt32.ofNat ((i - 1) / 32768) ↔ i / 32768 = (i - 1) / 32768 := by
      rw [← UInt32.toNat_inj, toNat_ofNat_lt (by omega), toNat_ofNat_lt (by omega)]
    refine ⟨fun hsame => ?_, fun hnew => hread ?_⟩
    · have hq := heq.mp hsame
      have hkeep : readsAt (i + 1) = readsAt i := by
        unfold readsAt
        omega
      refine ⟨?_, ?_, ?_⟩
      · rw [hsame]
        unfold Superblock.bitmapBlockOf
        rw [hq]
      · rw [hkeep]
      · rw [hkeep]
        exact hcalm
    · have hq : i / 32768 ≠ (i - 1) / 32768 := fun h => hnew (heq.mpr h)
      unfold readsAt
      omega

/-- 走査は、長さ `count` の空きの並びのうち先頭が最も小さいものを返す。 -/
theorem findRun_spec {count : UInt32} (hc : 0 < count.toNat)
    (hne : v.sb.dataRegionStart.toNat ≤ v.sb.totalBlocks.toNat) : wp (findRun count)
      (fun s v' => FirstFit (bitOf v.dev.disk v.sb) v.sb.dataCount count.toNat s.toNat ∧
        v' = v.atClock (v.dev.clock + readsAt (s.toNat + count.toNat)) ∧
        v.dev.Calm (readsAt (s.toNat + count.toNat)))
      (fun e v' => Still v v' ∧ ((∃ r, r < v.sb.dataCount ∧ ¬ v.dev.Reads (v.sb.bitmapBlockOf r)) ∨
        (e = .noFreeBlocks ∧ ¬ ∃ s, FirstFit (bitOf v.dev.disk v.sb) v.sb.dataCount count.toNat s) ∨
          (e = .io ∧ ∃ q, v.dev.fault (v.dev.clock + q) ≠ none ∧
            ∀ s, s + count.toNat ≤ q * 32768 → ¬ Vacant (bitOf v.dev.disk v.sb) s count.toNat))) v := by
  have hlt := v.sb.totalBlocks.toNat_lt
  have hn : (dataBlockCount v.sb).toNat = v.sb.dataCount := toNat_sub_le hne
  unfold findRun
  simp only [wp_bind, wp_get]
  rw [hn]
  refine wp_loop (fun i acc v' => ∃ k, Scanned (bitOf v.dev.disk v.sb) count.toNat i k ∧ acc.2.1.toNat = k ∧
      (0 < k → acc.1.toNat = i - k) ∧ acc.2.2 = cacheAt v i ∧
      v' = v.atClock (v.dev.clock + readsAt i) ∧ v.dev.Calm (readsAt i))
    ⟨0, .init hc, rfl, fun h => absurd h (by decide), rfl, rfl, HtlDevice.calm_zero⟩ ?_ ?_
  · rintro i ⟨runStart, runLen, cached⟩ _ hi ⟨k, hscan, hlen, hstart, hcache, rfl, hcalm⟩
    have hi32 : i < 2 ^ 32 := lt_trans (lt_of_lt_of_le hi (Nat.sub_le _ _)) hlt
    have hcount := count.toNat_lt
    have hshort := hscan.short
    have hreach := hscan.reach
    change cached = _ at hcache
    subst hcache
    simp only at hlen hstart
    rw [wp_bind]
    refine (fetchFor_spec hi hcalm).mono ?_ ?_
    · rintro _ _ ⟨rfl, rfl, hcalm'⟩
      have hbit : bitIsSet (v.dev.disk (v.sb.bitmapBlockOf i)) (UInt32.ofNat i % bitsPerBlock) =
          bitOf v.dev.disk v.sb i := by
        rw [bitIsSet_eq, UInt32.toNat_mod, toNat_ofNat_lt hi32]
        rfl
      have hnext := cacheAt_succ v i
      have hlen1 : (runLen + 1).toNat = k + 1 := by
        rw [toNat_add_one_lt (by omega), hlen]
      have hstart1 : (if runLen = 0 then UInt32.ofNat i else runStart).toNat = i - k := by
        split
        · rename_i hz
          have hk : k = 0 := by
            rw [← hlen, hz]
            rfl
          rw [toNat_ofNat_lt hi32, hk, Nat.sub_zero]
        · rename_i hz
          refine hstart (Nat.pos_of_ne_zero fun hk => hz ?_)
          exact UInt32.toNat_inj.mp (hlen.trans hk)
      simp only [hbit, Bool.not_eq_true']
      rw [wp_ite]
      refine ⟨fun hclear => ?_, fun hset => ?_⟩
      · rw [wp_ite]
        refine ⟨fun hdone => ?_, fun hmore => ?_⟩
        · have hk : k + 1 = count.toNat := by
            rw [← hlen1, hdone]
          have hfound := hscan.found hclear hk hi
          have hreads1 : readsAt (i - k + count.toNat) = readsAt (i + 1) := by
            congr 1
            omega
          simp only [wp_pure, hstart1, hreads1]
          exact ⟨hfound, trivial, hcalm'⟩
        · have hk : k + 1 ≠ count.toNat := fun h => hmore (UInt32.toNat_inj.mp (hlen1.trans h))
          refine ⟨k + 1, hscan.extend hclear hk, hlen1, fun _ => ?_, hnext.symm, rfl, hcalm'⟩
          rw [hstart1]
          omega
      · have hset := (Bool.not_eq_false _).mp hset
        exact ⟨0, hscan.reset hset, rfl, fun h => absurd h (by decide), hnext.symm, rfl, hcalm'⟩
    · rintro e _ ⟨hstill, hunserved | ⟨rfl, hq, hfault⟩⟩
      · exact ⟨hstill, .inl ⟨i, hi, hunserved⟩⟩
      · refine ⟨hstill, .inr (.inr ⟨rfl, readsAt i, hfault, fun s hs => hscan.notYet s ?_⟩)⟩
        omega
  · rintro ⟨runStart, runLen, cached⟩ _ ⟨k, hscan, _, _, _, rfl, _⟩
    exact ⟨⟨_, rfl⟩, .inr (.inl ⟨rfl, hscan.none⟩)⟩

end

/-! ## 範囲の書き換え -/

/-- 番号 `s` から `len` 個のビットだけが `used` になり、ビットマップのほかのブロックは変わらない。 -/
structure Marked (v v' : Vol) (s len : Nat) (used : Bool) : Prop where
  dev : v.dev.Evolves v.sb.bitmapRegion v'.dev
  bits : ∀ r, r < v.sb.bitmapBlockCount.toNat * 32768 →
    bitOf v'.dev.disk v.sb r = fill (bitOf v.dev.disk v.sb) s len used r

/-- 範囲を含むビットマップのブロックの数。 -/
def spanned (s len : Nat) : Nat := (s + len - 1) / 32768 + 1 - s / 32768

/-- 前から `i` ブロックを書いたときに、書き終えたビットの数。 -/
def markedLen (s len i : Nat) : Nat := min len ((s / 32768 + i) * 32768 - s)

/-- 書き換えが `i` ブロックを書いた所で止まった。 -/
structure Torn (v v' : Vol) (s len : Nat) (used : Bool) (i : Nat) : Prop where
  lt : i < spanned s len
  marked : Marked v v' s (markedLen s len i) used
  calm : v.dev.Calm (2 * i)
  unprotected : 0 < i → v.dev.writeProtect = 0
  cut : ¬ (v.dev.Calm (2 * i + 2) ∧ v.dev.writeProtect = 0)

theorem markedLen_zero (s len : Nat) : markedLen s len 0 = 0 := by
  unfold markedLen
  omega

theorem markedLen_spanned {s len : Nat} (h : 0 < len) : markedLen s len (spanned s len) = len := by
  unfold markedLen spanned
  omega

namespace Marked

variable {v v' : Vol} {s len : Nat} {used : Bool}

theorem zero (v : Vol) : Marked v v s 0 used :=
  ⟨.refl _ _, fun _ _ => by rw [fill_zero]⟩

theorem atClock {c : Nat} (h : Marked v v' s len used) : Marked v (v'.atClock c) s len used :=
  ⟨h.dev.trans .atClock, h.bits⟩

theorem disk_eq (h : Marked v v' s 0 used) (hl : Layout v.sb) : v'.dev.disk = v.dev.disk := by
  funext b
  by_cases hb : b ∈ v.sb.bitmapRegion
  · refine bitmap_eq_of_bitOf hl (fun r hr => ?_) b hb
    rw [h.bits r hr, fill_zero]
  · exact h.dev.disk b hb

theorem freeCount (h : Marked v v' s len used) (hl : Layout v.sb) (hfit : s + len ≤ v.sb.dataCount) :
    freeCount v'.dev.disk v.sb + vacancies (bitOf v.dev.disk v.sb) s len =
      Usfs.freeCount v.dev.disk v.sb + (if used then 0 else len) := by
  have hsame : Usfs.freeCount v'.dev.disk v.sb =
      vacancies (fill (bitOf v.dev.disk v.sb) s len used) 0 v.sb.dataCount := by
    refine vacancies_congr fun r hr => ?_
    rw [Nat.zero_add]
    exact h.bits r (lt_bitmap_of_lt_data hl hr)
  rw [hsame]
  exact vacancies_fill hfit

end Marked

section

variable {v : Vol} (hl : Layout v.sb)
include hl

theorem bitOf_markStep {disk : Disk} {s len i r : Nat} {used : Bool} {rs cnt : UInt32} (hs : rs.toNat = s)
    (hlen : cnt.toNat = len) (hpos : 0 < len) (hfit : s + len ≤ v.sb.bitmapBlockCount.toNat * 32768)
    (hfit32 : s + len < 2 ^ 32) (hi : i < spanned s len)
    (hbits : ∀ r, r < v.sb.bitmapBlockCount.toNat * 32768 →
      bitOf disk v.sb r = fill (bitOf v.dev.disk v.sb) s (markedLen s len i) used r)
    (hr : r < v.sb.bitmapBlockCount.toNat * 32768) :
    bitOf (Function.update disk (v.sb.bitmapBlockOf ((s / 32768 + i) * 32768))
        (fillBits (disk (v.sb.bitmapBlockOf ((s / 32768 + i) * 32768)))
          (if rs / bitsPerBlock + UInt32.ofNat i = rs / bitsPerBlock then rs % bitsPerBlock else 0)
          (if rs / bitsPerBlock + UInt32.ofNat i = (rs + cnt - 1) / bitsPerBlock then (rs + cnt - 1) % bitsPerBlock
            else bitsPerBlock - 1) used)) v.sb r =
      fill (bitOf v.dev.disk v.sb) s (markedLen s len (i + 1)) used r := by
  have hbpb : bitsPerBlock.toNat = 32768 := rfl
  have hlastBlk : spanned s len = (s + len - 1) / 32768 + 1 - s / 32768 := rfl
  have hq : s / 32768 + i < v.sb.bitmapBlockCount.toNat := by
    have : (s + len - 1) / 32768 < v.sb.bitmapBlockCount.toNat := Nat.div_lt_of_lt_mul (by omega)
    omega
  have hsum : (rs + cnt - 1).toNat = s + len - 1 := by
    have hadd : (rs + cnt).toNat = s + len := by
      rw [toNat_add_lt (by omega), hs, hlen]
    have hone : (1 : UInt32).toNat = 1 := rfl
    rw [toNat_sub_le (by omega), hadd]
    rfl
  have hblk : (rs / bitsPerBlock + UInt32.ofNat i).toNat = s / 32768 + i := by
    have hdiv : (rs / bitsPerBlock).toNat = s / 32768 := by
      rw [UInt32.toNat_div, hs, hbpb]
    rw [toNat_add_lt (by rw [hdiv, toNat_ofNat_lt (by omega)]; omega), hdiv, toNat_ofNat_lt (by omega)]
  have hfirst : (if rs / bitsPerBlock + UInt32.ofNat i = rs / bitsPerBlock then rs % bitsPerBlock else 0).toNat =
      if i = 0 then s % 32768 else 0 := by
    have hiff : rs / bitsPerBlock + UInt32.ofNat i = rs / bitsPerBlock ↔ i = 0 := by
      rw [← UInt32.toNat_inj, hblk, UInt32.toNat_div, hs, hbpb]
      omega
    by_cases hz : i = 0
    · rw [if_pos (hiff.mpr hz), if_pos hz, UInt32.toNat_mod, hs, hbpb]
    · rw [if_neg fun h => hz (hiff.mp h), if_neg hz]
      rfl
  have hlast : (if rs / bitsPerBlock + UInt32.ofNat i = (rs + cnt - 1) / bitsPerBlock then
        (rs + cnt - 1) % bitsPerBlock else bitsPerBlock - 1).toNat =
      if s / 32768 + i = (s + len - 1) / 32768 then (s + len - 1) % 32768 else 32767 := by
    have hiff : rs / bitsPerBlock + UInt32.ofNat i = (rs + cnt - 1) / bitsPerBlock ↔
        s / 32768 + i = (s + len - 1) / 32768 := by
      rw [← UInt32.toNat_inj, hblk, UInt32.toNat_div, hsum, hbpb]
    by_cases hz : s / 32768 + i = (s + len - 1) / 32768
    · rw [if_pos (hiff.mpr hz), if_pos hz, UInt32.toNat_mod, hsum, hbpb]
    · rw [if_neg fun h => hz (hiff.mp h), if_neg hz]
      rfl
  have hsame : (disk (v.sb.bitmapBlockOf ((s / 32768 + i) * 32768))).bitAt (r % 32768) =
      bitOf disk v.sb ((s / 32768 + i) * 32768 + r % 32768) := by
    unfold bitOf Superblock.bitmapBlockOf
    rw [show ((s / 32768 + i) * 32768 + r % 32768) / 32768 = s / 32768 + i by omega,
      show ((s / 32768 + i) * 32768 + r % 32768) % 32768 = r % 32768 by omega,
      Nat.mul_div_cancel _ (by decide)]
  rw [bitOf_update hl hq hr]
  by_cases hrq : r / 32768 = s / 32768 + i
  · rw [if_pos hrq, bitAt_fillBits (by rw [hlast]; split <;> omega), hlast, hfirst]
    have hrr : (s / 32768 + i) * 32768 + r % 32768 = r := by omega
    rw [hrr] at hsame
    unfold fill
    rw [hsame, hbits r hr]
    unfold fill markedLen
    split_ifs <;> first | rfl | omega
  · rw [if_neg hrq, hbits r hr]
    unfold fill markedLen
    split_ifs <;> first | rfl | omega

/-- 範囲の書き換え。失敗しても、書き終えたブロックの分だけが変わる。 -/
theorem markRun_spec {rs cnt : UInt32} (used : Bool) (hpos : 0 < cnt.toNat)
    (hfit : rs.toNat + cnt.toNat ≤ v.sb.bitmapBlockCount.toNat * 32768) (hfit32 : rs.toNat + cnt.toNat < 2 ^ 32)
    (hreads : ReadsBitmap v.dev.toHtlConfig v.sb) :
    wp (markRun rs cnt used)
      (fun _ v' => v'.sb = v.sb ∧ Marked v v' rs.toNat cnt.toNat used ∧
        v.dev.Calm (2 * spanned rs.toNat cnt.toNat) ∧ v.dev.writeProtect = 0)
      (fun e v' => DeviceErr e ∧ v'.sb = v.sb ∧ ∃ i, Torn v v' rs.toNat cnt.toNat used i) v := by
  have hbpb : bitsPerBlock.toNat = 32768 := rfl
  have hfirst : (rs / bitsPerBlock).toNat = rs.toNat / 32768 := by rw [UInt32.toNat_div, hbpb]
  have hlast : ((rs + cnt - 1) / bitsPerBlock).toNat = (rs.toNat + cnt.toNat - 1) / 32768 := by
    have hadd : (rs + cnt).toNat = rs.toNat + cnt.toNat := toNat_add_lt hfit32
    have hone : (1 : UInt32).toNat = 1 := rfl
    rw [UInt32.toNat_div, hbpb, toNat_sub_le (by omega), hadd]
    rfl
  have hnum : ((rs + cnt - 1) / bitsPerBlock).toNat + 1 - (rs / bitsPerBlock).toNat =
      spanned rs.toNat cnt.toNat := by
    rw [hfirst, hlast]
    rfl
  unfold markRun
  simp only [wp_bind, wp_get]
  rw [hnum]
  refine wp_forUpto (fun i v' => v'.sb = v.sb ∧ v'.dev.clock = v.dev.clock + 2 * i ∧ v.dev.Calm (2 * i) ∧
      Marked v v' rs.toNat (markedLen rs.toNat cnt.toNat i) used ∧ (0 < i → v.dev.writeProtect = 0))
    ⟨rfl, rfl, HtlDevice.calm_zero, ?_, fun h => absurd h (Nat.lt_irrefl 0)⟩ ?_ ?_
  · rw [markedLen_zero]
    exact .zero v
  · rintro i v' hi ⟨hsb, hclock, hcalm, hmarked, hopen⟩
    have hq : rs.toNat / 32768 + i < v.sb.bitmapBlockCount.toNat := by
      have : (rs.toNat + cnt.toNat - 1) / 32768 < v.sb.bitmapBlockCount.toNat := Nat.div_lt_of_lt_mul (by omega)
      unfold spanned at hi
      omega
    have hblock : v.sb.bitmapStartBlock + (rs / bitsPerBlock + UInt32.ofNat i) =
        v.sb.bitmapBlockOf ((rs.toNat / 32768 + i) * 32768) := by
      unfold Superblock.bitmapBlockOf
      congr 1
      rw [Nat.mul_div_cancel _ (by decide), ← hfirst, UInt32.ofNat_add, UInt32.ofNat_toNat]
    have hmem := bitmapBlockOf_mem hl (r := (rs.toNat / 32768 + i) * 32768) (by omega)
    have hcfg := hmarked.dev.config
    have hread : v'.dev.Reads (v.sb.bitmapBlockOf ((rs.toNat / 32768 + i) * 32768)) := by
      rw [hcfg]
      exact hreads.reads _ hmem
    have hfault : ∀ k, v'.dev.fault k = v.dev.fault k := fun k => congrArg (fun c => c.fault k) hcfg
    have hprotect : v'.dev.writeProtect = v.dev.writeProtect := congrArg HtlConfig.writeProtect hcfg
    -- 前の回までに失敗がないので、この回の呼び出しの番号は `2 * i` と `2 * i + 1` である。
    rw [hblock, wp_bind]
    refine wp_readBlk_clock hread (fun hok => ?_) (fun herr => ?_)
    · have hok : v.dev.fault (v.dev.clock + 2 * i) = none := by rwa [hfault, hclock] at hok
      refine wp_writeBlk_clock hread (fun hprot => ?_) (fun hw hok' => ?_) (fun e he hw herr' => ?_)
      · refine ⟨.inr rfl, hsb, i, hi, hmarked.atClock, hcalm, hopen, fun h => hprot ?_⟩
        exact hprotect.trans h.2
      · have hok' : v.dev.fault (v.dev.clock + (2 * i + 1)) = none := by
          rw [← hfault, ← Nat.add_assoc, ← hclock]
          exact hok'
        refine ⟨hsb, ?_, (hcalm.succ hok).succ hok', ⟨hmarked.dev.trans (.store hmem), fun r hr => ?_⟩, fun _ => ?_⟩
        · change v'.dev.clock + 1 + 1 = _
          omega
        · exact bitOf_markStep hl rfl rfl hpos hfit hfit32 hi hmarked.bits hr
        · exact hprotect.symm.trans hw
      · refine ⟨he, hsb, i, hi, hmarked.atClock, hcalm, hopen, fun h => herr' ?_⟩
        have := h.1 (2 * i + 1) (by omega)
        rw [← hfault, ← Nat.add_assoc, ← hclock] at this
        exact this
    · refine ⟨.inl rfl, hsb, i, hi, hmarked.atClock, hcalm, hopen, fun h => herr ?_⟩
      rw [hfault, hclock]
      exact h.1 (2 * i) (by omega)
  · rintro v' ⟨hsb, _, hcalm, hmarked, hopen⟩
    rw [markedLen_spanned hpos] at hmarked
    have hspan : 0 < spanned rs.toNat cnt.toNat := by
      unfold spanned
      have := Nat.div_le_div_right (c := 32768) (show rs.toNat ≤ rs.toNat + cnt.toNat - 1 by omega)
      omega
    exact ⟨hsb, hmarked, hcalm, hopen hspan⟩

/-! ## 割り当てと解放 -/

omit hl in
theorem Marked.of_atClock {v' : Vol} {c s len : Nat} {used : Bool} (h : Marked (v.atClock c) v' s len used) :
    Marked v v' s len used :=
  ⟨⟨h.dev.config, h.dev.disk, h.dev.trail⟩, h.bits⟩

/-- 装置を触る前に割り当てを断る条件。 -/
def AllocRefused (sb : Superblock) (count : UInt32) (e : UsfsErr) : Prop :=
  (e = .noFreeBlocks ∧ (count = 0 ∨ count > sb.freeBlocks ∨ sb.totalBlocks ≤ sb.dataRegionStart)) ∨
    volumeWritable sb = .error e

omit hl in
theorem count_pos_of_open {sb : Superblock} {count : UInt32} (h : ∀ e, ¬ AllocRefused sb count e) :
    0 < count.toNat :=
  Nat.pos_of_ne_zero fun hz => h .noFreeBlocks (.inl ⟨rfl, .inl (UInt32.toNat_inj.mp hz)⟩)

theorem blockAlloc_spec (count : UInt32) (hreads : ReadsBitmap v.dev.toHtlConfig v.sb) :
    wp (blockAlloc count)
      (fun b v' => (∀ e, ¬ AllocRefused v.sb count e) ∧
        ∃ s, FirstFit (bitOf v.dev.disk v.sb) v.sb.dataCount count.toNat s ∧
          b.toNat = v.sb.dataRegionStart.toNat + s ∧ Marked v v' s count.toNat true ∧
          v'.sb = { v.sb with freeBlocks := v.sb.freeBlocks - count } ∧
          (v.atClock (v.dev.clock + readsAt (s + count.toNat))).dev.Calm (2 * spanned s count.toNat))
      (fun e v' => v'.sb = v.sb ∧
        ((Still v v' ∧ (AllocRefused v.sb count e ∨
            (e = .noFreeBlocks ∧ ¬ ∃ s, FirstFit (bitOf v.dev.disk v.sb) v.sb.dataCount count.toNat s) ∨
            (e = .io ∧ ∃ q, v.dev.fault (v.dev.clock + q) ≠ none ∧
              ∀ s, s + count.toNat ≤ q * 32768 → ¬ Vacant (bitOf v.dev.disk v.sb) s count.toNat))) ∨
          (DeviceErr e ∧ (∀ e, ¬ AllocRefused v.sb count e) ∧
            ∃ s i, FirstFit (bitOf v.dev.disk v.sb) v.sb.dataCount count.toNat s ∧
              v.dev.Calm (readsAt (s + count.toNat)) ∧
              Torn (v.atClock (v.dev.clock + readsAt (s + count.toNat))) v' s count.toNat true i))) v := by
  have htot := v.sb.totalBlocks.toNat_lt
  unfold blockAlloc
  simp only [wp_bind, wp_get, wp_failIf, wp_ofExcept]
  refine ⟨fun hg => ⟨trivial, .inl ⟨refl_of Still v, .inl (.inl ⟨rfl, ?_⟩)⟩⟩, fun hg =>
    ⟨fun hr => ⟨trivial, .inl ⟨refl_of Still v, .inl (.inl ⟨rfl, .inr (.inr hr)⟩)⟩⟩, fun hr =>
    ⟨fun _ hw => ?_, fun e he => ⟨trivial, .inl ⟨refl_of Still v, .inl (.inr he)⟩⟩⟩⟩⟩
  · rcases hg with hg | hg
    · exact .inl hg
    · exact .inr (.inl hg)
  · rw [not_or] at hg
    have hopen : ∀ e, ¬ AllocRefused v.sb count e := by
      rintro e (⟨_, h | h | h⟩ | h)
      · exact hg.1 h
      · exact hg.2 h
      · exact hr h
      · rw [hw] at h
        cases h
    have hpos : 0 < count.toNat := Nat.pos_of_ne_zero fun h => hg.1 (UInt32.toNat_inj.mp h)
    have hne := UInt32.lt_iff_toNat_lt.mp (UInt32.not_le.mp hr)
    refine (findRun_spec hpos hne.le).mono ?_ ?_
    · rintro rs _ ⟨hfirst, rfl, hcalm⟩
      have hfits := hfirst.fits
      have hcount : v.sb.dataCount = v.sb.totalBlocks.toNat - v.sb.dataRegionStart.toNat := rfl
      have hcovers := hl.bitmapCovers
      refine (markRun_spec (v := v.atClock (v.dev.clock + readsAt (rs.toNat + count.toNat))) hl true hpos
        ?_ ?_ hreads).mono
        ?_ ?_
      · exact hfits.trans hcovers
      · omega
      · rintro _ v' ⟨hsb, hmarked, hmarkCalm, _⟩
        refine ⟨hopen, rs.toNat, hfirst, ?_, ⟨?_, ?_⟩, ?_, hmarkCalm⟩
        · exact toNat_add_lt (by omega)
        · exact hmarked.of_atClock.dev
        · exact hmarked.of_atClock.bits
        · exact congrArg (fun sb : Superblock => { sb with freeBlocks := sb.freeBlocks - count }) hsb
      · rintro e v' ⟨he, hsb, i, htorn⟩
        exact ⟨hsb, .inr ⟨he, hopen, rs.toNat, i, hfirst, hcalm, htorn⟩⟩
    · rintro e v' ⟨hstill, ⟨r, hr, hno⟩ | h⟩
      · exact absurd (hreads.bit hl hr) hno
      · exact ⟨hstill.sb, .inl ⟨hstill, .inr h⟩⟩

theorem blockFree_spec (first count : UInt32) (hreads : ReadsBitmap v.dev.toHtlConfig v.sb) :
    wp (blockFree first count)
      (fun _ v' => (count = 0 ∧ v' = v) ∨
        (v.sb.InRange first count ∧ volumeWritable v.sb = .ok () ∧
          Marked v v' (v.sb.relOf first) count.toNat false ∧
          v'.sb = { v.sb with freeBlocks := v.sb.freeBlocks + count } ∧
          v.dev.Calm (2 * spanned (v.sb.relOf first) count.toNat)))
      (fun e v' => v'.sb = v.sb ∧
        ((v' = v ∧ ((e = .invalidParam ∧ ¬ v.sb.InRange first count) ∨ volumeWritable v.sb = .error e)) ∨
          (DeviceErr e ∧ v.sb.InRange first count ∧ volumeWritable v.sb = .ok () ∧
            ∃ i, Torn v v' (v.sb.relOf first) count.toNat false i))) v := by
  have htot := v.sb.totalBlocks.toNat_lt
  unfold blockFree
  simp only [wp_bind, wp_get, wp_ite, wp_failIf, wp_ofExcept, wp_pure]
  refine ⟨fun hz => .inl ⟨hz, trivial⟩, fun hz =>
    ⟨fun hout => ⟨trivial, .inl ⟨trivial, .inl ⟨trivial, fun hin => ?_⟩⟩⟩, fun hin =>
    ⟨fun _ hw => ?_, fun e he => ⟨trivial, .inl ⟨trivial, .inr he⟩⟩⟩⟩⟩
  · rcases hout with h | h
    · have := UInt32.lt_iff_toNat_lt.mp h
      have := hin.low
      omega
    · have := hin.high
      omega
  · rw [not_or, UInt32.not_lt, UInt32.le_iff_toNat_le, Nat.not_lt] at hin
    have hrange : v.sb.InRange first count :=
      ⟨Nat.pos_of_ne_zero fun h => hz (UInt32.toNat_inj.mp h), hin.1, hin.2⟩
    have hrel : (first - v.sb.dataRegionStart).toNat = v.sb.relOf first := toNat_sub_le hin.1
    have hfit := hrange.rel_le
    have hcount : v.sb.dataCount = v.sb.totalBlocks.toNat - v.sb.dataRegionStart.toNat := rfl
    have hcovers : (first - v.sb.dataRegionStart).toNat + count.toNat ≤ v.sb.bitmapBlockCount.toNat * 32768 := by
      rw [hrel]
      exact hfit.trans hl.bitmapCovers
    have hmark := markRun_spec hl false hrange.pos hcovers (by rw [hrel]; omega) hreads
    rw [hrel] at hmark
    refine hmark.mono ?_ ?_
    · rintro _ v' ⟨hsb, hmarked, hmarkCalm, _⟩
      refine .inr ⟨hrange, hw, ⟨hmarked.dev, hmarked.bits⟩, ?_, hmarkCalm⟩
      exact congrArg (fun sb : Superblock => { sb with freeBlocks := sb.freeBlocks + count }) hsb
    · rintro e v' ⟨he, hsb, i, htorn⟩
      exact ⟨hsb, .inr ⟨he, hrange, hw, i, htorn⟩⟩

/-! ## 問い合わせ -/

theorem bitmapCountFree_spec (hf : v.dev.FaultFree) (hreads : ReadsBitmap v.dev.toHtlConfig v.sb) :
    wp bitmapCountFree (fun n v' => n = UInt32.ofNat (freeCount v.dev.disk v.sb) ∧ Still v v')
      (fun _ _ => False) v := by
  have hlt := v.sb.totalBlocks.toNat_lt
  unfold bitmapCountFree
  simp only [wp_bind, wp_get, wp_ite, wp_pure]
  refine ⟨fun hempty => ⟨?_, refl_of Still v⟩, fun hne => ?_⟩
  · have := UInt32.le_iff_toNat_le.mp hempty
    have hz : v.sb.dataCount = 0 := by
      unfold Superblock.dataCount
      omega
    unfold freeCount
    rw [hz]
    rfl
  · have hne := UInt32.lt_iff_toNat_lt.mp (UInt32.not_le.mp hne)
    have hn : (dataBlockCount v.sb).toNat = v.sb.dataCount := toNat_sub_le hne.le
    rw [hn]
    refine wp_loop (fun i acc v' => acc.1 = UInt32.ofNat (vacancies (bitOf v.dev.disk v.sb) 0 i) ∧
      acc.2 = cacheAt v i ∧ v' = v.atClock (v.dev.clock + readsAt i) ∧ v.dev.Calm (readsAt i))
      ⟨rfl, rfl, rfl, HtlDevice.calm_zero⟩ ?_ ?_
    · rintro i ⟨n, cached⟩ _ hi ⟨hcount, hcache, rfl, hcalm⟩
      have hi32 : i < 2 ^ 32 := lt_trans (lt_of_lt_of_le hi (Nat.sub_le _ _)) hlt
      change n = _ at hcount
      change cached = _ at hcache
      subst hcount hcache
      rw [wp_bind, wp_attempt]
      refine (fetchFor_spec hi hcalm).mono ?_ ?_
      · rintro _ _ ⟨rfl, rfl, hcalm'⟩
        have hbit : bitIsSet (v.dev.disk (v.sb.bitmapBlockOf i)) (UInt32.ofNat i % bitsPerBlock) =
            bitOf v.dev.disk v.sb i := by
          rw [bitIsSet_eq, UInt32.toNat_mod, toNat_ofNat_lt hi32]
          rfl
        have hstep : vacancies (bitOf v.dev.disk v.sb) 0 (i + 1) =
            vacancies (bitOf v.dev.disk v.sb) 0 i + if bitOf v.dev.disk v.sb i = false then 1 else 0 := by
          unfold vacancies
          rw [Nat.count_succ]
          simp only [Nat.zero_add]
        refine ⟨?_, (cacheAt_succ v i).symm, rfl, hcalm'⟩
        simp only [hbit]
        rw [hstep, UInt32.ofNat_add]
        cases bitOf v.dev.disk v.sb i <;> simp
      · rintro _ _ ⟨_, hno | ⟨_, _, hfault⟩⟩
        · exact absurd (hreads.bit hl hi) hno
        · exact absurd (hf _) hfault
    · rintro ⟨n, cached⟩ _ ⟨hcount, _, rfl, _⟩
      exact ⟨hcount, ⟨_, rfl⟩⟩

/-- 失敗のない装置への問い合わせは、データ領域のビットを答える。 -/
theorem blockIsUsed_spec (b : UInt32) (hf : v.dev.FaultFree) (hreads : ReadsBitmap v.dev.toHtlConfig v.sb) :
    wp (blockIsUsed b)
      (fun u v' => (u = true ↔ v.sb.IsData b ∧ bitOf v.dev.disk v.sb (v.sb.relOf b) = true) ∧ Still v v')
      (fun _ _ => False) v := by
  unfold blockIsUsed
  simp only [wp_bind, wp_get, wp_ite, wp_pure]
  refine ⟨fun hout => ⟨⟨fun h => by simp at h, fun hu => ?_⟩, refl_of Still v⟩, fun hin => ?_⟩
  · rcases hout with h | h
    · have := UInt32.lt_iff_toNat_lt.mp h
      have := hu.1.1
      omega
    · have := UInt32.le_iff_toNat_le.mp h
      have := hu.1.2
      omega
  · have hb : v.sb.IsData b := by
      rw [not_or, UInt32.not_lt, ge_iff_le, UInt32.not_le, UInt32.le_iff_toNat_le, UInt32.lt_iff_toNat_lt] at hin
      exact hin
    have hrel : (b - v.sb.dataRegionStart).toNat = v.sb.relOf b := toNat_sub_le hb.1
    have hlt : v.sb.relOf b < v.sb.dataCount := by
      have := hb.1
      have := hb.2
      unfold Superblock.relOf Superblock.dataCount
      omega
    have hblk : v.sb.bitmapStartBlock + (b - v.sb.dataRegionStart) / bitsPerBlock =
        v.sb.bitmapBlockOf (v.sb.relOf b) := by
      unfold Superblock.bitmapBlockOf
      congr 1
      apply UInt32.toNat_inj.mp
      have := (b - v.sb.dataRegionStart).toNat_lt
      rw [UInt32.toNat_div, hrel, toNat_ofNat_lt (by omega)]
      rfl
    have hmem := bitmapBlockOf_mem hl (lt_bitmap_of_lt_data hl hlt)
    rw [hblk, wp_attempt]
    refine wp_readBlk (fun c _ => ?_) (fun c hn => absurd ⟨hf, hreads.reads _ hmem⟩ hn)
    refine ⟨?_, ⟨c, rfl⟩⟩
    rw [bitIsSet_eq, UInt32.toNat_mod, hrel]
    exact ⟨fun h => ⟨hb, h⟩, fun h => h.2⟩

end

/-- 失敗のない問い合わせの答え。 -/
def isUsedNow (v : Vol) (b : UInt32) : Bool :=
  match (blockIsUsed b v.faultless).1 with
  | .ok used => used
  | .error _ => false

section

variable {v : Vol} {b : UInt32}

theorem isUsedNow_iff (hl : Layout v.sb) (hreads : ReadsBitmap v.dev.toHtlConfig v.sb) :
    isUsedNow v b = true ↔ v.sb.IsData b ∧ bitOf v.dev.disk v.sb (v.sb.relOf b) = true := by
  have hreads' : ReadsBitmap v.faultless.dev.toHtlConfig v.faultless.sb :=
    ⟨fun x hx => ⟨(hreads.reads x hx).valid, (hreads.reads x hx).inRange⟩, hreads.wholeBlocks⟩
  obtain ⟨used, _, hrun, hused, _⟩ :=
    (blockIsUsed_spec (v := v.faultless) hl b faultFree_faultless hreads').exists_ok
  unfold isUsedNow
  rw [hrun]
  exact hused

end

/-! ## 並びの操作の規則 -/

section

variable {v : Vol} {Q : UInt32 → Vol → Prop} {E : UsfsErr → Vol → Prop}

theorem wp_run_alloc {count : UInt32} (h : wp (blockAlloc count) Q E v) :
    wp (RunOp.run (.alloc count)) (fun r v' => ∃ b, r = some b ∧ Q b v') E v := by
  unfold RunOp.run
  rw [wp_bind]
  exact h.mono (fun b _ hb => ⟨b, rfl, hb⟩) (fun _ _ he => he)

theorem wp_run_free {first count : UInt32} {Q : Unit → Vol → Prop} (h : wp (blockFree first count) Q E v) :
    wp (RunOp.run (.free first count)) (fun _ v' => Q () v') E v := by
  unfold RunOp.run
  rw [wp_bind]
  exact h.mono (fun _ _ hb => hb) (fun _ _ he => he)

end

end OwStorage.Usfs
