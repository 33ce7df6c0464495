import OwStorage.Usfs.File
import OwStorage.Usfs.Lemmas.Entry
import OwStorage.Common.Lemmas.Crypto
import OwStorage.Lib.Paged

/-!
# 並びの内容

ファイルの内容は、一続きのブロックを復号して並べ、大きさで切ったものである。書き込みの繰り返しは書いた範囲だけを変え、
読み取りはその一部を返す。どちらもビットマップと表には触れない。
-/

namespace OwStorage.Usfs

open Lib Prog

/-- 並びの `i` 番目のブロック。 -/
def Entry.block (e : Entry) (i : Nat) : UInt32 := e.firstBlock + UInt32.ofNat i

/-- 並びのブロックの全体。 -/
def Entry.run (e : Entry) : Set UInt32 :=
  { b | e.firstBlock.toNat ≤ b.toNat ∧ b.toNat < e.firstBlock.toNat + e.blockCount.toNat }

/-- 並びの `i` 番目のブロックを復号したもの。 -/
def plainBlock (disk : Disk) (sb : Superblock) (e : Entry) (i : Nat) : Block :=
  cryptoXform sb e (disk (e.block i)) (e.block i)

/-- ファイルの内容。 -/
def fileContent (disk : Disk) (sb : Superblock) (e : Entry) : List UInt8 :=
  pages (plainBlock disk sb e) e.blockCount.toNat e.sizeBytes.toNat

/-- 並びの番号が、32 ビットの終わりを越えない。 -/
def Entry.Straight (e : Entry) : Prop := e.firstBlock.toNat + e.blockCount.toNat ≤ 2 ^ 32

theorem cryptoXform_invol (sb : Superblock) (e : Entry) (buf : Block) (b : UInt32) :
    cryptoXform sb e (cryptoXform sb e buf b) b = buf := by
  unfold cryptoXform
  split
  · rw [Bytes.toList_ofList (by simp), owChacha20Xor_invol, Bytes.ofList_toList]
  · rfl

theorem toNat_chunkLen (pos rest : UInt32) :
    (chunkLen pos rest).toNat = min rest.toNat (4096 - pos.toNat % 4096) := toNat_chunk pos rest

section

variable {e : Entry} {i j : Nat}

theorem Entry.Straight.toNat_block (h : e.Straight) (hi : i < e.blockCount.toNat) :
    (e.block i).toNat = e.firstBlock.toNat + i := by
  unfold Straight at h
  unfold block
  rw [toNat_add_lt (by rw [toNat_ofNat_lt (by omega)]; omega), toNat_ofNat_lt (by omega)]

theorem Entry.Straight.block_mem (h : e.Straight) (hi : i < e.blockCount.toNat) : e.block i ∈ e.run := by
  have hat := h.toNat_block hi
  exact ⟨by omega, by omega⟩

theorem Entry.Straight.block_ne (h : e.Straight) (hi : i < e.blockCount.toNat) (hj : j < e.blockCount.toNat)
    (hne : i ≠ j) : e.block i ≠ e.block j := by
  intro he
  have hat := congrArg UInt32.toNat he
  rw [h.toNat_block hi, h.toNat_block hj] at hat
  omega

theorem block_of_pos (e : Entry) (pos : UInt32) : e.firstBlock + (pos >>> 12) = e.block (pos.toNat / 4096) := by
  unfold Entry.block
  rw [← toNat_shiftRight_twelve, UInt32.ofNat_toNat]

end

/-! ## 一回分の書き込み -/

section

variable {v : Vol} {e : Entry}

/-- 一つのブロックの中の書き込み。暗号化されていても、復号した内容の一部だけが変わる。 -/
theorem writeChunk_spec (pos : UInt32) (bytes : List UInt8) :
    wp (writeChunk v.sb e pos bytes)
      (fun _ v' => v.dev.Reads (e.block (pos.toNat / 4096)) ∧ ∃ blk c, v' = v.put (e.block (pos.toNat / 4096)) blk c ∧
        cryptoXform v.sb e blk (e.block (pos.toNat / 4096)) =
          (plainBlock v.dev.disk v.sb e (pos.toNat / 4096)).patch (pos.toNat % 4096) bytes)
      (fun _ v' => Still v v' ∧ ¬ (v.dev.FaultFree ∧ v.dev.Writes (e.block (pos.toNat / 4096)))) v := by
  unfold writeChunk
  rw [block_of_pos, wp_bind]
  refine wp_readBlk (fun c hreads => ?_) (fun c hno => ⟨⟨c, rfl⟩, fun h => hno ⟨h.1, h.2.toReads⟩⟩)
  refine wp_writeBlk (fun c' _ => ⟨hreads, _, c', rfl, ?_⟩) (fun _ c' _ hno => ⟨⟨c', rfl⟩, fun h => hno h⟩)
  rw [cryptoXform_invol, toNat_and_4095]
  rfl

/-- 並びのブロックだけを書いた。32 ビットの終わりを越えないかぎり、通し番号 `lo` からのバイトが `w` に変わる。 -/
structure Wrote (e : Entry) (v v' : Vol) (lo : Nat) (w : List UInt8) : Prop where
  sb : v'.sb = v.sb
  dev : v.dev.Evolves e.run v'.dev
  reach : lo + w.length ≤ 2 ^ 32 → ∀ p, lo ≤ p → p < lo + w.length → v.dev.Reads (e.block (p / 4096))
  bytes : lo + w.length ≤ 2 ^ 32 → ∀ p, p < e.blockCount.toNat * 4096 →
    paged (plainBlock v'.dev.disk v.sb e) p =
      if lo ≤ p ∧ p < lo + w.length then w[p - lo]?.getD 0 else paged (plainBlock v.dev.disk v.sb e) p

theorem Wrote.refl (lo : Nat) : Wrote e v v lo [] := by
  refine ⟨rfl, .refl _ _, fun _ p hlo hhi => ?_, fun _ p _ => ?_⟩
  · rw [List.length_nil] at hhi
    omega
  · rw [if_neg (by simp only [List.length_nil]; omega)]

theorem Wrote.still {v₁ v₂ : Vol} {lo : Nat} {w : List UInt8} (h : Wrote e v v₁ lo w) (hs : Still v₁ v₂) :
    Wrote e v v₂ lo w := by
  obtain ⟨c, rfl⟩ := hs
  exact ⟨h.sb, h.dev.trans .atClock, h.reach, h.bytes⟩

/-- 書いた範囲のすぐ後に、一つのブロックに収まる分を書き足す。 -/
theorem Wrote.put {v₁ : Vol} {lo q off c : Nat} {w w' : List UInt8} {blk : Block} (hw : Wrote e v v₁ lo w)
    (hs : e.Straight) (hq : q < e.blockCount.toNat) (hfit : off + w'.length ≤ 4096)
    (hnext : lo + (w ++ w').length ≤ 2 ^ 32 → q * 4096 + off = lo + w.length)
    (hreads : v₁.dev.Reads (e.block q))
    (hblk : cryptoXform v.sb e blk (e.block q) = (plainBlock v₁.dev.disk v.sb e q).patch off w') :
    Wrote e v (v₁.put (e.block q) blk c) lo (w ++ w') := by
  rw [hw.dev.config] at hreads
  refine ⟨hw.sb, hw.dev.trans (.store (hs.block_mem hq)), fun hend p hlo hhi => ?_, fun hend p hp => ?_⟩
  · have hnext := hnext hend
    rw [List.length_append] at hhi hend
    by_cases hold : p < lo + w.length
    · exact hw.reach (by omega) p hlo hold
    · rw [show p / 4096 = q by omega]
      exact hreads
  · have hnext := hnext hend
    have hold := hw.bytes (by rw [List.length_append] at hend; omega) p hp
    have hp' : p / 4096 < e.blockCount.toNat := Nat.div_lt_of_lt_mul (by omega)
    have hstep := paged_patch (n := 4096) (B := plainBlock v₁.dev.disk v.sb e)
      (C := plainBlock (v₁.put (e.block q) blk c).dev.disk v.sb e) (q := q) (w := w') (p := p) (by decide) hfit ?_ ?_
    · rw [hstep, hold, List.length_append, hnext]
      by_cases hnew : lo + w.length ≤ p ∧ p < lo + w.length + w'.length
      · rw [if_pos hnew, if_pos (by omega), List.getElem?_append_right (by omega),
          show p - lo - w.length = p - (lo + w.length) by omega]
      · rw [if_neg hnew]
        by_cases hin : lo ≤ p ∧ p < lo + w.length
        · rw [if_pos hin, if_pos (by omega), List.getElem?_append_left (by omega)]
        · rw [if_neg hin, if_neg (by omega)]
    · unfold plainBlock at hblk ⊢
      rw [dev_put, HtlDevice.disk_atClock, HtlDevice.disk_store, Function.update_self, hblk]
    · intro hne
      unfold plainBlock
      rw [dev_put, HtlDevice.disk_atClock, HtlDevice.disk_store, Function.update_of_ne]
      exact hs.block_ne hp' hq hne

/-- 書き込みの繰り返し。位置が 32 ビットで回っても、並びの外は変わらない。 -/
theorem writeLoop_spec (hs : e.Straight) {buf : List UInt8} {offset len : UInt32} (hbuf : len.toNat ≤ buf.length)
    (hend : offset.toNat + len.toNat ≤ e.blockCount.toNat * 4096) :
    wp (writeLoop v.sb e buf offset len)
      (fun done v' => done = len ∧ Wrote e v v' offset.toNat (buf.take len.toNat))
      (fun _ v' => v'.sb = v.sb ∧ v.dev.Evolves e.run v'.dev ∧ ¬ (v.dev.FaultFree ∧ ∀ b ∈ e.run, v.dev.Writes b))
      v := by
  have hoff := offset.toNat_lt
  unfold writeLoop
  rw [wp_bind]
  refine wp_loop (fun k done v' => (k ≤ done.toNat ∨ done = len) ∧ done.toNat ≤ len.toNat ∧
    Wrote e v v' offset.toNat (buf.take done.toNat)) ⟨.inl (by simp), by simp, .refl _⟩ ?_ ?_
  · rintro k done v₁ hk ⟨hprog, hle, hw⟩
    have hlen : (buf.take done.toNat).length = done.toNat := by
      rw [List.length_take]
      omega
    rw [wp_ite]
    refine ⟨fun hlt => ?_, fun hge => ?_⟩
    · have hlt' := UInt32.lt_iff_toNat_lt.mp hlt
      have hpos : (offset + done).toNat = (offset.toNat + done.toNat) % 2 ^ 32 := UInt32.toNat_add _ _
      have hrest : (len - done).toNat = len.toNat - done.toNat := toNat_sub_le hle
      have hchunk := toNat_chunkLen (offset + done) (len - done)
      rw [hrest] at hchunk
      have hbytes : ((buf.drop done.toNat).take (chunkLen (offset + done) (len - done)).toNat).length =
          (chunkLen (offset + done) (len - done)).toNat := by
        rw [List.length_take, List.length_drop]
        omega
      have hle_pos : (offset + done).toNat ≤ offset.toNat + done.toNat := by
        rw [hpos]
        exact Nat.mod_le _ _
      have hq : (offset + done).toNat / 4096 < e.blockCount.toNat := Nat.div_lt_of_lt_mul (by omega)
      have hsum : (done + chunkLen (offset + done) (len - done)).toNat =
          done.toNat + (chunkLen (offset + done) (len - done)).toNat := toNat_add_lt (by have := len.toNat_lt; omega)
      rw [wp_bind, ← hw.sb]
      refine (writeChunk_spec (offset + done) _).mono ?_ ?_
      · rintro _ _ ⟨hreads, blk, c, rfl, hblk⟩
        rw [hw.sb] at hblk
        refine ⟨.inl ?_, ?_, ?_⟩
        · rw [hsum]
          rcases hprog with hprog | rfl
          · omega
          · exact absurd hlt' (Nat.lt_irrefl _)
        · rw [hsum]
          omega
        · rw [hsum, List.take_add]
          refine hw.put hs hq (by rw [hbytes]; omega) (fun hno => ?_) hreads hblk
          -- 終わりを越えないうちは、位置は回っていない。
          rw [List.length_append, hlen, hbytes] at hno
          rw [hpos, Nat.mod_eq_of_lt (by omega), hlen]
          omega
      · rintro err v₂ ⟨⟨c, rfl⟩, hno⟩
        refine ⟨rfl, hw.dev.trans .atClock, fun hd => hno ⟨hw.dev.faultFree hd.1, ?_⟩⟩
        rw [hw.dev.config]
        exact hd.2 _ (hs.block_mem hq)
    · have hge' : done = len := by
        apply UInt32.toNat_inj.mp
        rw [UInt32.not_lt, UInt32.le_iff_toNat_le] at hge
        omega
      subst hge'
      exact ⟨rfl, hw⟩
  · rintro done v₁ ⟨hprog, hle, hw⟩
    have hdone : done = len := by
      rcases hprog with hprog | he
      · exact UInt32.toNat_inj.mp (le_antisymm hle hprog)
      · exact he
    subst hdone
    exact ⟨rfl, hw⟩

end

/-! ## 読み取り -/

section

variable {v : Vol} {e : Entry}

/-- 読み取りは、内容のうち求められた部分を返す。大きさを越えた部分は切る。 -/
theorem fileRead_spec (hcap : e.sizeBytes.toNat ≤ e.blockCount.toNat * 4096) (who : OwIdentity) (offset len : UInt32) :
    wp (fileRead who e offset len)
      (fun out v' => Still v v' ∧ out = ((fileContent v.dev.disk v.sb e).drop offset.toNat).take len.toNat)
      (fun _ v' => Still v v' ∧ (e.entryType = entryFile → entryAccessCheck who e accessRead = .ok () →
        ¬ (v.dev.FaultFree ∧ ∀ p, offset.toNat ≤ p → p < offset.toNat + len.toNat → p < e.sizeBytes.toNat →
          v.dev.Reads (e.block (p / 4096))))) v := by
  have hcontent : (fileContent v.dev.disk v.sb e).length = e.sizeBytes.toNat := length_pages hcap
  have hsize := e.sizeBytes.toNat_lt
  unfold fileRead
  simp only [wp_bind, wp_failIf, wp_ofExcept, wp_ite, wp_get]
  refine ⟨fun ht => ⟨refl_of Still v, fun hfile => absurd hfile ht⟩, fun _ =>
    ⟨fun _ _ => ⟨fun hout => ?_, fun hin => ?_⟩,
    fun err he => ⟨refl_of Still v, fun _ hok => ?_⟩⟩⟩
  · refine ⟨refl_of Still v, ?_⟩
    have hpast : e.sizeBytes.toNat ≤ offset.toNat := by
      rcases hout with hz | hge
      · rw [hz, UInt32.toNat_zero, Nat.zero_mul] at hcap
        omega
      · exact UInt32.le_iff_toNat_le.mp hge
    rw [List.drop_eq_nil_of_le (by rw [hcontent]; exact hpast), List.take_nil]
  · have hoff : offset.toNat < e.sizeBytes.toNat := by
      rw [not_or, ge_iff_le, UInt32.not_le] at hin
      exact UInt32.lt_iff_toNat_lt.mp hin.2
    -- 終わりを越えないように縮めた長さ。
    generalize hlen' : (if len > e.sizeBytes - offset then e.sizeBytes - offset else len) = len'
    have hlen : len'.toNat = min len.toNat (e.sizeBytes.toNat - offset.toNat) := by
      rw [← hlen', toNat_clamp, toNat_sub_le hoff.le]
    have hpart : (List.range len'.toNat).map (fun j => paged (plainBlock v.dev.disk v.sb e) (offset.toNat + j)) =
        ((fileContent v.dev.disk v.sb e).drop offset.toNat).take len.toNat := by
      rw [← slice_pages (by decide) hcap (by omega), List.take_eq_take_min (i := len.toNat), List.length_drop, hcontent,
        ← hlen]
      rfl
    refine wp_loop (fun k acc v' => Still v v' ∧ (k ≤ acc.1.toNat ∨ acc.1 = len') ∧ acc.1.toNat ≤ len'.toNat ∧
      acc.2 = (List.range acc.1.toNat).map fun j => paged (plainBlock v.dev.disk v.sb e) (offset.toNat + j))
      ⟨refl_of Still v, .inl (by simp), by simp, rfl⟩ ?_ ?_
    · rintro k ⟨done, out⟩ _ hk ⟨⟨c, rfl⟩, hprog, hle, hacc⟩
      simp only at hprog hle hacc ⊢
      rw [wp_ite]
      refine ⟨fun hlt => ?_, fun hge => ?_⟩
      · have hlt' := UInt32.lt_iff_toNat_lt.mp hlt
        have hpos : (offset + done).toNat = offset.toNat + done.toNat := toNat_add_lt (by omega)
        have hrest : (len' - done).toNat = len'.toNat - done.toNat := toNat_sub_le hle
        have hchunk := toNat_chunkLen (offset + done) (len' - done)
        rw [hpos, hrest] at hchunk
        have hsum : (done + chunkLen (offset + done) (len' - done)).toNat =
            done.toNat + (chunkLen (offset + done) (len' - done)).toNat := toNat_add_lt (by omega)
        rw [block_of_pos, wp_bind]
        refine wp_readBlk (fun c' _ => ?_) (fun c' hno => ⟨⟨c', rfl⟩, fun _ _ hd => hno ⟨hd.1, ?_⟩⟩)
        · refine ⟨⟨c', rfl⟩, .inl ?_, ?_, ?_⟩
          · rw [hsum]
            rcases hprog with hprog | rfl <;> omega
          · rw [hsum]
            omega
          · have hpart := slice_eq_paged (B := plainBlock v.dev.disk v.sb e)
              (q := (offset + done).toNat / 4096) (k := (offset + done).toNat % 4096)
              (l := (chunkLen (offset + done) (len' - done)).toNat) (by rw [hpos]; omega)
            have hat : (offset + done).toNat / 4096 * 4096 + (offset + done).toNat % 4096 =
                offset.toNat + done.toNat := by
              rw [hpos]
              omega
            simp only [hat] at hpart
            rw [hsum, List.range_add, List.map_append, ← hacc, toNat_and_4095]
            refine congrArg (out ++ ·) (hpart.trans ?_)
            rw [List.map_map]
            refine List.map_congr_left fun j _ => ?_
            rw [Function.comp_apply, Nat.add_assoc]
        · rw [hpos]
          exact hd.2 _ (by omega) (by omega) (by omega)
      · have hge' : done = len' := by
          apply UInt32.toNat_inj.mp
          rw [UInt32.not_lt, UInt32.le_iff_toNat_le] at hge
          omega
        subst hge'
        exact ⟨⟨c, rfl⟩, hacc.trans hpart⟩
    · rintro ⟨done, out⟩ v' ⟨hstill, hprog, hle, hacc⟩
      have hdone : done = len' := by
        rcases hprog with hprog | he
        · exact UInt32.toNat_inj.mp (le_antisymm hle hprog)
        · exact he
      subst hdone
      exact ⟨hstill, hacc.trans hpart⟩
  · rw [he] at hok
    cases hok

end

end OwStorage.Usfs
