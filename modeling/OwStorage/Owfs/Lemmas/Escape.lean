import OwStorage.Owfs.Lemmas.Inside

/-!
# 範囲の外に出る操作

範囲の外を指すポインタと、書き換えてからたどれる間接ブロックと、1034 を越えるブロックの数のそれぞれについて、失敗のない装置で
実際に外に触れる読み取りと書き込みと切り詰めを作る。
-/

namespace OwStorage.Owfs

open Lib Prog

/-! ## 一つの番号に触れること -/

/-- 一つの論理番号を読み書きしたときに触れるもの。 -/
structure Touches (x : Scene) (idx : UInt32) (log : List Access) : Prop where
  pointer : 10 ≤ idx.toNat → .pointer (idx - 10) ∈ log
  data : x.block idx.toNat ≠ 0 → .data (x.block idx.toNat) ∈ log

theorem extends_blockmapGet (ino : Inode) (idx : UInt32) : Preserves Extends (Tracked.blockmapGet ino idx) := by
  unfold Tracked.blockmapGet
  refine .bind (.failIf _ _) fun _ => ?_
  split
  · exact .bind (.failIf _ _) fun _ => .pure _
  · exact .bind (.failIf _ _) fun _ => .bind (extends_silent _) fun _ => .bind (extends_note _) fun _ =>
      .bind (.failIf _ _) fun _ => .pure _

theorem extends_writeChunk (sb : Superblock) (ino : Inode) (pos chunk : UInt32) (bytes : List UInt8) :
    Preserves Extends (Tracked.writeChunk sb ino pos chunk bytes) := by
  unfold Tracked.writeChunk
  exact .bind (extends_blockmapGet _ _) fun _ => .bind (extends_note _) fun _ => extends_silent _

section

variable {v : Vol} {ino : Inode} {x : Scene} {idx : UInt32} {log : List Access}

theorem Touches.inside (h : Touches x idx log) (hall : AllInside x.sb log) :
    idx.toNat < 1034 ∧ x.PointsInside idx.toNat := by
  refine ⟨?_, fun hne => hall _ (h.data hne)⟩
  by_contra hge
  have hten : 10 ≤ idx.toNat := by omega
  have hsub : (idx - 10).toNat = idx.toNat - 10 := toNat_sub_le hten
  have hbad : (idx - 10).toNat < 1024 := hall _ (h.pointer hten)
  omega

theorem Touches.mono {s s' : Logged Vol Access} (h : Touches x idx s.log) (he : Extends s s') : Touches x idx s'.log :=
  ⟨fun hten => he.mem (h.pointer hten), fun hne => he.mem (h.data hne)⟩

theorem blockmapGet_touches (hff : v.dev.FaultFree) (hbc : idx.toNat < ino.blockCount.toNat)
    (hopen : (v.scene ino).Readable v.dev.toHtlConfig idx.toNat) :
    wp (Tracked.blockmapGet ino idx)
      (fun b s' => Still v s'.state ∧ b = (v.scene ino).block idx.toNat ∧
      (10 ≤ idx.toNat → .pointer (idx - 10) ∈ s'.log))
      (fun _ s' => (v.scene ino).block idx.toNat = 0 ∧ (10 ≤ idx.toNat → .pointer (idx - 10) ∈ s'.log)) ⟨v, log⟩ := by
  unfold Tracked.blockmapGet
  rw [wp_bind, wp_failIf]
  refine ⟨fun hge => absurd hbc (Nat.not_lt.mpr (UInt32.le_iff_toNat_le.mp hge)), fun _ => ?_⟩
  split
  · rename_i hten
    have hmap : (v.scene ino).block idx.toNat = ino.directBlocks[idx.toNat] := by
      rw [Scene.block_direct hten]
      change ino.directBlocks[idx.toNat]?.getD 0 = _
      rw [Vector.getElem?_eq_getElem hten]
      rfl
    have hlow : 10 ≤ idx.toNat → Access.pointer (idx - 10) ∈ log := fun h => absurd hten (Nat.not_lt.mpr h)
    rw [wp_bind, wp_failIf, hmap]
    exact ⟨fun hz => ⟨hz, hlow⟩, fun _ => ⟨refl_of Still v, rfl, hlow⟩⟩
  · rename_i hten
    have hten := Nat.not_lt.mp hten
    have hsub : (idx - 10).toNat = idx.toNat - 10 := toNat_sub_le hten
    have hmap : (v.scene ino).block idx.toNat = ptrLoad (v.dev.disk ino.indirectBlock) (idx - 10).toNat := by
      rw [Scene.block_indirect hten, hsub]
      rfl
    simp only [wp_bind, wp_failIf, wp_silent, wp_note]
    refine ⟨fun hz => absurd hz (hopen hten).1, fun _ => ?_⟩
    refine wp_readBlk (fun c _ => ?_) (fun c hno => absurd ⟨hff, (hopen hten).2⟩ hno)
    rw [hmap]
    exact ⟨fun hz => ⟨hz, fun _ => List.mem_cons_self⟩, fun _ => ⟨⟨c, rfl⟩, rfl, fun _ => List.mem_cons_self⟩⟩

theorem writeChunk_touches (hff : v.dev.FaultFree) (sb : Superblock) {pos : UInt32}
    (hbc : (pos >>> 12).toNat < ino.blockCount.toNat)
    (hopen : (v.scene ino).Readable v.dev.toHtlConfig (pos >>> 12).toNat) (chunk : UInt32) (bytes : List UInt8) :
    wp (Tracked.writeChunk sb ino pos chunk bytes) (fun _ s' => Touches (v.scene ino) (pos >>> 12) s'.log)
      (fun _ s' => Touches (v.scene ino) (pos >>> 12) s'.log) ⟨v, log⟩ := by
  unfold Tracked.writeChunk
  simp only [wp_bind]
  refine (blockmapGet_touches hff hbc hopen).mono ?_ ?_
  · rintro b ⟨v₁, log₁⟩ ⟨_, hb, hptr⟩
    rw [wp_note]
    have htouch : Touches (v.scene ino) (pos >>> 12) (.data b :: log₁) :=
      ⟨fun hten => List.mem_cons_of_mem _ (hptr hten), fun _ => by rw [← hb]; exact List.mem_cons_self⟩
    exact wp_silent_log (I := Touches (v.scene ino) (pos >>> 12)) htouch
  · rintro e ⟨v₁, log₁⟩ ⟨hz, hptr⟩
    exact ⟨hptr, fun hne => absurd hz hne⟩

end

/-! ## 読み取り -/

theorem toNat_blockStart {i : Nat} (hi : i < 2 ^ 20) : (UInt32.ofNat (i * 4096)).toNat = i * 4096 :=
    toNat_ofNat_lt (by omega)

theorem read_touches {v : Vol} {ino : Inode} (hff : v.dev.FaultFree) (hfile : ino.entryType &&& entryFile ≠ 0) {i : Nat}
    (hsize : i * 4096 < ino.sizeBytes.toNat) (hbc : i < ino.blockCount.toNat)
    (hopen : (v.scene ino).Readable v.dev.toHtlConfig i) :
    wp (Tracked.fileRead ⟨0, 0⟩ ino (UInt32.ofNat (i * 4096)) 1)
      (fun _ s' => Touches (v.scene ino) (UInt32.ofNat i) s'.log)
      (fun _ s' => Touches (v.scene ino) (UInt32.ofNat i) s'.log) ⟨v, []⟩ := by
  have hmax := ino.sizeBytes.toNat_lt
  have hstart : (UInt32.ofNat (i * 4096)).toNat = i * 4096 := toNat_blockStart (by omega)
  have hi : (UInt32.ofNat i).toNat = i := toNat_ofNat_lt (by omega)
  have hpos : (UInt32.ofNat (i * 4096) + 0) >>> 12 = UInt32.ofNat i := by
    apply UInt32.toNat_inj.mp
    rw [UInt32.add_zero, toNat_shiftRight_twelve, hstart, hi, Nat.mul_div_cancel _ (by decide)]
  have hroot : inodeAccessCheck ⟨0, 0⟩ ino accessRead = .ok () := rfl
  unfold Tracked.fileRead
  simp only [wp_bind, wp_failIf, wp_ofExcept, wp_ite, wp_silent, wp_get]
  refine ⟨fun hno => absurd hno hfile, fun _ => ⟨fun _ _ => ⟨fun hout => ?_, fun _ => ?_⟩, fun e he => ?_⟩⟩
  · rcases hout with hge | hz
    · rw [ge_iff_le, UInt32.le_iff_toNat_le, hstart] at hge
      omega
    · exact absurd hz (by decide)
  · have hone : (if 1 > ino.sizeBytes - UInt32.ofNat (i * 4096) then ino.sizeBytes - UInt32.ofNat (i * 4096)
      else 1) = 1 := by
      refine if_neg ?_
      rw [gt_iff_lt, UInt32.lt_iff_toNat_lt, toNat_sub_le (by rw [hstart]; omega), hstart]
      change ¬ _ < 1
      omega
    rw [hone]
    unfold Tracked.readLoop
    rw [wp_bind]
    refine wp_loop (fun k acc s => (k = 0 → acc.1 = 0 ∧ s = ⟨v, []⟩) ∧
      (k = 1 → Touches (v.scene ino) (UInt32.ofNat i) s.log)) ⟨fun _ => ⟨rfl, rfl⟩, fun h => absurd h (by decide)⟩ ?_
      (fun _ _ h => h.2 rfl)
    rintro k ⟨done, out⟩ s hk ⟨hinit, _⟩
    have hk : k = 0 := Nat.lt_one_iff.mp hk
    obtain ⟨hdone, rfl⟩ := hinit hk
    simp only at hdone
    subst hk hdone
    rw [wp_ite]
    refine ⟨fun _ => ?_, fun hno => absurd (by decide : (0 : UInt32) < 1) hno⟩
    simp only [wp_bind, hpos]
    refine (blockmapGet_touches hff (by rw [hi]; exact hbc) (by rw [hi]; exact hopen)).mono ?_ ?_
    · rintro b ⟨v₁, log⟩ ⟨_, hb, hptr⟩
      simp only [wp_note, wp_silent]
      have htouch : Touches (v.scene ino) (UInt32.ofNat i) (.data b :: log) :=
        ⟨fun hten => List.mem_cons_of_mem _ (hptr hten), fun _ => by rw [← hb]; exact List.mem_cons_self⟩
      exact wp_readBlk (fun _ _ => ⟨fun h => absurd h (by decide), fun _ => htouch⟩) (fun _ _ => htouch)
    · rintro e ⟨v₁, log⟩ ⟨hz, hptr⟩
      exact ⟨hptr, fun hne => absurd hz hne⟩
  · rw [hroot] at he
    cases he

/-! ## 書き込み -/

/-- 番号 `i` の初めから、書ける最後の番号の一バイト目までの長さ。 -/
def Scene.reach (x : Scene) (i : Nat) : UInt32 := UInt32.ofNat ((min x.ino.blockCount.toNat 1034 - 1 - i) * 4096 + 1)

theorem Scene.toNat_reach (x : Scene) (i : Nat) :
    (x.reach i).toNat = (min x.ino.blockCount.toNat 1034 - 1 - i) * 4096 + 1 := toNat_ofNat_lt (by omega)

section

variable {v : Vol} {ino : Inode} {n : UInt32} {x : Scene} {i : Nat} {a : Access}

/-- 追加を繰り返して着く記録のもとで繰り返しが `a` に触れるなら、そこへ着く書き込みも `a` に触れる。 -/
theorem write_hits (hl : Layout v.sb) (hff : v.dev.FaultFree) (hs : Serves v.dev.toHtlConfig v.sb) (hgate : Gate v ino)
    (hn : n.toNat < v.sb.totalInodes.toNat) (hx : AppendsMany v.dev.toHtlConfig (v.scene ino) x)
    (hi : i < min x.ino.blockCount.toNat 1034) (buf : List UInt8)
    (hloop : ∀ s : Logged Vol Access, s.state.scene x.ino = x → s.state.dev.toHtlConfig = v.dev.toHtlConfig →
      wp (Tracked.writeLoop x.sb x.ino buf (UInt32.ofNat (i * 4096)) (x.reach i)) (fun _ s' => a ∈ s'.log)
        (fun _ s' => a ∈ s'.log) s) :
    wp (Tracked.fileWrite ⟨0, 0⟩ n buf (UInt32.ofNat (i * 4096)) (x.reach i)) (fun _ s' => a ∈ s'.log)
      (fun _ s' => a ∈ s'.log) ⟨⟨v, ino⟩, []⟩ := by
  have hstart : (UInt32.ofNat (i * 4096)).toNat = i * 4096 := toNat_blockStart (by omega)
  have hlen := x.toNat_reach i
  have hsum : (UInt32.ofNat (i * 4096) + x.reach i).toNat = i * 4096 + (x.reach i).toNat := by
    rw [toNat_add_lt (by rw [hstart, hlen]; omega), hstart]
  have hlast : ((UInt32.ofNat (i * 4096) + x.reach i - 1) >>> 12).toNat = min x.ino.blockCount.toNat 1034 - 1 := by
    rw [toNat_shiftRight_twelve, toNat_sub_le
      (by rw [hsum, hlen]; exact Nat.le_add_left_of_le (Nat.le_add_left 1 _)), hsum,
      hlen]
    change (i * 4096 + ((min x.ino.blockCount.toNat 1034 - 1 - i) * 4096 + 1) - 1) / 4096 = _
    omega
  have hroot : inodeAccessCheck ⟨0, 0⟩ ino accessWrite = .ok () := rfl
  unfold Tracked.fileWrite
  rw [wp_bind, wp_silent, wp_get, wp_bind, wp_failIf]
  refine ⟨fun hno => absurd hno hgate.file, fun _ => ?_⟩
  rw [wp_ite]
  refine ⟨fun hz => ?_, fun _ => ?_⟩
  · rw [hz] at hlen
    exact absurd hlen (Nat.succ_ne_zero _).symm
  rw [wp_bind, wp_ofExcept]
  refine ⟨fun _ _ => ?_, fun e he => absurd (hgate.writable.symm.trans he) (by intro h; cases h)⟩
  rw [wp_bind, wp_failIf]
  refine ⟨fun hno => absurd hgate.notReadonly hno, fun _ => ?_⟩
  rw [wp_bind, wp_ofExcept]
  refine ⟨fun _ _ => ?_, fun e he => absurd (hroot.symm.trans he) (by intro h; cases h)⟩
  rw [wp_bind, wp_failIf]
  refine ⟨fun hover => ?_, fun _ => ?_⟩
  · rw [hstart, hlen] at hover
    omega
  rw [wp_bind, wp_failIf]
  refine ⟨fun hno => absurd hn (Nat.not_lt.mpr (UInt32.le_iff_toNat_le.mp hno)), fun _ => ?_⟩
  rw [wp_bind]
  have hreach : ((UInt32.ofNat (i * 4096) + x.reach i - 1) >>> 12).toNat + 1 = x.ino.blockCount.toNat ∨
      (x = (FileState.scene ⟨v, ino⟩) ∧
        ((UInt32.ofNat (i * 4096) + x.reach i - 1) >>> 12).toNat < x.ino.blockCount.toNat) := by
    rw [hlast]
    rcases hx.blockCount_max with heq | hle
    · exact .inr ⟨heq, by omega⟩
    · exact .inl (by omega)
  have hensure := (erases_ensureBlocks ((UInt32.ofNat (i * 4096) + x.reach i - 1) >>> 12)).wp
    (s := ⟨⟨v, ino⟩, []⟩) (ensureBlocks_reaches hl hgate.writable hff hs hx hreach)
  refine hensure.mono ?_ (fun _ _ h => h.elim)
  rintro _ s₁ ⟨hscene, hconfig⟩
  have hino : s₁.state.inode = x.ino := congrArg Scene.ino hscene
  have hsb : s₁.state.vol.sb = x.sb := congrArg Scene.sb hscene
  rw [wp_bind, wp_silent, wp_get, wp_bind, wp_trackedOnVol, hino, hsb]
  refine (hloop ⟨s₁.state.vol, s₁.log⟩ (hino ▸ hscene) hconfig).mono ?_ (fun _ _ h => h)
  rintro ⟨written, failure⟩ ⟨v₂, log⟩ hlog
  rw [wp_bind, wp_silent, wp_modifyInode, wp_bind]
  refine wp.mono (wp_silent_log (I := fun log => a ∈ log) hlog) ?_ (fun _ _ h => h)
  intro _ s₃ hlog₃
  cases failure with
  | none => exact hlog₃
  | some e =>
      change wp (if _ then _ else _) _ _ _
      rw [wp_ite]
      exact ⟨fun _ => hlog₃, fun _ => hlog₃⟩

theorem writeLoop_touches (hff : v.dev.FaultFree) (sb : Superblock) (buf : List UInt8) {offset len : UInt32}
    (hpos : 0 < len.toNat) (hbc : (offset >>> 12).toNat < ino.blockCount.toNat)
    (hopen : (v.scene ino).Readable v.dev.toHtlConfig (offset >>> 12).toNat) {log : List Access} :
    wp (Tracked.writeLoop sb ino buf offset len) (fun _ s' => Touches (v.scene ino) (offset >>> 12) s'.log)
      (fun _ s' => Touches (v.scene ino) (offset >>> 12) s'.log) ⟨v, log⟩ := by
  unfold Tracked.writeLoop
  rw [wp_bind]
  refine wp_loop (fun k written s => (k = 0 → written = 0 ∧ s = ⟨v, log⟩) ∧
    (0 < k → Touches (v.scene ino) (offset >>> 12) s.log)) ⟨fun _ => ⟨rfl, rfl⟩, fun h => absurd h (Nat.lt_irrefl 0)⟩ ?_
    (fun _ _ h => h.2 hpos)
  rintro k written s hk ⟨hinit, htouch⟩
  have hchunk : wp (Tracked.writeChunk sb ino (offset + written) (chunkLen (offset + written) (len - written))
      ((buf.drop written.toNat).take (chunkLen (offset + written) (len - written)).toNat))
      (fun _ s' => Touches (v.scene ino) (offset >>> 12) s'.log)
      (fun _ s' => Touches (v.scene ino) (offset >>> 12) s'.log) s := by
    rcases Nat.eq_zero_or_pos k with hz | hlater
    · obtain ⟨rfl, rfl⟩ := hinit hz
      rw [UInt32.add_zero]
      exact writeChunk_touches hff sb hbc hopen _ _
    · exact (extends_writeChunk sb ino _ _ _ s).mono (fun _ _ h => (htouch hlater).mono h)
        (fun _ _ h => (htouch hlater).mono h)
  rw [wp_ite]
  refine ⟨fun _ => ?_, fun hno => ?_⟩
  · rw [wp_bind, wp_attempt]
    exact hchunk.mono (fun _ _ h => ⟨fun hz => absurd hz (Nat.succ_ne_zero k), fun _ => h⟩) (fun _ _ h => h)
  · rcases Nat.eq_zero_or_pos k with hz | hlater
    · obtain ⟨rfl, rfl⟩ := hinit hz
      exact absurd (UInt32.lt_iff_toNat_lt.mpr (show (0 : UInt32).toNat < len.toNat from hpos)) hno
    · exact htouch hlater

end

/-! ## 書き換えた間接ブロック -/

/-- 同じ内容を長さ `len` まで繰り返したバッファ。 -/
def cycle (blk : Block) (len : Nat) : List UInt8 := (List.range len).map fun p => blk[p % 4096]?.getD 0

theorem length_cycle (blk : Block) (len : Nat) : (cycle blk len).length = len := by
  unfold cycle
  rw [List.length_map, List.length_range]

theorem cycle_block (blk : Block) {len t : Nat} (h : (t + 1) * 4096 ≤ len) :
    ((cycle blk len).drop (t * 4096)).take 4096 = blk.toList := by
  unfold cycle
  refine List.ext_getElem? fun q => ?_
  rw [List.getElem?_take]
  split
  · rename_i hq
    rw [List.getElem?_drop, List.getElem?_map, List.getElem?_range (by omega), Option.map_some,
      show (t * 4096 + q) % 4096 = q by omega, Vector.getElem?_eq_getElem hq, Option.getD_some, Vector.getElem?_toList,
      Vector.getElem?_eq_getElem hq]
  · rename_i hq
    rw [Vector.getElem?_toList, Vector.getElem?_eq_none (Nat.not_lt.mp hq)]

/-- 追加を繰り返して着く記録で読めるブロックは、そこへ着く書き込みが触れる。 -/
theorem write_aims {v : Vol} {ino : Inode} {n : UInt32} {x : Scene} {i : Nat} (hl : Layout v.sb)
    (hff : v.dev.FaultFree) (hs : Serves v.dev.toHtlConfig v.sb) (hgate : Gate v ino)
    (hn : n.toNat < v.sb.totalInodes.toNat) (hx : AppendsMany v.dev.toHtlConfig (v.scene ino) x) (hi : i < 1034)
    (hbc : i < x.ino.blockCount.toNat) (hopen : x.Readable v.dev.toHtlConfig i) (hne : x.block i ≠ 0) :
    wp (Tracked.fileWrite ⟨0, 0⟩ n (cycle (Bytes.zero 4096) (x.reach i).toNat) (UInt32.ofNat (i * 4096)) (x.reach i))
      (fun _ s' => .data (x.block i) ∈ s'.log) (fun _ s' => .data (x.block i) ∈ s'.log) ⟨⟨v, ino⟩, []⟩ := by
  have hstart : (UInt32.ofNat (i * 4096) >>> 12).toNat = i := by
    rw [toNat_shiftRight_twelve, toNat_blockStart (by omega), Nat.mul_div_cancel _ (by decide)]
  refine write_hits hl hff hs hgate hn hx (Nat.lt_min.mpr ⟨hbc, hi⟩) _ fun s hscene hconfig => ?_
  have hdata : ∀ log : List Access, Touches (s.state.scene x.ino) (UInt32.ofNat (i * 4096) >>> 12) log →
      .data (x.block i) ∈ log := by
    intro log h
    have hmem := h.data
    rw [hstart, hscene] at hmem
    exact hmem hne
  refine (writeLoop_touches (by unfold HtlConfig.FaultFree; rw [hconfig]; exact hff) x.sb _ ?_
    (by rw [hstart]; exact hbc) ?_).mono (fun _ _ h => hdata _ h) (fun _ _ h => hdata _ h)
  · rw [x.toNat_reach]
    exact Nat.succ_pos _
  · rw [hstart, hscene, hconfig]
    exact hopen

/-- 論理番号 `j` のポインタだけをブロック 1 とした間接ブロック。 -/
def forgedBlock (j : Nat) : Block := ptrStore (Bytes.zero 4096) (j - 10) 1

/-- 番号 `i` から `t` 個のブロックを書いた状態。間接ブロックは偽のポインタに変わっている。 -/
structure Forging (c : HtlConfig) (x : Scene) (j t : Nat) (s : Vol) : Prop where
  sb : s.sb = x.sb
  config : s.dev.toHtlConfig = c
  start : t = 0 → s.dev.disk = x.disk
  forged : 0 < t → s.dev.disk x.ino.indirectBlock = forgedBlock j

section

variable {c : HtlConfig} {x : Scene} {i t : Nat} {v : Vol}

theorem Forging.faultFree {j : Nat} (h : Forging c x j t v) (hff : c.FaultFree) : v.dev.FaultFree := by
  unfold HtlConfig.FaultFree
  rw [h.config]
  exact hff

theorem Forging.reads {j : Nat} (h : Forging c x j t v) (hs : Serves c x.sb) (hdata : x.sb.IsData x.ino.indirectBlock) :
    v.dev.Reads x.ino.indirectBlock := by
  rw [h.config]
  exact (hs.writes _ hdata.2).toReads

/-- 偽のポインタをたどるまでは、元の並びを書く。 -/
theorem Forging.block (h : Forging c x (max (i + 1) 10) t v) (ht : i + t < max (i + 1) 10) :
    (v.scene x.ino).block (i + t) = x.block (i + t) := by
  rcases Nat.eq_zero_or_pos t with rfl | hlater
  · unfold Scene.block
    rw [show (v.scene x.ino).disk = x.disk from h.start rfl]
    rfl
  · rw [Scene.block_direct (by omega), Scene.block_direct (by omega)]
    rfl

/-- 書き換えた後は、番号 `j` のポインタがブロック 1 を指す。 -/
theorem Forging.forged_block {j : Nat} (h : Forging c x j t v) (ht : 0 < t) (hten : 10 ≤ j) (hj : j < 1034) :
    (v.scene x.ino).block j = 1 := by
  rw [Scene.block_indirect (by omega)]
  change ptrLoad (v.dev.disk x.ino.indirectBlock) (j - 10) = 1
  rw [h.forged ht]
  exact ptrLoad_ptrStore_same _ (by omega) 1

/-- 偽のポインタの手前のブロックは、どれもデータ領域にある。 -/
theorem forging_target (hl : Layout x.sb) (hs : Serves c x.sb) (hp : x.Pointed c)
    (hself : x.block i = x.ino.indirectBlock) (hdata : x.sb.IsData x.ino.indirectBlock) (hopen : x.Open (i + 1))
    (ht : i + t < max (i + 1) 10) : x.block (i + t) ≠ 0 ∧ x.sb.IsData (x.block (i + t)) := by
  have hlt := hopen.1
  have hne : x.block (i + t) ≠ 0 := by
    rcases Nat.eq_zero_or_pos t with rfl | hlater
    · rw [Nat.add_zero, hself]
      exact hl.data_ne_zero hdata
    · rw [Scene.block_direct (by omega)]
      exact hopen.2 _ (by omega) (by omega)
  exact ⟨hne, hp _ (by omega) (by omega) (fun _ => ⟨hl.data_ne_zero hdata, (hs.writes _ hdata.2).toReads⟩) hne⟩

/-- 偽のポインタを書くまでの一つ一つの書き込みは、どれも通る。 -/
theorem chunk_forges (hl : Layout x.sb) (hff : c.FaultFree) (hs : Serves c x.sb) (hp : x.Pointed c)
    (hself : x.block i = x.ino.indirectBlock) (hdata : x.sb.IsData x.ino.indirectBlock) (hopen : x.Open (i + 1))
    (h : Forging c x (max (i + 1) 10) t v) (ht : i + t < max (i + 1) 10) {pos : UInt32}
    (hpos : pos.toNat = (i + t) * 4096) {log : List Access} :
    wp (Tracked.writeChunk x.sb x.ino pos 4096
        (cryptoXform x.sb x.ino (forgedBlock (max (i + 1) 10)) x.ino.indirectBlock).toList)
      (fun _ s' => Forging c x (max (i + 1) 10) (t + 1) s'.state) (fun _ _ => False) ⟨v, log⟩ := by
  have hidx : (pos >>> 12).toNat = i + t := by rw [toNat_shiftRight_twelve, hpos, Nat.mul_div_cancel _ (by decide)]
  have hoff : pos &&& 4095 = 0 := by
    apply UInt32.toNat_inj.mp
    rw [toNat_and_4095, hpos, Nat.mul_mod_left]
    rfl
  have hbc : i + t < x.ino.blockCount.toNat := by
    have hlt := hopen.1
    omega
  have hff' := h.faultFree hff
  have hreadable : (v.scene x.ino).Readable v.dev.toHtlConfig (i + t) := fun _ =>
    ⟨hl.data_ne_zero hdata, h.reads hs hdata⟩
  have hblock := h.block ht
  obtain ⟨hne, hin⟩ := forging_target hl hs hp hself hdata hopen ht
  unfold Tracked.writeChunk
  simp only [wp_bind]
  refine (blockmapGet_touches hff' (by rw [hidx]; exact hbc) (by rw [hidx]; exact hreadable)).mono ?_ ?_
  · rintro b ⟨v₁, log₁⟩ ⟨⟨k, hstill⟩, hb, _⟩
    simp only at hstill
    rw [hidx, hblock] at hb
    subst hstill hb
    simp only [wp_note, wp_silent, wp_bind, wp_ite]
    refine ⟨fun _ => ?_, fun hno => absurd ⟨hoff, trivial⟩ hno⟩
    rw [Bytes.ofList_toList]
    refine wp_writeBlk (fun k' _ => ⟨h.sb, h.config, fun hz => absurd hz (Nat.succ_ne_zero t), fun _ => ?_⟩)
      (fun e k' _ hno => ?_)
    · change Function.update v.dev.disk (x.block (i + t)) _ x.ino.indirectBlock = _
      by_cases heq : x.block (i + t) = x.ino.indirectBlock
      · rw [heq, Function.update_self, cryptoXform_invol]
      · rw [Function.update_of_ne (Ne.symm heq)]
        rcases Nat.eq_zero_or_pos t with rfl | hlater
        · exact absurd hself heq
        · exact h.forged hlater
    · refine hno ⟨hff', ?_⟩
      change v.dev.Writes _
      rw [h.config]
      exact hs.writes _ hin.2
  · rintro e ⟨v₁, log₁⟩ ⟨hz, _⟩
    rw [hidx, hblock] at hz
    exact hne hz

/-- 間接ブロックを書き換えた後、偽のポインタの先のブロック 1 に触れる。 -/
theorem writeLoop_forges (hl : Layout x.sb) (hff : c.FaultFree) (hs : Serves c x.sb) (hp : x.Pointed c)
    (hself : x.block i = x.ino.indirectBlock) (hdata : x.sb.IsData x.ino.indirectBlock) (hopen : x.Open (i + 1))
    {s : Logged Vol Access} (hx : s.state.scene x.ino = x) (hc : s.state.dev.toHtlConfig = c) :
    wp (Tracked.writeLoop x.sb x.ino
        (cycle (cryptoXform x.sb x.ino (forgedBlock (max (i + 1) 10)) x.ino.indirectBlock) (x.reach i).toNat)
        (UInt32.ofNat (i * 4096)) (x.reach i))
      (fun _ s' => .data 1 ∈ s'.log) (fun _ s' => .data 1 ∈ s'.log) s := by
  have hlen := x.toNat_reach i
  have hlast := hopen.1
  have hi : i < 1034 := by omega
  have hstart : (UInt32.ofNat (i * 4096)).toNat = i * 4096 := toNat_blockStart (by omega)
  generalize hj : max (i + 1) 10 = j at hlast
  generalize hX : cryptoXform x.sb x.ino (forgedBlock j) x.ino.indirectBlock = X
  generalize hbuf : cycle X (x.reach i).toNat = buf
  unfold Tracked.writeLoop
  rw [wp_bind]
  refine wp_loop (fun k written s' => (k ≤ j - i → written.toNat = k * 4096 ∧ Forging c x j k s'.state) ∧
    (j - i < k → .data 1 ∈ s'.log)) ⟨fun _ => ⟨(Nat.zero_mul _).symm, ?_⟩, fun h => absurd h (Nat.not_lt_zero _)⟩ ?_
    (fun _ _ h => h.2 (by rw [hlen]; omega))
  · exact ⟨congrArg Scene.sb hx, hc, fun _ => congrArg Scene.disk hx, fun h => absurd h (Nat.lt_irrefl 0)⟩
  rintro k written ⟨v, log⟩ hk ⟨hbefore, hafter⟩
  simp only at hbefore hafter
  rcases Nat.lt_or_ge (j - i) k with hpast | hle
  · -- 触れたことは記録に残る。
    rw [wp_ite]
    refine ⟨fun _ => ?_, fun _ => hafter hpast⟩
    rw [wp_bind, wp_attempt]
    refine (extends_writeChunk x.sb x.ino _ _ _ ⟨v, log⟩).mono (fun _ _ h => ?_) (fun _ _ h => h.mem (hafter hpast))
    exact ⟨fun hle => absurd hle (by omega), fun _ => h.mem (hafter hpast)⟩
  obtain ⟨hwritten, hforging⟩ := hbefore hle
  have hlt : written < x.reach i := by
    rw [UInt32.lt_iff_toNat_lt, hwritten, hlen]
    omega
  have hpos : (UInt32.ofNat (i * 4096) + written).toNat = (i + k) * 4096 := by
    rw [toNat_add_lt (by rw [hstart, hwritten]; omega), hstart, hwritten]
    omega
  rw [wp_ite]
  refine ⟨fun _ => ?_, fun hno => absurd hlt hno⟩
  rw [wp_bind, wp_attempt]
  rcases Nat.eq_or_lt_of_le hle with heq | hless
  · -- 偽のポインタをたどる。
    have hidx : ((UInt32.ofNat (i * 4096) + written) >>> 12).toNat = j := by
      rw [toNat_shiftRight_twelve, hpos, Nat.mul_div_cancel _ (by decide)]
      omega
    have hptr : (v.scene x.ino).block j = 1 := hforging.forged_block (by omega) (by omega) (by omega)
    have htouch : ∀ log' : List Access, Touches (v.scene x.ino) ((UInt32.ofNat (i * 4096) + written) >>> 12) log' →
        .data 1 ∈ log' := by
      intro log' h
      have hmem := h.data
      rw [hidx, hptr] at hmem
      exact hmem (by decide)
    refine (writeChunk_touches (hforging.faultFree hff) x.sb
      (by rw [hidx]; exact lt_of_lt_of_le hlast (Nat.min_le_left _ _))
      (fun _ => ⟨hl.data_ne_zero hdata, hforging.reads hs hdata⟩) _ _).mono (fun _ _ h => ?_) (fun _ _ h => htouch _ h)
    exact ⟨fun hle => absurd hle (by omega), fun _ => htouch _ h⟩
  · have hchunk : chunkLen (UInt32.ofNat (i * 4096) + written) (x.reach i - written) = 4096 := by
      apply UInt32.toNat_inj.mp
      rw [toNat_chunkLen, hpos, toNat_sub_le (UInt32.le_iff_toNat_le.mp (UInt32.le_of_lt hlt)), hlen, hwritten]
      change _ = 4096
      omega
    have hbytes : (buf.drop written.toNat).take (4096 : UInt32).toNat = X.toList := by
      rw [← hbuf, hwritten]
      exact cycle_block X (by rw [hlen]; omega)
    rw [hchunk, hbytes, ← hX, ← hj]
    rw [← hj] at hforging
    refine (chunk_forges hl hff hs hp hself hdata hopen hforging (by omega) hpos).mono (fun _ s₁ h => ?_)
      (fun _ _ h => h.elim)
    refine ⟨fun _ => ⟨?_, h⟩, fun hlt => absurd hlt (by omega)⟩
    rw [toNat_add_lt (by rw [hwritten]; change k * 4096 + 4096 < _; omega), hwritten]
    change k * 4096 + 4096 = _
    omega

end

/-! ## 切り詰め -/

/-- 間接ブロックの終わりを越えたポインタに触れた。 -/
abbrev Overrun (log : List Access) : Prop := .pointer 1024 ∈ log

theorem extends_releaseTarget (ino : Inode) (idx : UInt32) (ibuf : Option Block) :
    Preserves Extends (Tracked.releaseTarget ino idx ibuf) := by
  unfold Tracked.releaseTarget
  refine .ite (.pure _) (.ite (.bind ?_ fun _ => .bind (extends_note _) fun _ => .pure _) (.pure _))
  cases ibuf with
  | some buf => exact .pure _
  | none => exact extends_silent _

section

variable {s : Logged FileState Access}

/-- 番号 `i` に来た。1034 番までは解放が通り、その先では、間接ブロックの終わりを越えた後である。 -/
structure Nearing (c : HtlConfig) (x : Scene) (k i : Nat) (ibuf : Option Block) (s : Logged FileState Access) :
    Prop where
  freeing : i ≤ 1034 → Freeing c x k i ibuf s.state
  overrun : 1034 < i → Overrun s.log

section

variable {c : HtlConfig} {x : Scene} {k : Nat} {idx : UInt32} {ibuf : Option Block}

theorem Nearing.of_overrun {i : Nat} (hge : 1034 < i) (h : Overrun s.log) : Nearing c x k i ibuf s :=
  ⟨fun hle => absurd hle (Nat.not_le.mpr hge), fun _ => h⟩

/-- 越えたことは、ブロックを返した後も記録に残る。 -/
theorem Overrun.free {i : Nat} (hge : 1034 < i) (r : UInt32 × Option Block) (h : Overrun s.log) :
    wp (Prog.whenever (r.1 ≠ 0) (Prog.silent (onVol (bitmapFree r.1)))) (fun _ s' => Nearing c x k i r.2 s')
      (fun _ s' => Overrun s'.log) s := by
  rw [wp_whenever]
  refine ⟨fun _ => ?_, fun _ => .of_overrun hge h⟩
  exact wp.mono (wp_silent_log (I := Overrun) h) (fun _ _ h => .of_overrun hge h) (fun _ _ h => h)

/-- 断られるポインタがなければ、解放は次の番号に進む。 -/
theorem Nearing.step (h : Nearing c x k idx.toNat ibuf s) (hl : Layout x.sb) (hff : c.FaultFree) (hs : Serves c x.sb)
    (hind : x.ino.indirectBlock ≠ 0) (hreads : c.Reads x.ino.indirectBlock) (hgo : ¬ x.Stops k) (hk : k ≤ idx.toNat) :
    wp (Tracked.releaseTarget x.ino idx ibuf) (fun r s₂ =>
        wp (Prog.whenever (r.1 ≠ 0) (Prog.silent (onVol (bitmapFree r.1))))
          (fun _ s' => Nearing c x k (idx.toNat + 1) r.2 s') (fun _ s' => Overrun s'.log) s₂)
      (fun _ s' => Overrun s'.log) s := by
  rcases Nat.lt_trichotomy idx.toNat 1034 with hlow | heq | hhigh
  · -- 1034 番に着くまでは、どの解放も通る。
    have hfreeing := h.freeing hlow.le
    refine (releaseTarget_aimed hfreeing hk).mono (fun r s₂ haimed => ?_)
      (fun _ _ hno => absurd ⟨hff, hreads⟩ hno.2.2.2)
    have hgood : x.freeTarget k idx.toNat ≠ 0 → x.sb.IsData (x.freeTarget k idx.toNat) := by
      intro hne
      by_contra hout
      exact hgo ⟨_, hk, by omega, hne, hout⟩
    refine (haimed.free hl hfreeing hk).mono ?_ ?_
    · exact fun _ _ hnext => ⟨fun _ => hnext.1, fun hlt => absurd hlt (by omega)⟩
    · exact fun _ _ hno => absurd ⟨hgood hno.2.1, hff, hs⟩ hno.2.2
  · refine (releaseTarget_aimed (h.freeing heq.le) hk).mono (fun r s₂ haimed => ?_)
      (fun _ _ hno => absurd ⟨hff, hreads⟩ hno.2.2.2)
    have hlast : idx - 10 = 1024 := by
      apply UInt32.toNat_inj.mp
      rw [toNat_sub_le (by rw [heq]; decide), heq]
      rfl
    refine Overrun.free (by omega) r ?_
    rw [(haimed.indirect (by omega) hind).2.2, hlast]
    exact List.mem_cons_self
  · refine (extends_releaseTarget x.ino idx ibuf s).mono (fun r s₂ hext => ?_)
      (fun _ _ hext => hext.mem (h.overrun hhigh))
    exact Overrun.free (by omega) r (hext.mem (h.overrun hhigh))

end

/-- 失敗のない装置で、断られるポインタがなければ、解放は 1034 番に着き、間接ブロックの終わりを越えて読む。 -/
theorem release_overruns (hl : Layout s.state.vol.sb) (hff : s.state.vol.dev.FaultFree)
    (hs : Serves s.state.vol.dev.toHtlConfig s.state.vol.sb) (hw : volumeWritable s.state.vol.sb = .ok ())
    (hind : s.state.inode.indirectBlock ≠ 0) (hreads : s.state.vol.dev.Reads s.state.inode.indirectBlock)
    (hbc : 1034 < s.state.inode.blockCount.toNat) {fromIdx : UInt32} (hfrom : fromIdx.toNat ≤ 1034)
    (hgo : ¬ s.state.scene.Stops fromIdx.toNat) :
    wp (Tracked.blockmapRelease fromIdx) (fun _ s' => Overrun s'.log) (fun _ s' => Overrun s'.log) s := by
  have hmax := s.state.inode.blockCount.toNat_lt
  unfold Tracked.blockmapRelease
  rw [wp_bind, wp_silent, wp_get, wp_bind, wp_ofExcept]
  refine ⟨fun _ _ => ?_, fun e he => absurd (hw.symm.trans he) (by intro h; cases h)⟩
  rw [wp_ite]
  refine ⟨fun hge => ?_, fun _ => ?_⟩
  · rw [ge_iff_le, UInt32.le_iff_toNat_le] at hge
    omega
  have hcount : (s.state.inode.blockCount - fromIdx).toNat = s.state.inode.blockCount.toNat - fromIdx.toNat :=
    toNat_sub_le (by omega)
  rw [wp_bind]
  refine wp_loop
    (fun k ibuf s' => Nearing s.state.vol.dev.toHtlConfig s.state.scene fromIdx.toNat (fromIdx.toNat + k) ibuf s')
    ⟨fun _ => Freeing.start rfl rfl _, fun h => absurd hfrom (by omega)⟩ ?_ ?_
  · intro k ibuf s₁ hk hnear
    rw [hcount] at hk
    have hidx : (fromIdx + UInt32.ofNat k).toNat = fromIdx.toNat + k := by
      rw [toNat_add_lt (by rw [toNat_ofNat_lt (by omega)]; omega), toNat_ofNat_lt (by omega)]
    rw [← hidx] at hnear
    rw [wp_bind]
    refine (hnear.step hl hff hs hind hreads hgo (by omega)).mono (fun r s₂ hfree => ?_) (fun _ _ h => h)
    rw [wp_bind]
    refine hfree.mono (fun _ s₃ hnext => ?_) (fun _ _ h => h)
    rwa [hidx, Nat.add_assoc] at hnext
  · intro ibuf s₁ hnear
    exact wp_silent_log (I := Overrun) (hnear.overrun (by omega))

theorem truncate_overruns {v : Vol} {ino : Inode} {n : UInt32} (hl : Layout v.sb) (hff : v.dev.FaultFree)
    (hs : Serves v.dev.toHtlConfig v.sb) (hgate : Gate v ino) (hn : n.toNat < v.sb.totalInodes.toNat)
    (hsize : ino.sizeBytes ≠ 0) (hbc : 1034 < ino.blockCount.toNat) (hind : ino.indirectBlock ≠ 0)
    (hreads : v.dev.Reads ino.indirectBlock) {k : Nat} (hmax : k ≤ 1034) (hk : k * 4096 < ino.sizeBytes.toNat + 4095)
    (hgo : ¬ (v.scene ino).Stops k) :
    wp (Tracked.fileTruncate ⟨0, 0⟩ n (UInt32.ofNat (k * 4096 - 4095))) (fun _ s' => Overrun s'.log)
      (fun _ s' => Overrun s'.log) ⟨⟨v, ino⟩, []⟩ := by
  have hpos : 0 < ino.sizeBytes.toNat := Nat.pos_of_ne_zero fun hz => hsize (UInt32.toNat_inj.mp hz)
  generalize hto : UInt32.ofNat (k * 4096 - 4095) = size
  have hsize' : size.toNat = k * 4096 - 4095 := by rw [← hto, toNat_ofNat_lt (by omega)]
  have hkeep : (blocksFor size).toNat = k := by
    rw [toNat_blocksFor, hsize']
    omega
  have hroot : inodeAccessCheck ⟨0, 0⟩ ino accessWrite = .ok () := rfl
  unfold Tracked.fileTruncate
  rw [wp_bind, wp_silent, wp_get, wp_bind, wp_failIf]
  refine ⟨fun hno => absurd hno hgate.file, fun _ => ?_⟩
  rw [wp_bind, wp_ofExcept]
  refine ⟨fun _ _ => ?_, fun e he => absurd (hgate.writable.symm.trans he) (by intro h; cases h)⟩
  rw [wp_bind, wp_failIf]
  refine ⟨fun hno => absurd hgate.notReadonly hno, fun _ => ?_⟩
  rw [wp_bind, wp_ofExcept]
  refine ⟨fun _ _ => ?_, fun e he => absurd (hroot.symm.trans he) (by intro h; cases h)⟩
  rw [wp_ite]
  refine ⟨fun hge => ?_, fun _ => ?_⟩
  · rw [ge_iff_le, UInt32.le_iff_toNat_le, hsize'] at hge
    change ino.sizeBytes.toNat ≤ _ at hge
    omega
  rw [wp_bind, wp_failIf]
  refine ⟨fun hno => absurd hn (Nat.not_lt.mpr (UInt32.le_iff_toNat_le.mp hno)), fun _ => ?_⟩
  rw [wp_bind, wp_whenever]
  refine ⟨fun _ => ?_, fun hno => absurd ?_ hno⟩
  · refine (release_overruns (s := ⟨⟨v, ino⟩, []⟩) hl hff hs hgate.writable hind hreads hbc (by rw [hkeep]; exact hmax)
      (by rw [hkeep]; exact hgo)).mono ?_ (fun _ _ h => h)
    intro _ s₁ hlog
    rw [wp_bind, wp_silent, wp_modifyInode]
    exact wp_silent_log (I := Overrun) hlog
  · rw [UInt32.lt_iff_toNat_lt, hkeep]
    exact lt_of_le_of_lt hmax hbc

end

end OwStorage.Owfs
