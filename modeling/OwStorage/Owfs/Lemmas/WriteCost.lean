import OwStorage.Owfs.Lemmas.Ledger

/-!
# 書き込みに要る空きの数

ブロックの用意は、一回ごとに一つか二つの空きを使う。失敗のない装置では、空きの数が要る数に足りるかどうかだけで、
書き込みの成否が決まる。
-/

namespace OwStorage.Owfs

open Lib Prog

/-- ブロックの数を `c` から `c'` に増やすのに要る空きの数。 -/
def growCost (c c' : Nat) : Nat := (c' - c) + if c ≤ 10 ∧ 10 < c' then 1 else 0

theorem growCost_of_le {c c' : Nat} (h : c' ≤ c) : growCost c c' = 0 := by
  unfold growCost
  rw [if_neg (by omega)]
  omega

theorem growCost_succ {c k : Nat} (h : c ≤ k) : growCost c (k + 1) = growCost c k + stepCost k := by
  unfold growCost stepCost
  by_cases hk : k = 10
  · rw [if_pos (by omega), if_neg (by omega), if_pos hk]
    omega
  · rw [if_neg hk]
    by_cases hc : c ≤ 10 ∧ 10 < k
    · rw [if_pos (by omega), if_pos hc]
      omega
    · rw [if_neg (by omega), if_neg hc]
      omega

theorem growCost_mono {c k k' : Nat} (h : k ≤ k') : growCost c k ≤ growCost c k' := by
  unfold growCost
  split <;> split <;> omega

/-- ブロックの用意が、番号 `blockCount` で空きが尽きて止まった。 -/
structure RanShort (f : UInt32 → Inode) (n : UInt32) (s s' : FileState) (last : Nat) : Prop where
  ext : Ext f n s s'
  reached : s'.inode.blockCount.toNat ≤ last
  spent : s.vol.sb.freeBlocks.toNat = s'.vol.sb.freeBlocks.toNat +
    growCost s.inode.blockCount.toNat s'.inode.blockCount.toNat
  short : s'.vol.sb.freeBlocks.toNat < stepCost s'.inode.blockCount.toNat
  start : s'.inode.blockCount.toNat = s.inode.blockCount.toNat → s'.inode = s.inode ∧ Unspent s.vol s'.vol

section

variable {f : UInt32 → Inode} {n : UInt32} {s s' : FileState} {last : Nat}

theorem RanShort.needs_more (h : RanShort f n s s' last) :
    s.vol.sb.freeBlocks.toNat < growCost s.inode.blockCount.toNat (last + 1) := by
  have hstep := growCost_succ h.ext.count
  have hmono := growCost_mono (c := s.inode.blockCount.toNat) (Nat.add_le_add_right h.reached 1)
  have hspent := h.spent
  have hshort := h.short
  omega

theorem ensureBlocks_grows (h : Sound s.vol.dev.disk s.vol.sb (Function.update f n s.inode))
    (hn : n.toNat < s.vol.sb.totalInodes.toNat) (hx : FreeExact s.vol.dev.disk s.vol.sb) {lastBlock : UInt32} :
    wp (ensureBlocks lastBlock)
      (fun _ s' => s.vol.sb.freeBlocks.toNat = s'.vol.sb.freeBlocks.toNat +
        growCost s.inode.blockCount.toNat (lastBlock.toNat + 1))
      (fun e s' => s.vol.dev.FaultFree ∧ Serves s.vol.dev.toHtlConfig s.vol.sb → volumeWritable s.vol.sb = .ok () →
        lastBlock.toNat < 1034 → e = .noFreeBlocks ∧ RanShort f n s s' lastBlock.toNat) s := by
  unfold ensureBlocks
  simp only [wp_bind, wp_get]
  refine wp_loop (fun k _ s' => Ext f n s s' ∧ s'.inode.blockCount.toNat = s.inode.blockCount.toNat + k ∧
    s.vol.sb.freeBlocks.toNat = s'.vol.sb.freeBlocks.toNat +
      growCost s.inode.blockCount.toNat (s.inode.blockCount.toNat + k) ∧ (k = 0 → s' = s))
    ⟨Ext.ofRoom (Room.refl h) hn, rfl, by rw [Nat.add_zero, growCost_of_le le_rfl]; rfl, fun _ => rfl⟩ ?_ ?_
  · rintro k _ s₁ hk ⟨he, hcount, hfree, hstart⟩
    have hn₁ : n.toNat < s₁.vol.sb.totalInodes.toNat := by rwa [he.shape.totalInodes]
    have hon₁ : s.vol.dev.FaultFree ∧ Serves s.vol.dev.toHtlConfig s.vol.sb →
        s₁.vol.dev.FaultFree ∧ Serves s₁.vol.dev.toHtlConfig s₁.vol.sb := fun hon => by
      refine ⟨he.dev.faultFree hon.1, ?_⟩
      rw [he.dev.config]
      exact he.shape.serves hon.2
    simp only [wp_bind, wp_get, wp_ite]
    refine ⟨fun _ => ?_, fun hgt => absurd (UInt32.le_iff_toNat_le.mpr (by omega)) hgt⟩
    refine ((blockmapEnsure_spec hn₁ he.sound).and
      (blockmapEnsure_grows hn₁ he.sound)).mono ?_ ?_
    · rintro b s₂ ⟨hp, S, hg⟩
      have hstep := hg.exact (he.exact hx)
      have hcost := growCost_succ (c := s.inode.blockCount.toNat) (Nat.le_add_right _ k)
      rw [hcount] at hstep
      refine ⟨he.trans hp.ext, by rw [hp.count, hcount]; omega, ?_, fun h0 => absurd h0 (Nat.succ_ne_zero k)⟩
      rw [← Nat.add_assoc, hcost]
      omega
    · rintro e s₂ ⟨⟨he', hino⟩, hd⟩ hon hw hlast
      have hd := hd (hon₁ hon) (by rwa [he.shape.volumeWritable]) (by omega)
      refine ⟨hd.error, he.trans he', ?_, ?_, ?_, fun hsame => ?_⟩
      · rw [hino, hcount]
        omega
      · rw [hino, hcount, hd.unspent.sb]
        exact hfree
      · rw [hino, hd.unspent.sb]
        exact hd.exact (he.exact hx)
      · rw [hino, hcount] at hsame
        obtain rfl := hstart (by omega)
        exact ⟨hino, hd.unspent⟩
  · rintro _ s₁ ⟨_, _, hfree, _⟩
    change s.vol.sb.freeBlocks.toNat = _
    by_cases hle : s.inode.blockCount.toNat ≤ lastBlock.toNat + 1
    · rwa [show s.inode.blockCount.toNat + (lastBlock.toNat + 1 - s.inode.blockCount.toNat) = lastBlock.toNat + 1 by
        omega] at hfree
    · rw [growCost_of_le (by omega)] at hfree
      rwa [growCost_of_le (by omega)]

theorem ensureBlocks_exact (h : Sound s.vol.dev.disk s.vol.sb (Function.update f n s.inode))
    (hn : n.toNat < s.vol.sb.totalInodes.toNat) (hf : s.vol.dev.FaultFree)
    (hs : Serves s.vol.dev.toHtlConfig s.vol.sb) (hw : volumeWritable s.vol.sb = .ok ())
    (hx : FreeExact s.vol.dev.disk s.vol.sb) {lastBlock : UInt32} (hlast : lastBlock.toNat < 1034) :
    wp (ensureBlocks lastBlock)
      (fun _ s' => s.vol.sb.freeBlocks.toNat = s'.vol.sb.freeBlocks.toNat +
        growCost s.inode.blockCount.toNat (lastBlock.toNat + 1))
      (fun e s' => e = .noFreeBlocks ∧ RanShort f n s s' lastBlock.toNat) s :=
  (ensureBlocks_grows h hn hx).mono (fun _ _ hfree => hfree) (fun _ _ hshort => hshort ⟨hf, hs⟩ hw hlast)

/-- 用意した新しいブロックは、空きの並びの先頭から順に取った、0 で埋めたブロックである。 -/
structure Supplied (s s' : FileState) : Prop where
  taken : ∀ i, s.inode.blockCount.toNat ≤ i → i < s'.inode.blockCount.toNat →
    (freeList s.vol)[growCost s.inode.blockCount.toNat i]? = some (mapBlock s'.vol.dev.disk s'.inode i)
  zeroed : ∀ i, s.inode.blockCount.toNat ≤ i → i < s'.inode.blockCount.toNat →
    s'.vol.dev.disk (mapBlock s'.vol.dev.disk s'.inode i) = Bytes.zero 4096
  rest : freeList s'.vol = (freeList s.vol).drop (growCost s.inode.blockCount.toNat s'.inode.blockCount.toNat)

theorem Supplied.refl (s : FileState) : Supplied s s :=
  ⟨fun _ hlo hhi => absurd hhi (Nat.not_lt.mpr hlo), fun _ hlo hhi => absurd hhi (Nat.not_lt.mpr hlo), by
    rw [growCost_of_le le_rfl]
    rfl⟩

theorem Supplied.push {s₁ : FileState} {b : UInt32} {S : Finset UInt32} (h : Supplied s s₁) (he : Ext f n s s₁)
    (hn : n.toNat < s₁.vol.sb.totalInodes.toNat) (hp : Pushed f n s₁ s' b)
    (hg : Grown s₁.vol s'.vol s₁.inode.blockCount.toNat s'.inode.indirectBlock b S) : Supplied s s' := by
  have hcost := growCost_succ he.count
  have hstep : freeList s₁.vol = b :: (freeList s₁.vol).tail ∧
      freeList s'.vol = (freeList s₁.vol).drop (stepCost s₁.inode.blockCount.toNat) := by
    rw [hg.taken]
    unfold stepCost
    split <;> exact ⟨rfl, rfl⟩
  refine ⟨fun i hlo hhi => ?_, fun i hlo hhi => ?_, ?_⟩
  · rw [hp.count] at hhi
    by_cases hlast : i = s₁.inode.blockCount.toNat
    · have hhead := hstep.1
      rw [h.rest] at hhead
      rw [hlast, hp.last, ← Nat.add_zero (growCost _ _), ← List.getElem?_drop, hhead]
      rfl
    · rw [h.taken i hlo (by omega), hp.ext.keeps i (by omega)]
  · rw [hp.count] at hhi
    by_cases hlast : i = s₁.inode.blockCount.toNat
    · rw [hlast, hp.last]
      exact hg.zeroed
    · rw [hp.ext.block_eq he.sound hn (by omega)]
      exact h.zeroed i hlo (by omega)
  · rw [hstep.2, h.rest, List.drop_drop, hp.count, hcost]

theorem ensureBlocks_supplies (h : Sound s.vol.dev.disk s.vol.sb (Function.update f n s.inode))
    (hn : n.toNat < s.vol.sb.totalInodes.toNat) (hf : s.vol.dev.FaultFree)
    (hs : Serves s.vol.dev.toHtlConfig s.vol.sb) (hw : volumeWritable s.vol.sb = .ok ()) {lastBlock : UInt32}
    (hlast : lastBlock.toNat < 1034) :
    wp (ensureBlocks lastBlock) (fun _ s' => Supplied s s') (fun _ _ => True) s := by
  unfold ensureBlocks
  simp only [wp_bind, wp_get]
  refine wp_loop (fun _ _ s' => Ext f n s s' ∧ Supplied s s') ⟨Ext.ofRoom (Room.refl h) hn, .refl s⟩ ?_
    (fun _ _ hI => hI.2)
  rintro k _ s₁ hk ⟨he, hsup⟩
  have hn₁ : n.toNat < s₁.vol.sb.totalInodes.toNat := by rwa [he.shape.totalInodes]
  have hf₁ : s₁.vol.dev.FaultFree := he.dev.faultFree hf
  have hs₁ : Serves s₁.vol.dev.toHtlConfig s₁.vol.sb := by
    rw [he.dev.config]
    exact he.shape.serves hs
  have hw₁ : volumeWritable s₁.vol.sb = .ok () := by rwa [he.shape.volumeWritable]
  simp only [wp_bind, wp_get, wp_ite]
  refine ⟨fun hle => ?_, fun _ => hsup⟩
  rw [UInt32.le_iff_toNat_le] at hle
  refine ((blockmapEnsure_spec hn₁ he.sound).and
    (blockmapEnsure_exact hn₁ he.sound hf₁ hs₁ hw₁ (by omega))).mono ?_ (fun _ _ _ => trivial)
  rintro b s₂ ⟨hp, S, hg⟩
  exact ⟨he.trans hp.ext, hsup.push he hn₁ hp hg⟩

/-! ## 書き込み -/

/-- 長さのある書き込みを、空きの数のほかでは断らない条件。 -/
structure Permits (who : OwIdentity) (s : FileState) (offset len : UInt32) : Prop where
  file : s.inode.entryType &&& entryFile ≠ 0
  nonempty : len ≠ 0
  writable : volumeWritable s.vol.sb = .ok ()
  unfenced : ¬ Fenced who s.inode
  fits : offset.toNat + len.toNat ≤ 1034 * 4096

/-- 書き込みの最後のバイトの論理番号。 -/
def lastBlockOf (offset len : UInt32) : Nat := (offset.toNat + len.toNat - 1) / 4096

theorem lastBlockOf_lt_iff {offset len : UInt32} (hlen : len.toNat ≠ 0) (k : Nat) :
    lastBlockOf offset len < k ↔ offset.toNat + len.toNat ≤ k * 4096 := by
  unfold lastBlockOf
  omega

theorem Permits.idle_fileWrite_of_not {who : OwIdentity} {buf : List UInt8} {offset len : UInt32}
    (h : ¬ Permits who s offset len) : Idle (fileWrite who n buf offset len) s := by
  unfold fileWrite
  refine .get_bind ?_
  by_cases hfile : s.inode.entryType &&& entryFile = 0
  · exact .stopped hfile
  refine .failIf_bind ?_
  by_cases hlen : len = 0
  · rw [if_pos hlen]
    exact .pure _
  rw [if_neg hlen]
  by_cases hw : volumeWritable s.vol.sb = .ok ()
  swap
  · exact .refused fun _ hok => hw hok
  refine .ofExcept_bind fun _ => ?_
  by_cases hf : Fenced who s.inode
  · exact hf.idle _ _
  by_cases hfit : offset.toNat + len.toNat ≤ 1034 * 4096
  · exact absurd ⟨hfile, hlen, hw, hf, hfit⟩ h
  · exact .failIf_bind (.ofExcept_bind fun _ => .stopped (Nat.lt_of_not_le hfit))

/-- 通った書き込みの段階。`s₁` はブロックを用意した後、`v₂` はデータを書いた後である。 -/
structure Stages (f : UInt32 → Inode) (n : UInt32) (s s₁ : FileState) (v₂ : Vol) (s' : FileState)
    (offset len : UInt32) (data : List UInt8) : Prop where
  ext : Ext f n s s₁
  supplied : Supplied s s₁
  reach : offset.toNat + len.toNat ≤ s₁.inode.blockCount.toNat * 4096
  wrote : Wrote s₁.inode s₁.vol v₂ offset.toNat data
  inode : s'.inode = (s₁.inode.resized (offset + len)).sealed
  recorded : Recorded v₂ s'.vol n (s₁.inode.resized (offset + len)).sealed
  free : FreeExact s.vol.dev.disk s.vol.sb → s.vol.sb.freeBlocks.toNat = s'.vol.sb.freeBlocks.toNat +
    growCost s.inode.blockCount.toNat (lastBlockOf offset len + 1)

theorem fileWrite_stages (h : Sound s.vol.dev.disk s.vol.sb (Function.update f n s.inode))
    (hn : n.toNat < s.vol.sb.totalInodes.toNat) (hp : inodeAt s.vol.dev.disk s.vol.sb n = s.inode)
    (hf : s.vol.dev.FaultFree) (hs : Serves s.vol.dev.toHtlConfig s.vol.sb) {who : OwIdentity} {buf : List UInt8}
    {offset len : UInt32} (hbuf : len.toNat ≤ buf.length) (hok : Permits who s offset len) :
    wp (fileWrite who n buf offset len)
      (fun w s' => w = len ∧ ∃ s₁ v₂, Stages f n s s₁ v₂ s' offset len (buf.take len.toNat))
      (fun e s' => FreeExact s.vol.dev.disk s.vol.sb →
        e = .noFreeBlocks ∧ RanShort f n s s' (lastBlockOf offset len)) s := by
  have hlen : len.toNat ≠ 0 := fun hz => hok.nonempty (UInt32.toNat_inj.mp hz)
  have hfit := hok.fits
  have hsum : (offset + len).toNat = offset.toNat + len.toNat := toNat_add_lt (by omega)
  have hlast : ((offset + len - 1) >>> 12).toNat = lastBlockOf offset len := by
    rw [toNat_shiftRight_twelve, toNat_sub_le (by rw [hsum]; change 1 ≤ _; omega), hsum]
    rfl
  have hsmall : ((offset + len - 1) >>> 12).toNat < 1034 := by
    rw [hlast]
    exact (lastBlockOf_lt_iff hlen 1034).mpr hfit
  -- 空きの勘定は、空きの数の欄が正しいときにだけ言える。
  have hcost : wp (ensureBlocks ((offset + len - 1) >>> 12))
      (fun _ s' => FreeExact s.vol.dev.disk s.vol.sb → s.vol.sb.freeBlocks.toNat = s'.vol.sb.freeBlocks.toNat +
        growCost s.inode.blockCount.toNat (lastBlockOf offset len + 1))
      (fun e s' => FreeExact s.vol.dev.disk s.vol.sb →
        e = .noFreeBlocks ∧ RanShort f n s s' (lastBlockOf offset len)) s := by
    by_cases hx : FreeExact s.vol.dev.disk s.vol.sb
    · have hexact := ensureBlocks_exact h hn hf hs hok.writable hx hsmall
      rw [hlast] at hexact
      exact hexact.mono (fun _ _ hq _ => hq) (fun _ _ he _ => he)
    · exact wp_trivial.mono (fun _ _ _ hno => absurd hno hx) (fun _ _ _ hno => absurd hno hx)
  unfold fileWrite
  simp only [wp_bind, wp_get, wp_failIf, wp_ite, wp_ofExcept]
  refine ⟨fun hno => absurd hno hok.file, fun _ => ⟨fun hno => absurd hno hok.nonempty, fun _ => ⟨fun _ _ =>
    ⟨fun hro => absurd (.inl hro) hok.unfenced, fun _ =>
      ⟨fun _ _ => ⟨fun hbig => absurd hfit (Nat.not_le.mpr hbig), fun _ =>
    ⟨fun hout => absurd hn (Nat.not_lt.mpr (UInt32.le_iff_toNat_le.mp hout)), fun _ => ?_⟩⟩, fun e he => ?_⟩⟩,
    fun e he => ?_⟩⟩⟩
  · refine (((ensureBlocks_spec h hn _).and (ensureBlocks_supplies h hn hf hs hok.writable hsmall)).and hcost).mono ?_
      (fun _ _ he => he.2)
    rintro _ s₁ ⟨⟨⟨he, hcount⟩, hsup⟩, hfree⟩
    rw [hlast] at hcount
    have hn₁ : n.toNat < s₁.vol.sb.totalInodes.toNat := by rwa [he.shape.totalInodes]
    have hend : offset.toNat + len.toNat ≤ s₁.inode.blockCount.toNat * 4096 :=
      (lastBlockOf_lt_iff hlen _).mp hcount
    rw [wp_onVol]
    refine (writeLoop_spec he.sound hn₁ hbuf hend).mono ?_ (fun _ _ hno => hno.elim)
    rintro ⟨w, failure⟩ v₂ ⟨_, hdone, hw, hgood⟩
    have hs₁ : Serves s₁.vol.dev.toHtlConfig s₁.vol.sb := by
      rw [he.dev.config]
      exact he.shape.serves hs
    obtain rfl : failure = none := hgood ⟨he.dev.faultFree hf, hs₁⟩
    obtain rfl : w = len := hdone rfl
    have hold := hw.settled he h hn hp
    have hserves : Serves v₂.dev.toHtlConfig v₂.sb := by
      rw [hold.dev.config]
      exact hold.shape.serves hs
    rw [wp_modifyInode]
    refine (inodeWrite_spec hold.sound.layout n).mono ?_ ?_
    · rintro _ s' ⟨hino, hr⟩
      refine ⟨rfl, s₁, v₂, he, hsup, hend, hw, hino, hr, fun hx => ?_⟩
      rw [hr.sb]
      change s.vol.sb.freeBlocks.toNat = v₂.sb.freeBlocks.toNat + _
      rw [hw.sb]
      exact hfree hx
    · rintro e s₃ ⟨_, hno⟩
      refine absurd ⟨?_, ?_⟩ (hno ⟨hold.dev.faultFree hf, hserves⟩)
      · change n.toNat < v₂.sb.totalInodes.toNat
        rwa [hold.shape.totalInodes]
      · change volumeWritable v₂.sb = .ok ()
        rw [hold.shape.volumeWritable]
        exact hok.writable
  · exact absurd (.inr fun hacc => by rw [hacc] at he; cases he) hok.unfenced
  · rw [hok.writable] at he
    cases he

/-- 失敗のない装置での書き込み。空きが足りれば全部を書き、足りなければ途中で止まる。 -/
theorem fileWrite_exact (h : Sound s.vol.dev.disk s.vol.sb (Function.update f n s.inode))
    (hn : n.toNat < s.vol.sb.totalInodes.toNat) (hp : inodeAt s.vol.dev.disk s.vol.sb n = s.inode)
    (hf : s.vol.dev.FaultFree) (hs : Serves s.vol.dev.toHtlConfig s.vol.sb) (hx : FreeExact s.vol.dev.disk s.vol.sb)
    {who : OwIdentity} {buf : List UInt8} {offset len : UInt32} (hbuf : len.toNat ≤ buf.length)
    (hok : Permits who s offset len) :
    wp (fileWrite who n buf offset len)
      (fun w s' => w = len ∧ s.vol.sb.freeBlocks.toNat = s'.vol.sb.freeBlocks.toNat +
        growCost s.inode.blockCount.toNat (lastBlockOf offset len + 1))
      (fun e s' => e = .noFreeBlocks ∧ RanShort f n s s' (lastBlockOf offset len)) s := by
  refine (fileWrite_stages h hn hp hf hs hbuf hok).mono ?_ (fun _ _ he => he hx)
  rintro w s' ⟨hw, _, _, hst⟩
  exact ⟨hw, hst.free hx⟩

end

end OwStorage.Owfs
