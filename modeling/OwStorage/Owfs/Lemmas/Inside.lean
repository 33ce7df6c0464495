import OwStorage.Owfs.Lemmas.Access
import OwStorage.Owfs.Lemmas.Append
import OwStorage.Owfs.Lemmas.File

/-!
# 範囲の中にだけ触れる操作

記録の中の大きさとポインタから、読み取りと書き込みと切り詰めが、間接ブロックの中のポインタとデータ領域のブロックにしか触れない
ことを示す。
-/

namespace OwStorage.Owfs

open Lib Prog

/-- 触れる先が、間接ブロックの 1024 個のポインタか、データ領域のブロックである。 -/
def Access.Inside (sb : Superblock) : Access → Prop
  | .pointer entry => entry.toNat < 1024
  | .data b => sb.IsData b

/-- 記録のどれも範囲の中にある。 -/
def AllInside (sb : Superblock) (log : List Access) : Prop := ∀ a ∈ log, a.Inside sb

section

variable {sb : Superblock} {log : List Access} {a : Access}

theorem AllInside.nil : AllInside sb [] := fun _ h => absurd h List.not_mem_nil

theorem AllInside.cons (h : AllInside sb log) (ha : a.Inside sb) : AllInside sb (a :: log) := by
  intro x hx
  rcases List.mem_cons.mp hx with rfl | hx
  · exact ha
  · exact h x hx

end

theorem AllInside.shape {sb sb' : Superblock} {log : List Access} (h : AllInside sb log) (hs : SameShape sb sb') :
    AllInside sb' log := by
  intro a ha
  have hin := h a ha
  cases a with
  | pointer entry => exact hin
  | data b => exact hs.isData.mpr hin

theorem SameShape.symm {sb sb' : Superblock} (h : SameShape sb sb') : SameShape sb' sb := by
  obtain ⟨a, b, rfl⟩ := h
  exact ⟨sb.freeBlocks, sb.freeInodes, rfl⟩

/-! ## 記録の中のポインタ -/

namespace Scene

/-- 論理番号 `i` の物理ブロック。 -/
def block (x : Scene) (i : Nat) : UInt32 := mapBlock x.disk x.ino i

/-- 論理番号 `i` のポインタを読める。 -/
def Readable (c : HtlConfig) (x : Scene) (i : Nat) : Prop :=
  10 ≤ i → x.ino.indirectBlock ≠ 0 ∧ c.Reads x.ino.indirectBlock

/-- 論理番号 `i` のポインタは、空かデータ領域のブロックを指す。 -/
def PointsInside (x : Scene) (i : Nat) : Prop := x.block i ≠ 0 → x.sb.IsData (x.block i)

/-- 番号 1034 未満の読めるポインタは、どれも範囲の中を指す。 -/
def Pointed (c : HtlConfig) (x : Scene) : Prop :=
  ∀ i < 1034, i < x.ino.blockCount.toNat → x.Readable c i → x.PointsInside i

/-- 番号 `i` から始めて、間接ブロックのポインタをたどるところまで、続けて書ける。 -/
def Open (x : Scene) (i : Nat) : Prop :=
  max i 10 < min x.ino.blockCount.toNat 1034 ∧ ∀ k, i ≤ k → k < 10 → x.ino.directBlocks[k]?.getD 0 ≠ 0

/-- 間接ブロックがファイル自身のデータのブロックでもあり、書き換えた後でその中のポインタをたどれる。 -/
def Forgeable (x : Scene) : Prop :=
  x.sb.IsData x.ino.indirectBlock ∧ ∃ i, x.block i = x.ino.indirectBlock ∧ x.Open (i + 1)

/-- 番号 `k` から `n` 個の直接のブロックを解放した後のディスク。 -/
def released (x : Scene) (k n : Nat) : Disk :=
  (List.range' k n).foldl (fun disk i =>
    if x.ino.directBlocks[i]?.getD 0 = 0 then disk else setMark disk x.sb (x.ino.directBlocks[i]?.getD 0) false) x.disk

/-- 番号 `k` からの解放で、間接ブロックの中から読む番号 `i` のポインタ。 -/
def releasedBlock (x : Scene) (k i : Nat) : UInt32 := ptrLoad (x.released k (10 - k) x.ino.indirectBlock) (i - 10)

/-- 番号 `k` からの解放で、番号 `i` に返すブロック。 -/
def freeTarget (x : Scene) (k i : Nat) : UInt32 :=
  if i < 10 then x.ino.directBlocks[i]?.getD 0 else if x.ino.indirectBlock = 0 then 0 else x.releasedBlock k i

/-- 番号 `k` からの解放は、1034 番より前の、データ領域の外を指すポインタで断られる。 -/
def Stops (x : Scene) (k : Nat) : Prop :=
  ∃ i, k ≤ i ∧ i < 1034 ∧ x.freeTarget k i ≠ 0 ∧ ¬ x.sb.IsData (x.freeTarget k i)

end Scene

section

variable {c : HtlConfig} {x : Scene} {i : Nat}

theorem Scene.block_direct (hi : i < 10) : x.block i = x.ino.directBlocks[i]?.getD 0 := if_pos hi

theorem Scene.block_indirect (hi : 10 ≤ i) : x.block i = ptrLoad (x.disk x.ino.indirectBlock) (i - 10) :=
  if_neg (Nat.not_lt.mpr hi)

/-- 書けない番号で始まらない限り、次の番号からも続けて書けない。 -/
theorem Scene.not_open_succ (h : ¬ x.Open i) (hten : i < 10) (hne : x.ino.directBlocks[i]?.getD 0 ≠ 0) :
    ¬ x.Open (i + 1) := by
  rintro ⟨hlt, hall⟩
  refine h ⟨?_, fun k hk hkten => ?_⟩
  · rw [Nat.max_eq_right (by omega)] at hlt ⊢
    exact hlt
  · rcases Nat.eq_or_lt_of_le hk with rfl | hk
    · exact hne
    · exact hall k hk hkten

theorem Scene.not_open_indirect (h : ¬ x.Open i) (hten : 10 ≤ i) (hi : i < 1034) : x.ino.blockCount.toNat ≤ i := by
  by_contra hlt
  refine h ⟨?_, fun k hk hkten => absurd hkten (by omega)⟩
  rw [Nat.max_eq_left hten]
  omega

theorem Scene.released_succ (x : Scene) (k n : Nat) : x.released k (n + 1) =
    if x.ino.directBlocks[k + n]?.getD 0 = 0 then x.released k n
    else setMark (x.released k n) x.sb (x.ino.directBlocks[k + n]?.getD 0) false := by
  unfold Scene.released
  rw [List.range'_concat, List.foldl_append, Nat.one_mul]
  rfl

end

/-! ## ポインタの読み取り -/

section

variable {v : Vol} {sb : Superblock} {s : Logged Vol Access} {ino : Inode} {idx : UInt32}

theorem tracked_get (hlog : AllInside sb s.log)
    (hidx : idx.toNat < ino.blockCount.toNat → (s.state.scene ino).Readable s.state.dev.toHtlConfig idx.toNat →
      idx.toNat < 1034) :
    wp (Tracked.blockmapGet ino idx)
      (fun b s' => Still s.state s'.state ∧ AllInside sb s'.log ∧ idx.toNat < ino.blockCount.toNat ∧
        (s.state.scene ino).Readable s.state.dev.toHtlConfig idx.toNat ∧
        b = (s.state.scene ino).block idx.toNat ∧ b ≠ 0)
      (fun _ s' => Still s.state s'.state ∧ AllInside sb s'.log) s := by
  have hself : Still s.state s.state := refl_of Still s.state
  unfold Tracked.blockmapGet
  rw [wp_bind, wp_failIf]
  refine ⟨fun _ => ⟨hself, hlog⟩, fun hlt => ?_⟩
  rw [ge_iff_le, UInt32.not_le, UInt32.lt_iff_toNat_lt] at hlt
  split
  · rename_i hten
    rw [wp_bind, wp_failIf]
    refine ⟨fun _ => ⟨hself, hlog⟩, fun hne => ⟨hself, hlog, hlt, fun h => absurd hten (Nat.not_lt.mpr h), ?_, hne⟩⟩
    rw [Scene.block_direct hten]
    change _ = ino.directBlocks[idx.toNat]?.getD 0
    rw [Vector.getElem?_eq_getElem hten]
    rfl
  · rename_i hten
    have hten := Nat.not_lt.mp hten
    have hsub : (idx - 10).toNat = idx.toNat - 10 := toNat_sub_le hten
    simp only [wp_bind, wp_failIf, wp_silent, wp_note]
    refine ⟨fun _ => ⟨hself, hlog⟩, fun hind => ?_⟩
    refine wp_readBlk (fun c hreads => ?_) (fun c _ => ⟨⟨c, rfl⟩, hlog⟩)
    have hopen : (s.state.scene ino).Readable s.state.dev.toHtlConfig idx.toNat := fun _ => ⟨hind, hreads⟩
    have hbound := hidx hlt hopen
    have hnoted : AllInside sb (.pointer (idx - 10) :: s.log) := hlog.cons (by
      change (idx - 10).toNat < 1024
      omega)
    refine ⟨fun _ => ⟨⟨c, rfl⟩, hnoted⟩, fun hne => ⟨⟨c, rfl⟩, hnoted, hlt, hopen, ?_, hne⟩⟩
    rw [Scene.block_indirect hten, hsub]
    rfl

end

/-! ## 読み取り -/

theorem read_inside {v : Vol} {ino : Inode}
    (h : ino.entryType &&& entryFile ≠ 0 → ∀ i, i * 4096 < ino.sizeBytes.toNat → i < ino.blockCount.toNat →
      (v.scene ino).Readable v.dev.toHtlConfig i → i < 1034 ∧ (v.scene ino).PointsInside i)
    (who : OwIdentity) (offset len : UInt32) :
    wp (Tracked.fileRead who ino offset len) (fun _ s' => AllInside v.sb s'.log) (fun _ s' => AllInside v.sb s'.log)
      ⟨v, []⟩ := by
  unfold Tracked.fileRead
  simp only [wp_bind, wp_failIf, wp_ofExcept, wp_ite, wp_silent, wp_get]
  refine ⟨fun _ => .nil, fun hfile => ⟨fun _ _ => ⟨fun _ => .nil, fun hin => ?_⟩, fun _ _ => .nil⟩⟩
  have hfile : ino.entryType &&& entryFile ≠ 0 := hfile
  rw [not_or, ge_iff_le, UInt32.not_le, UInt32.lt_iff_toNat_lt] at hin
  have hsize := ino.sizeBytes.toNat_lt
  generalize hlen' : (if len > ino.sizeBytes - offset then ino.sizeBytes - offset else len) = len'
  have hlen : len'.toNat ≤ ino.sizeBytes.toNat - offset.toNat := by
    rw [← hlen', toNat_clamp, toNat_sub_le hin.1.le]
    exact Nat.min_le_right _ _
  unfold Tracked.readLoop
  rw [wp_bind]
  refine wp_loop (fun _ _ s => Still v s.state ∧ AllInside v.sb s.log) ⟨refl_of Still v, .nil⟩ ?_ ?_
  · rintro k ⟨done, out⟩ ⟨v₁, log⟩ _ ⟨⟨c, hc⟩, hlog⟩
    simp only at hc hlog
    subst hc
    simp only
    rw [wp_ite]
    refine ⟨fun hlt => ?_, fun _ => hlog⟩
    rw [UInt32.lt_iff_toNat_lt] at hlt
    have hpos : (offset + done).toNat = offset.toNat + done.toNat := toNat_add_lt (by omega)
    have hidx : ((offset + done) >>> 12).toNat = (offset.toNat + done.toNat) / 4096 := by
      rw [toNat_shiftRight_twelve, hpos]
    have hfit : ((offset + done) >>> 12).toNat < ino.blockCount.toNat →
        (v.scene ino).Readable v.dev.toHtlConfig ((offset + done) >>> 12).toNat →
        ((offset + done) >>> 12).toNat < 1034 ∧ (v.scene ino).PointsInside ((offset + done) >>> 12).toNat := by
      intro hbc hopen
      exact h hfile _ (by rw [hidx]; omega) hbc hopen
    rw [wp_bind]
    refine (tracked_get (s := ⟨v.atClock c, log⟩) hlog fun hbc hopen => (hfit hbc hopen).1).mono ?_ (fun _ _ hs => hs.2)
    rintro b ⟨v₂, log₂⟩ ⟨⟨c', hc'⟩, hlog', hbc, hopen, hb, hne⟩
    simp only at hc' hlog'
    subst hc'
    have hnoted : AllInside v.sb (.data b :: log₂) := by
      refine hlog'.cons ?_
      rw [hb] at hne ⊢
      exact (hfit hbc hopen).2 hne
    simp only [wp_bind, wp_note, wp_silent]
    exact wp_readBlk (fun c₃ _ => ⟨⟨c₃, rfl⟩, hnoted⟩) (fun _ _ => hnoted)
  · rintro ⟨done, out⟩ s ⟨_, hlog⟩
    exact hlog

/-! ## ブロックの追加 -/

section

variable {sb : Superblock} {s : Logged FileState Access}

theorem wp_trackedOnVol {α : Type} {q : TrackedVolM α} {Q : α → Logged FileState Access → Prop}
    {E : OwfsErr → Logged FileState Access → Prop} :
    wp (Tracked.onVol q) Q E s ↔ wp q (fun a x => Q a ⟨{ s.state with vol := x.state }, x.log⟩)
      (fun e x => E e ⟨{ s.state with vol := x.state }, x.log⟩) ⟨s.state.vol, s.log⟩ := wp_within

theorem silent_inside {α : Type} {p : FileM α} (h : AllInside sb s.log) :
    wp (Prog.silent p) (fun _ s' => AllInside sb s'.log) (fun _ s' => AllInside sb s'.log) s :=
  wp_silent_log (I := AllInside sb) h

theorem alloc_inside {s : Logged Vol Access} (hl : Layout s.state.sb) (hsb : SameShape sb s.state.sb)
    (hlog : AllInside sb s.log) :
    wp Tracked.allocAndZero (fun _ s' => AllInside sb s'.log) (fun _ s' => AllInside sb s'.log) s := by
  unfold Tracked.allocAndZero
  rw [wp_bind, wp_silent]
  refine (bitmapAlloc_spec hl).mono ?_ (fun _ _ _ => hlog)
  rintro b v₁ ⟨hf, _⟩
  have hnoted : AllInside sb (.data b :: s.log) := hlog.cons (hsb.isData.mp hf.isData)
  simp only [wp_bind, wp_note, wp_attempt, wp_silent]
  refine wp_zeroBlk (fun c _ => hnoted) (fun e c _ _ => ?_)
  exact wp_trivial.mono (fun _ _ _ => hnoted) (fun _ _ _ => hnoted)

theorem store_inside (hlog : AllInside sb s.log) {entry : UInt32} (hentry : entry.toNat < 1024) (b : UInt32)
    (ibuf : Block) :
    wp (Tracked.storePointer entry b ibuf) (fun _ s' => AllInside sb s'.log) (fun _ s' => AllInside sb s'.log) s := by
  have hnoted : AllInside sb (.pointer entry :: s.log) := hlog.cons hentry
  unfold Tracked.storePointer
  rw [wp_bind, wp_note, wp_bind, wp_silent, wp_get, wp_bind, wp_attempt, wp_silent]
  refine wp_trivial.mono (fun _ _ _ => hnoted) (fun e _ _ => ?_)
  change wp (Prog.attempt (Prog.silent (onVol (bitmapFree b))) >>= _) _ _ _
  rw [wp_bind, wp_attempt]
  refine wp.mono (silent_inside hnoted) ?_ ?_ <;>
  · intro _ s₂ hlog₂
    rw [wp_ite]
    refine ⟨fun _ => ?_, fun _ => hlog₂⟩
    rw [wp_bind, wp_attempt]
    refine (silent_inside hlog₂).mono ?_ ?_ <;>
    · intro _ s₃ hlog₃
      rw [wp_bind]
      exact (silent_inside hlog₃).mono (fun _ _ h => h) (fun _ _ h => h)

theorem indirect_inside (hlog : AllInside sb s.log) {idx : UInt32} (hten : 10 ≤ idx.toNat) (hmax : idx.toNat < 1034)
    (b : UInt32) :
    wp (Tracked.ensureIndirect idx b) (fun _ s' => AllInside sb s'.log) (fun _ s' => AllInside sb s'.log) s := by
  have hentry : (idx - 10).toNat < 1024 := by
    rw [toNat_sub_le (show (10 : UInt32).toNat ≤ idx.toNat from hten)]
    change idx.toNat - 10 < 1024
    omega
  unfold Tracked.ensureIndirect
  rw [wp_bind, wp_silent, wp_get, wp_bind, wp_ite]
  refine ⟨fun _ => ?_, fun _ => ?_⟩
  · rw [wp_bind, wp_attempt]
    refine wp.mono (silent_inside hlog) ?_ ?_
    · intro ind s₁ hlog₁
      change wp (Prog.silent _ >>= _) _ _ _
      rw [wp_bind, wp_silent, wp_modifyInode, wp_pure]
      refine store_inside ?_ hentry b _
      exact hlog₁
    · intro e s₁ hlog₁
      change wp (Prog.attempt _ >>= _) _ _ _
      rw [wp_bind, wp_attempt]
      exact wp.mono (silent_inside hlog₁) (fun _ _ h => h) (fun _ _ h => h)
  · rw [wp_bind, wp_attempt]
    refine wp.mono (silent_inside hlog) ?_ ?_
    · intro ibuf s₁ hlog₁
      change wp (pure ibuf : TrackedFileM Block) _ _ _
      rw [wp_pure]
      exact store_inside hlog₁ hentry b ibuf
    · intro e s₁ hlog₁
      change wp (Prog.attempt _ >>= _) _ _ _
      rw [wp_bind, wp_attempt]
      exact wp.mono (silent_inside hlog₁) (fun _ _ h => h) (fun _ _ h => h)

theorem ensure_inside (hl : Layout s.state.vol.sb) (hsb : SameShape sb s.state.vol.sb) (hlog : AllInside sb s.log) :
    wp (Tracked.blockmapEnsure s.state.inode.blockCount) (fun _ s' => AllInside sb s'.log)
      (fun _ s' => AllInside sb s'.log) s := by
  unfold Tracked.blockmapEnsure
  rw [wp_bind, wp_silent, wp_get, wp_bind, wp_failIf]
  refine ⟨fun _ => hlog, fun hmax => ?_⟩
  rw [ge_iff_le, UInt32.not_le, UInt32.lt_iff_toNat_lt] at hmax
  rw [wp_bind, wp_ofExcept]
  refine ⟨fun _ _ => ?_, fun _ _ => hlog⟩
  rw [wp_ite]
  refine ⟨fun hself => absurd hself (UInt32.lt_irrefl _), fun _ => ?_⟩
  rw [wp_bind, wp_failIf]
  refine ⟨fun hne => absurd rfl hne, fun _ => ?_⟩
  rw [wp_bind, wp_trackedOnVol]
  refine (alloc_inside (s := ⟨s.state.vol, s.log⟩) hl hsb hlog).mono ?_ (fun _ _ h => h)
  intro b s₁ hlog₁
  have hdone : ∀ s₂ : Logged FileState Access, AllInside sb s₂.log →
      wp (Prog.silent (modifyInode fun ino => { ino with blockCount := ino.blockCount + 1 }) >>= fun _ =>
        (pure b : TrackedFileM UInt32)) (fun _ s' => AllInside sb s'.log) (fun _ s' => AllInside sb s'.log) s₂ := by
    intro s₂ hlog₂
    rw [wp_bind, wp_silent, wp_modifyInode]
    exact hlog₂
  rw [wp_bind, wp_ite]
  refine ⟨fun _ => ?_, fun hten => ?_⟩
  · rw [wp_silent, wp_modifyInode]
    exact hdone _ hlog₁
  · rw [UInt32.not_lt, UInt32.le_iff_toNat_le] at hten
    exact (indirect_inside (s := ⟨⟨s₁.state, s.state.inode⟩, s₁.log⟩) hlog₁ hten hmax b).mono (fun _ s₂ h => hdone s₂ h)
      (fun _ _ h => h)

/-- 追加のあいだに触れるのは範囲の中だけで、終わりの状態は計算の着く先である。 -/
theorem ensureBlocks_inside (hl : Layout s.state.vol.sb) (hw : volumeWritable s.state.vol.sb = .ok ())
    (hlog : AllInside s.state.vol.sb s.log) (last : UInt32) :
    wp (Tracked.ensureBlocks last)
      (fun _ s' => AppendsMany s.state.vol.dev.toHtlConfig s.state.scene s'.state.scene ∧
        s'.state.vol.dev.toHtlConfig = s.state.vol.dev.toHtlConfig ∧ AllInside s.state.vol.sb s'.log)
      (fun _ s' => AllInside s.state.vol.sb s'.log) s := by
  unfold Tracked.ensureBlocks
  rw [wp_bind, wp_silent, wp_get, wp_bind]
  refine wp_loop (fun _ _ s' => AppendsMany s.state.vol.dev.toHtlConfig s.state.scene s'.state.scene ∧
    s'.state.vol.dev.toHtlConfig = s.state.vol.dev.toHtlConfig ∧ AllInside s.state.vol.sb s'.log)
    ⟨.refl, rfl, hlog⟩ ?_ (fun _ _ h => h)
  rintro k _ s₁ _ ⟨hgrown, hconfig, hlog₁⟩
  have hshape : SameShape s.state.vol.sb s₁.state.vol.sb := hgrown.shape
  rw [wp_bind, wp_silent, wp_get, wp_ite]
  refine ⟨fun _ => ?_, fun _ => ⟨hgrown, hconfig, hlog₁⟩⟩
  rw [wp_bind]
  have hstep := (erases_blockmapEnsure s₁.state.inode.blockCount).wp (s := s₁)
    (blockmapEnsure_appends (hshape.layout hl) (hshape.volumeWritable.trans hw))
  refine (hstep.and (ensure_inside (hshape.layout hl) hshape hlog₁)).mono ?_ (fun _ _ h => h.2)
  rintro _ s₂ ⟨⟨hnext, hconfig'⟩, hlog₂⟩
  rw [hconfig] at hnext
  exact ⟨hgrown.tail hnext, hconfig'.trans hconfig, hlog₂⟩

end

/-! ## 書き込み -/

/-- 書き込みの途中の状態。間接ブロックの内容は始めと同じであるか、次の番号 `i` からはもうたどられない。 -/
structure Sheltered (c : HtlConfig) (x : Scene) (i : Nat) (s : Logged Vol Access) : Prop where
  sb : s.state.sb = x.sb
  config : s.state.dev.toHtlConfig = c
  pointers : s.state.dev.disk x.ino.indirectBlock = x.disk x.ino.indirectBlock ∨ ¬ x.Open i
  log : AllInside x.sb s.log

section

variable {c : HtlConfig} {x : Scene} {s : Logged Vol Access} {pos : UInt32} {i : Nat}

theorem Sheltered.block_eq (h : Sheltered c x i s) (hi : i < 1034) (hbc : i < x.ino.blockCount.toNat) :
    (s.state.scene x.ino).block i = x.block i := by
  rcases Nat.lt_or_ge i 10 with hten | hten
  · rw [Scene.block_direct hten, Scene.block_direct hten]
    rfl
  · rcases h.pointers with hsame | hno
    · rw [Scene.block_indirect hten, Scene.block_indirect hten]
      exact congrArg (ptrLoad · (i - 10)) hsame
    · exact absurd (Scene.not_open_indirect hno hten hi) (Nat.not_le.mpr hbc)

theorem Sheltered.put (h : Sheltered c x i s) (hf : ¬ x.Forgeable) (hi : i < 1034) (hbc : i < x.ino.blockCount.toNat)
    (hne : x.block i ≠ 0) (hdata : x.sb.IsData (x.block i)) {log : List Access}
    (hlog : AllInside x.sb log) (blk : Block)
    (k : Nat) : Sheltered c x (i + 1) ⟨s.state.put (x.block i) blk k, .data (x.block i) :: log⟩ := by
  refine ⟨h.sb, h.config, ?_, hlog.cons hdata⟩
  by_cases hself : x.block i = x.ino.indirectBlock
  · exact .inr fun hopen => hf ⟨hself ▸ hdata, i, hself, hopen⟩
  · rcases h.pointers with hsame | hno
    · exact .inl ((Function.update_of_ne (Ne.symm hself) _ _).trans hsame)
    · rcases Nat.lt_or_ge i 10 with hten | hten
      · rw [Scene.block_direct hten] at hne
        exact .inr (Scene.not_open_succ hno hten hne)
      · exact absurd (Scene.not_open_indirect hno hten hi) (Nat.not_le.mpr hbc)

theorem chunk_inside (hp : x.Pointed c) (hf : ¬ x.Forgeable) (hpos : pos.toNat < 1034 * 4096)
    (h : Sheltered c x (pos.toNat / 4096) s) (sb' : Superblock) (chunk : UInt32) (bytes : List UInt8) :
    wp (Tracked.writeChunk sb' x.ino pos chunk bytes) (fun _ s' => Sheltered c x (pos.toNat / 4096 + 1) s')
      (fun _ s' => AllInside x.sb s'.log) s := by
  have hidx : (pos >>> 12).toNat = pos.toNat / 4096 := toNat_shiftRight_twelve pos
  have hi : pos.toNat / 4096 < 1034 := by omega
  unfold Tracked.writeChunk
  simp only [wp_bind]
  refine (tracked_get h.log fun _ _ => hidx ▸ hi).mono ?_ (fun _ _ hs => hs.2)
  rintro b ⟨v₁, log⟩ ⟨⟨k, hstill⟩, hlog, hbc, hopen, hb, hne⟩
  simp only at hstill hlog
  rw [hidx] at hbc hopen hb
  rw [h.block_eq hi hbc] at hb
  subst hstill hb
  have hdata : x.sb.IsData (x.block (pos.toNat / 4096)) := by
    refine hp _ hi hbc (fun hten => ⟨(hopen hten).1, ?_⟩) hne
    rw [← h.config]
    exact (hopen hten).2
  have hput := fun blk k' => h.put hf hi hbc hne hdata hlog blk k'
  have hnoted : AllInside x.sb (.data (x.block (pos.toNat / 4096)) :: log) := hlog.cons hdata
  simp only [wp_note, wp_silent, wp_bind, wp_ite]
  refine ⟨fun _ => ?_, fun _ => ?_⟩
  · exact wp_writeBlk (fun k' _ => hput _ k') (fun _ _ _ _ => hnoted)
  · refine wp_readBlk (fun k₁ _ => ?_) (fun _ _ => hnoted)
    exact wp_writeBlk (fun k' _ => hput _ k') (fun _ _ _ _ => hnoted)

theorem writeLoop_inside (hp : x.Pointed c) (hf : ¬ x.Forgeable) (h : ∀ i, Sheltered c x i s) (sb' : Superblock)
    (buf : List UInt8) {offset len : UInt32} (hend : offset.toNat + len.toNat ≤ 1034 * 4096) :
    wp (Tracked.writeLoop sb' x.ino buf offset len) (fun _ s' => AllInside x.sb s'.log)
      (fun _ s' => AllInside x.sb s'.log) s := by
  unfold Tracked.writeLoop
  rw [wp_bind]
  refine wp_loop (fun _ written s' => AllInside x.sb s'.log ∧
    (written.toNat < len.toNat → Sheltered c x ((offset.toNat + written.toNat) / 4096) s')) ⟨(h 0).log, fun _ => h _⟩ ?_
    (fun _ _ hs => hs.1)
  rintro k written s' _ ⟨hlog, hshelter⟩
  rw [wp_ite]
  refine ⟨fun hlt => ?_, fun _ => hlog⟩
  rw [UInt32.lt_iff_toNat_lt] at hlt
  have hpos : (offset + written).toNat = offset.toNat + written.toNat := toNat_add_lt (by omega)
  have hrest : (len - written).toNat = len.toNat - written.toNat := toNat_sub_le hlt.le
  have hchunk := toNat_chunkLen (offset + written) (len - written)
  rw [hpos, hrest] at hchunk
  have hsum : (written + chunkLen (offset + written) (len - written)).toNat =
      written.toNat + (chunkLen (offset + written) (len - written)).toNat := toNat_add_lt (by omega)
  rw [wp_bind, wp_attempt]
  refine (chunk_inside hp hf (by rw [hpos]; omega) (by rw [hpos]; exact hshelter hlt) sb' _ _).mono ?_ (fun _ _ h => h)
  intro _ s₁ hs₁
  rw [hpos] at hs₁
  refine ⟨hs₁.log, fun hmore => ?_⟩
  rw [hsum] at hmore ⊢
  have hnext : (offset.toNat + (written.toNat + (chunkLen (offset + written) (len - written)).toNat)) / 4096 =
      (offset.toNat + written.toNat) / 4096 + 1 := by
    omega
  rw [hnext]
  exact hs₁

theorem Sheltered.start (hx : s.state.scene x.ino = x) (hc : s.state.dev.toHtlConfig = c) (hlog : AllInside x.sb s.log)
    (i : Nat) : Sheltered c x i s :=
  ⟨congrArg Scene.sb hx, hc, .inl (congrFun (congrArg Scene.disk hx) _), hlog⟩

end

/-! ## 書き込みと切り詰めの門 -/

/-- 書き込みと切り詰めの門が、少なくとも管理者には開いている。 -/
structure Gate (v : Vol) (ino : Inode) : Prop where
  file : ino.entryType &&& entryFile ≠ 0
  writable : volumeWritable v.sb = .ok ()
  notReadonly : ino.securityFlags.toUInt32 &&& secReadonly = 0

/-- 書き込みは、追加を繰り返したどの記録も範囲の中を指し、自身の間接ブロックを書き換えてたどれなければ、範囲の中にだけ触れる。 -/
theorem write_inside {s : FileState} (hl : Layout s.vol.sb)
    (h : Gate s.vol s.inode → ∀ x, AppendsMany s.vol.dev.toHtlConfig s.scene x → x.Pointed
    s.vol.dev.toHtlConfig ∧ ¬ x.Forgeable)
    (who : OwIdentity) (n : UInt32) (buf : List UInt8) (offset len : UInt32) :
    wp (Tracked.fileWrite who n buf offset len) (fun _ s' => AllInside s.vol.sb s'.log)
      (fun _ s' => AllInside s.vol.sb s'.log) ⟨s, []⟩ := by
  unfold Tracked.fileWrite
  rw [wp_bind, wp_silent, wp_get, wp_bind, wp_failIf]
  refine ⟨fun _ => .nil, fun hfile => ?_⟩
  rw [wp_ite]
  refine ⟨fun _ => .nil, fun _ => ?_⟩
  rw [wp_bind, wp_ofExcept]
  refine ⟨fun _ hw => ?_, fun _ _ => .nil⟩
  rw [wp_bind, wp_failIf]
  refine ⟨fun _ => .nil, fun hro => ?_⟩
  rw [wp_bind, wp_ofExcept]
  refine ⟨fun _ _ => ?_, fun _ _ => .nil⟩
  rw [wp_bind, wp_failIf]
  refine ⟨fun _ => .nil, fun hend => ?_⟩
  rw [wp_bind, wp_failIf]
  refine ⟨fun _ => .nil, fun _ => ?_⟩
  rw [wp_bind]
  refine (ensureBlocks_inside (s := ⟨s, []⟩) hl hw .nil _).mono ?_ (fun _ _ h => h)
  rintro _ s₁ ⟨hgrown, hconfig, hlog⟩
  obtain ⟨hp, hf⟩ := h ⟨hfile, hw, not_not.mp hro⟩ _ hgrown
  have hshape : SameShape s.vol.sb s₁.state.vol.sb := hgrown.shape
  rw [wp_bind, wp_silent, wp_get, wp_bind, wp_trackedOnVol]
  refine (writeLoop_inside (s := ⟨s₁.state.vol, s₁.log⟩) hp hf (Sheltered.start rfl hconfig (hlog.shape hshape)) _ buf
    (Nat.not_lt.mp hend)).mono ?_ (fun _ _ h => h.shape hshape.symm)
  rintro ⟨written, failure⟩ ⟨v₂, log⟩ hlog₂
  rw [wp_bind, wp_silent, wp_modifyInode, wp_bind]
  refine wp.mono (silent_inside (hlog₂.shape hshape.symm)) ?_ (fun _ _ h => h)
  intro _ s₃ hlog₃
  cases failure with
  | none => exact hlog₃
  | some e =>
      change wp (if _ then _ else _) _ _ _
      rw [wp_ite]
      exact ⟨fun _ => hlog₃, fun _ => hlog₃⟩

/-! ## 解放 -/

/-- 番号 `k` からの解放で、番号 `i` に来たときの状態。間接ブロックは、直接のブロックの印を下ろした後に一度だけ読む。 -/
structure Freeing (c : HtlConfig) (x : Scene) (k i : Nat) (ibuf : Option Block) (s : FileState) : Prop where
  shape : SameShape x.sb s.vol.sb
  config : s.vol.dev.toHtlConfig = c
  early : i ≤ max k 10 → ibuf = none ∧ s.vol.dev.disk = x.released k (i - k)
  late : max k 10 < i → x.ino.indirectBlock ≠ 0 →
    ibuf = some (x.released k (10 - k) x.ino.indirectBlock) ∧ c.Reads x.ino.indirectBlock
  passed : ∀ j, k ≤ j → j < i → x.freeTarget k j ≠ 0 → x.sb.IsData (x.freeTarget k j)

/-- 番号 `i` に来て、返すブロックを決めた。 -/
structure Aimed (c : HtlConfig) (x : Scene) (k : Nat) (idx : UInt32) (ibuf : Option Block) (s : Logged FileState Access)
    (r : UInt32 × Option Block) (s' : Logged FileState Access) : Prop where
  still : Still s.state.vol s'.state.vol
  block : r.1 = x.freeTarget k idx.toNat
  direct : idx.toNat < 10 → r.2 = ibuf ∧ s'.log = s.log
  none : 10 ≤ idx.toNat → x.ino.indirectBlock = 0 → s'.log = s.log
  indirect : 10 ≤ idx.toNat → x.ino.indirectBlock ≠ 0 → c.Reads x.ino.indirectBlock ∧
    r.2 = some (x.released k (10 - k) x.ino.indirectBlock) ∧ s'.log = .pointer (idx - 10) :: s.log

section

variable {c : HtlConfig} {x : Scene} {s : Logged FileState Access} {ibuf : Option Block} {k : Nat} {idx : UInt32}

theorem Freeing.start {s : FileState} (hx : s.scene = x) (hc : s.vol.dev.toHtlConfig = c) (k : Nat) :
    Freeing c x k k none s := by
  subst hx
  refine ⟨refl_of SameShape s.vol.sb, hc, fun _ => ⟨rfl, ?_⟩, fun hlt => ?_, fun j hk hlt => ?_⟩
  · rw [Nat.sub_self]
    rfl
  · omega
  · omega

theorem releaseTarget_aimed (h : Freeing c x k idx.toNat ibuf s.state) (hk : k ≤ idx.toNat) :
    wp (Tracked.releaseTarget x.ino idx ibuf) (fun r s' => Aimed c x k idx ibuf s r s')
      (fun _ s' => s'.log = s.log ∧ 10 ≤ idx.toNat ∧ x.ino.indirectBlock ≠ 0 ∧
      ¬ (c.FaultFree ∧ c.Reads x.ino.indirectBlock))
      s := by
  unfold Tracked.releaseTarget
  rw [wp_ite]
  refine ⟨fun hten => ?_, fun hten => ?_⟩
  · have hten : idx.toNat < 10 := UInt32.lt_iff_toNat_lt.mp hten
    exact ⟨refl_of Still s.state.vol, (if_pos hten).symm, fun _ => ⟨rfl, rfl⟩, fun hge => absurd hten (by omega),
      fun hge => absurd hten (by omega)⟩
  · have hten : 10 ≤ idx.toNat := by
      rw [UInt32.not_lt, UInt32.le_iff_toNat_le] at hten
      exact hten
    have hsub : (idx - 10).toNat = idx.toNat - 10 := toNat_sub_le hten
    rw [wp_ite]
    refine ⟨fun hind => ?_, fun hz => ?_⟩
    · -- 読んだ内容は、どちらの道でも同じである。
      have hdone : ∀ s₁ : Logged FileState Access, Still s.state.vol s₁.state.vol → s₁.log = s.log →
          c.Reads x.ino.indirectBlock →
          wp (Prog.note (.pointer (idx - 10)) >>= fun _ =>
            (pure (ptrLoad (x.released k (10 - k) x.ino.indirectBlock) (idx - 10).toNat,
              some (x.released k (10 - k) x.ino.indirectBlock)) : TrackedFileM (UInt32 × Option Block)))
            (fun r s' => Aimed c x k idx ibuf s r s')
            (fun _ s' => s'.log = s.log ∧ 10 ≤ idx.toNat ∧ x.ino.indirectBlock ≠ 0 ∧
              ¬ (c.FaultFree ∧ c.Reads x.ino.indirectBlock)) s₁ := by
        intro s₁ hstill hlog hreads
        rw [wp_bind, wp_note]
        refine ⟨hstill, ?_, fun hlt => absurd hlt (by omega), fun _ hz => absurd hz hind, fun _ _ => ⟨hreads, rfl, ?_⟩⟩
        · unfold Scene.freeTarget Scene.releasedBlock
          rw [if_neg (by omega), if_neg hind, hsub]
        · rw [hlog]
      rw [wp_bind]
      rcases Nat.lt_or_ge (max k 10) idx.toNat with hlate | hearly
      · obtain ⟨rfl, hreads⟩ := h.late hlate hind
        exact hdone s (refl_of Still s.state.vol) rfl hreads
      · obtain ⟨rfl, hdisk⟩ := h.early hearly
        have hat : idx.toNat - k = 10 - k := by omega
        change wp (Prog.silent (onVol (readBlk x.ino.indirectBlock))) _ _ _
        rw [wp_silent, wp_onVol]
        refine wp_readBlk (fun c' hreads => ?_) (fun c' hno => ⟨rfl, hten, hind, ?_⟩)
        · rw [h.config] at hreads
          rw [hdisk, hat]
          exact hdone _ ⟨c', rfl⟩ rfl hreads
        · rw [h.config] at hno
          exact hno
    · have hz : x.ino.indirectBlock = 0 := not_not.mp hz
      refine ⟨refl_of Still s.state.vol, ?_, fun hlt => absurd hlt (by omega), fun _ _ =>
        rfl, fun _ hind => absurd hz hind⟩
      unfold Scene.freeTarget
      rw [if_neg (by omega), if_pos hz]

theorem Aimed.free {r : UInt32 × Option Block} {s₁ : Logged FileState Access} (ha : Aimed c x k idx ibuf s r s₁)
    (hl : Layout x.sb) (h : Freeing c x k idx.toNat ibuf s.state) (hk : k ≤ idx.toNat) :
    wp (Prog.whenever (r.1 ≠ 0) (Prog.silent (onVol (bitmapFree r.1))))
      (fun _ s' => Freeing c x k (idx.toNat + 1) r.2 s'.state ∧ s'.log = s₁.log)
      (fun _ s' => s'.log = s₁.log ∧ x.freeTarget k idx.toNat ≠ 0 ∧
        ¬ (x.sb.IsData (x.freeTarget k idx.toNat) ∧ c.FaultFree ∧ Serves c x.sb)) s₁ := by
  obtain ⟨c', hstill⟩ := ha.still
  have hshape : SameShape x.sb s₁.state.vol.sb := hstill ▸ h.shape
  have hconfig : s₁.state.vol.dev.toHtlConfig = c := by
    rw [hstill]
    exact h.config
  have hdisk : s₁.state.vol.dev.disk = s.state.vol.dev.disk := by rw [hstill]; rfl
  -- 印を下ろしたかどうかだけが違う。
  have hmove : ∀ s' : FileState, SameShape x.sb s'.vol.sb → s'.vol.dev.toHtlConfig = c →
      (x.freeTarget k idx.toNat ≠ 0 → x.sb.IsData (x.freeTarget k idx.toNat)) →
      s'.vol.dev.disk = (if x.freeTarget k idx.toNat = 0 then s.state.vol.dev.disk
        else setMark s.state.vol.dev.disk x.sb (x.freeTarget k idx.toNat) false) →
      Freeing c x k (idx.toNat + 1) r.2 s' := by
    intro s' hshape' hconfig' hgood hdisk'
    refine ⟨hshape', hconfig', fun hle => ?_, fun hlt hind => ?_, fun j hkj hlt => ?_⟩
    · have hten : idx.toNat < 10 := by omega
      obtain ⟨hnone, hfrom⟩ := h.early (by omega)
      refine ⟨(ha.direct hten).1.trans hnone, ?_⟩
      have hat : x.freeTarget k idx.toNat = x.ino.directBlocks[k + (idx.toNat - k)]?.getD 0 := by
        unfold Scene.freeTarget
        rw [if_pos hten, Nat.add_sub_cancel' hk]
      rw [hdisk', hfrom, hat, Nat.sub_add_comm hk, Scene.released_succ]
    · obtain ⟨hreads, hbuf, _⟩ := ha.indirect (by omega) hind
      exact ⟨hbuf, hreads⟩
    · rcases Nat.eq_or_lt_of_le (Nat.lt_succ_iff.mp hlt) with rfl | hlt
      · exact hgood
      · exact h.passed j hkj hlt
  rw [wp_whenever, ha.block]
  refine ⟨fun hne => ?_, fun hz => ?_⟩
  · rw [wp_silent, wp_onVol]
    refine (bitmapFree_marks (hshape.layout hl) _).mono ?_ ?_
    · rintro _ v' ⟨hb, hmark, hshape', hconfig'⟩
      refine ⟨hmove _ (trans_of SameShape hshape hshape') (hconfig'.trans hconfig)
        (fun _ => hshape.isData.mp hb) ?_, rfl⟩
      rw [if_neg hne, ← hdisk]
      exact hmark.trans (hshape.setMark _ _ _)
    · rintro e v' hno
      refine ⟨rfl, hne, ?_⟩
      rintro ⟨hb, hff, hs⟩
      refine hno ⟨hshape.isData.mpr hb, ?_, ?_⟩
      · unfold HtlConfig.FaultFree
        rw [hconfig]
        exact hff
      · rw [hconfig]
        exact hshape.serves hs
  · refine ⟨hmove _ hshape hconfig (fun hne => absurd hne hz) ?_, rfl⟩
    rw [if_pos (not_not.mp hz)]
    exact hdisk

/-- 断られずに 1034 番まで来ることがなければ、解放は間接ブロックの中にだけ触れる。 -/
theorem release_inside (hl : Layout s.state.vol.sb) (hlog : AllInside s.state.vol.sb s.log) {fromIdx : UInt32}
    (hstop : s.state.inode.indirectBlock ≠ 0 → s.state.vol.dev.Reads s.state.inode.indirectBlock →
      1034 < s.state.inode.blockCount.toNat → s.state.scene.Stops fromIdx.toNat) :
    wp (Tracked.blockmapRelease fromIdx) (fun _ s' => AllInside s.state.vol.sb s'.log)
      (fun _ s' => AllInside s.state.vol.sb s'.log) s := by
  have hbc := s.state.inode.blockCount.toNat_lt
  unfold Tracked.blockmapRelease
  rw [wp_bind, wp_silent, wp_get, wp_bind, wp_ofExcept]
  refine ⟨fun _ _ => ?_, fun _ _ => hlog⟩
  rw [wp_ite]
  refine ⟨fun _ => hlog, fun hlt => ?_⟩
  rw [ge_iff_le, UInt32.not_le, UInt32.lt_iff_toNat_lt] at hlt
  have hcount : (s.state.inode.blockCount - fromIdx).toNat = s.state.inode.blockCount.toNat - fromIdx.toNat :=
    toNat_sub_le hlt.le
  simp only [wp_bind]
  refine wp_loop (fun k ibuf s' => Freeing s.state.vol.dev.toHtlConfig s.state.scene fromIdx.toNat
    (fromIdx.toNat + k) ibuf
    s'.state ∧ AllInside s.state.vol.sb s'.log) ⟨Freeing.start rfl rfl _, hlog⟩ ?_ (fun _ _ h => silent_inside h.2)
  rintro k ibuf s₁ hk ⟨hfreeing, hlog₁⟩
  rw [hcount] at hk
  have hidx : (fromIdx + UInt32.ofNat k).toNat = fromIdx.toNat + k := by
    rw [toNat_add_lt (by rw [toNat_ofNat_lt (by omega)]; omega), toNat_ofNat_lt (by omega)]
  rw [← hidx] at hfreeing
  have hle : fromIdx.toNat ≤ (fromIdx + UInt32.ofNat k).toNat := by omega
  simp only [wp_bind]
  refine (releaseTarget_aimed hfreeing hle).mono ?_ ?_
  · rintro ⟨b, ibuf'⟩ s₂ haimed
    have hlog₂ : AllInside s.state.vol.sb s₂.log := by
      rcases Nat.lt_or_ge (fromIdx + UInt32.ofNat k).toNat 10 with hten | hten
      · rw [(haimed.direct hten).2]
        exact hlog₁
      · by_cases hind : s.state.inode.indirectBlock = 0
        · rw [haimed.none hten hind]
          exact hlog₁
        · obtain ⟨hreads, _, hnoted⟩ := haimed.indirect hten hind
          rw [hnoted]
          refine hlog₁.cons ?_
          change (fromIdx + UInt32.ofNat k - 10).toNat < 1024
          rw [toNat_sub_le (show (10 : UInt32).toNat ≤ _ from hten)]
          change (fromIdx + UInt32.ofNat k).toNat - 10 < 1024
          by_contra hover
          obtain ⟨i, hi, hmax, hne, hout⟩ := hstop hind hreads (by omega)
          exact hout (hfreeing.passed i hi (by omega) hne)
    rw [← Nat.add_assoc, ← hidx]
    refine (haimed.free hl hfreeing hle).mono ?_ ?_
    · rintro _ s₃ ⟨hnext, hlog₃⟩
      exact ⟨hnext, hlog₃ ▸ hlog₂⟩
    · rintro _ s₃ ⟨hlog₃, _⟩
      exact hlog₃ ▸ hlog₂
  · rintro _ s₂ ⟨hlog₂, _⟩
    exact hlog₂ ▸ hlog₁

end

/-- 切り詰めは、縮め先のどの番号からの解放も 1034 番より前で断られれば、範囲の中にだけ触れる。 -/
theorem truncate_inside {s : FileState} (hl : Layout s.vol.sb)
    (h : Gate s.vol s.inode → s.inode.sizeBytes ≠ 0 → 1034 < s.inode.blockCount.toNat → s.inode.indirectBlock ≠ 0 →
      s.vol.dev.Reads s.inode.indirectBlock → ∀ k, k * 4096 < s.inode.sizeBytes.toNat + 4095 → s.scene.Stops k)
    (who : OwIdentity) (n size : UInt32) :
    wp (Tracked.fileTruncate who n size) (fun _ s' => AllInside s.vol.sb s'.log) (fun _ s' => AllInside s.vol.sb s'.log)
      ⟨s, []⟩ := by
  unfold Tracked.fileTruncate
  rw [wp_bind, wp_silent, wp_get, wp_bind, wp_failIf]
  refine ⟨fun _ => .nil, fun hfile => ?_⟩
  rw [wp_bind, wp_ofExcept]
  refine ⟨fun _ hw => ?_, fun _ _ => .nil⟩
  rw [wp_bind, wp_failIf]
  refine ⟨fun _ => .nil, fun hro => ?_⟩
  rw [wp_bind, wp_ofExcept]
  refine ⟨fun _ _ => ?_, fun _ _ => .nil⟩
  rw [wp_ite]
  refine ⟨fun _ => .nil, fun hless => ?_⟩
  rw [wp_bind, wp_failIf]
  refine ⟨fun _ => .nil, fun _ => ?_⟩
  have hless : size.toNat < s.inode.sizeBytes.toNat := by
    rw [ge_iff_le, UInt32.not_le, UInt32.lt_iff_toNat_lt] at hless
    exact hless
  have hsize : s.inode.sizeBytes ≠ 0 := by
    intro hz
    rw [hz] at hless
    exact Nat.not_lt_zero _ hless
  have hfit : (blocksFor size).toNat * 4096 < s.inode.sizeBytes.toNat + 4095 := by
    rw [toNat_blocksFor]
    omega
  have hrest : ∀ s₁ : Logged FileState Access, AllInside s.vol.sb s₁.log →
      wp (Prog.silent (modifyInode fun ino => { ino with sizeBytes := size }) >>= fun _ => Prog.silent (inodeWrite n))
        (fun _ s' => AllInside s.vol.sb s'.log) (fun _ s' => AllInside s.vol.sb s'.log) s₁ := by
    intro s₁ hlog
    rw [wp_bind, wp_silent, wp_modifyInode]
    exact silent_inside hlog
  rw [wp_bind, wp_whenever]
  refine ⟨fun _ => ?_, fun _ => hrest _ .nil⟩
  refine (release_inside (s := ⟨s, []⟩) hl .nil fun hind hreads hbc => ?_).mono (fun _ s₁ h => hrest s₁ h)
    (fun _ _ h => h)
  exact h ⟨hfile, hw, not_not.mp hro⟩ hsize hbc hind hreads _ hfit

end OwStorage.Owfs
