import OwStorage.Owfs.Lemmas.WriteCost
import OwStorage.Owfs.Lemmas.Check

/-!
# 書き込みと空きの数

失敗のない装置では、書き込みは、要る数の空きがあるときに限り通り、ちょうどその数だけ空きを減らす。足りない書き込みは、
空きが尽きるまでに取ったブロックを返さない。だから、断られた書き込みの跡が残らないのは、一ブロックも取れない場合だけである。
-/

namespace OwStorage.Owfs

open Lib Prog

/-- 長さ `len` の書き込みに要る空きの数。 -/
def writeNeed (c : Nat) (offset len : UInt32) : Nat := growCost c (lastBlockOf offset len + 1)

/-- 断られた操作が、ビットマップも空きの数も、どの inode の記録も、手元の inode も変えていない。 -/
structure Traceless (s s' : FileState) : Prop where
  unspent : Unspent s.vol s'.vol
  table : ∀ m : UInt32, m.toNat < s.vol.sb.totalInodes.toNat →
    inodeAt s'.vol.dev.disk s'.vol.sb m = inodeAt s.vol.dev.disk s.vol.sb m
  inode : s'.inode = s.inode

section

variable {v v₀ : Vol} {n offset len : UInt32} {ino : Inode} {who : OwIdentity} {buf : List UInt8} {s s' : FileState}

theorem Traceless.refl (s : FileState) : Traceless s s := ⟨(refl_of Still s.vol).unspent, fun _ _ => rfl, rfl⟩

/-- 読み直した inode への書き込みは、空きの数で決まる。 -/
theorem Ready.wp_fileWrite (hr : Ready v) (hx : FreeExact v.dev.disk v.sb) (hread : inodeRead n v = (.ok ino, v₀))
    (hbuf : len.toNat ≤ buf.length) (hok : Permits who ⟨v₀, ino⟩ offset len) :
    wp (fileWrite who n buf offset len)
      (fun w s' => w = len ∧
        v.sb.freeBlocks.toNat = s'.vol.sb.freeBlocks.toNat + writeNeed ino.blockCount.toNat offset len)
      (fun e s' => e = .noFreeBlocks ∧
        RanShort (slotInode v.dev.disk v.sb) n ⟨v₀, ino⟩ s' (lastBlockOf offset len)) ⟨v₀, ino⟩ := by
  obtain ⟨⟨c, rfl⟩, hn, hp, hsound⟩ := hr.freshRead hread (live_of_file hok.file)
  have hwp := fileWrite_exact (s := ⟨v.atClock c, ino⟩) hsound hn hp hr.faultFree hr.serves hx hbuf hok
  exact hwp.mono (fun _ _ h => h) (fun _ _ h => h)

/-- 空きの足りない書き込みは、途中で止まる。 -/
theorem Ready.runs_short (hr : Ready v) (hx : FreeExact v.dev.disk v.sb) (hread : inodeRead n v = (.ok ino, v₀))
    (hbuf : len.toNat ≤ buf.length) (hok : Permits who ⟨v₀, ino⟩ offset len)
    (hlt : v.sb.freeBlocks.toNat < writeNeed ino.blockCount.toNat offset len) :
    ∃ s', fileWrite who n buf offset len ⟨v₀, ino⟩ = (.error .noFreeBlocks, s') ∧
      RanShort (slotInode v.dev.disk v.sb) n ⟨v₀, ino⟩ s' (lastBlockOf offset len) := by
  have hfail : wp (fileWrite who n buf offset len) (fun _ _ => False)
      (fun e s' => e = .noFreeBlocks ∧
        RanShort (slotInode v.dev.disk v.sb) n ⟨v₀, ino⟩ s' (lastBlockOf offset len)) ⟨v₀, ino⟩ := by
    refine (hr.wp_fileWrite hx hread hbuf hok).mono (fun w s' h => ?_) (fun _ _ h => h)
    have hfree := h.2
    omega
  obtain ⟨e, s', hrun, rfl, hshort⟩ := hfail.exists_error
  exact ⟨s', hrun, hshort⟩

/-! ## 要る数 -/

/-- 書き込みは、要る数の空きがあれば全部を書いてその数だけ空きを減らし、なければ空きがないと返す。 -/
theorem fileWrite_need_exact (hr : Ready v) (hx : FreeExact v.dev.disk v.sb) (hread : inodeRead n v = (.ok ino, v₀))
    (hbuf : len.toNat ≤ buf.length) (hok : Permits who ⟨v₀, ino⟩ offset len) :
    (writeNeed ino.blockCount.toNat offset len ≤ v.sb.freeBlocks.toNat →
      ∃ s', fileWrite who n buf offset len ⟨v₀, ino⟩ = (.ok len, s') ∧
        s'.vol.sb.freeBlocks.toNat + writeNeed ino.blockCount.toNat offset len = v.sb.freeBlocks.toNat) ∧
    (v.sb.freeBlocks.toNat < writeNeed ino.blockCount.toNat offset len →
      ∃ s', fileWrite who n buf offset len ⟨v₀, ino⟩ = (.error .noFreeBlocks, s')) := by
  have hwp := hr.wp_fileWrite hx hread hbuf hok
  have hsb : v₀.sb = v.sb := hr.freshRead_sb hread
  refine ⟨fun hle => ?_, fun hlt => ?_⟩
  · have hdone : wp (fileWrite who n buf offset len)
        (fun w s' => w = len ∧
          v.sb.freeBlocks.toNat = s'.vol.sb.freeBlocks.toNat + writeNeed ino.blockCount.toNat offset len)
        (fun _ _ => False) ⟨v₀, ino⟩ := by
      refine hwp.mono (fun _ _ h => h) fun e s' he => ?_
      have hmore := he.2.needs_more
      rw [hsb] at hmore
      exact absurd hle (Nat.not_le.mpr hmore)
    obtain ⟨w, s', hrun, rfl, hfree⟩ := hdone.exists_ok
    exact ⟨s', hrun, hfree.symm⟩
  · obtain ⟨s', hrun, _⟩ := hr.runs_short hx hread hbuf hok hlt
    exact ⟨s', hrun⟩

/-! ## 断られた書き込みの跡 -/

/-- 一ブロックも取れずに止まった書き込みは、跡を残さない。 -/
theorem RanShort.traceless {f : UInt32 → Inode} {last : Nat} (h : RanShort f n s s' last)
    (hs : Sound s.vol.dev.disk s.vol.sb (Function.update f n s.inode)) (hn : n.toNat < s.vol.sb.totalInodes.toNat)
    (hlt : s.vol.sb.freeBlocks.toNat < stepCost s.inode.blockCount.toNat) : Traceless s s' := by
  have hcount : s'.inode.blockCount.toNat = s.inode.blockCount.toNat := by
    by_contra hne
    have hmore := h.ext.count
    have hspent := h.spent
    have hstep := growCost_succ (le_refl s.inode.blockCount.toNat)
    have hmono : growCost s.inode.blockCount.toNat (s.inode.blockCount.toNat + 1) ≤
        growCost s.inode.blockCount.toNat s'.inode.blockCount.toNat := growCost_mono (by omega)
    omega
  obtain ⟨hino, hunspent⟩ := h.start hcount
  exact ⟨hunspent, (h.ext.staged hs hn).table, hino⟩

/-- 一ブロックは取れた書き込みは、手元の inode にその跡を残す。 -/
theorem RanShort.not_traceless {f : UInt32 → Inode} {last : Nat} (h : RanShort f n s s' last)
    (hle : stepCost s.inode.blockCount.toNat ≤ s.vol.sb.freeBlocks.toNat) : ¬ Traceless s s' := by
  intro ht
  have hspent := h.spent
  have hshort := h.short
  rw [ht.inode] at hspent hshort
  rw [growCost_of_le le_rfl] at hspent
  omega

theorem stranded_of_short (hr : Ready v) (hx : FreeExact v.dev.disk v.sb) (hread : inodeRead n v = (.ok ino, v₀))
    (hbuf : len.toNat ≤ buf.length) (hok : Permits who ⟨v₀, ino⟩ offset len)
    (hlt : v.sb.freeBlocks.toNat < writeNeed ino.blockCount.toNat offset len)
    (hle : stepCost ino.blockCount.toNat ≤ v.sb.freeBlocks.toNat) :
    ∃ s', fileWrite who n buf offset len ⟨v₀, ino⟩ = (.error .noFreeBlocks, s') ∧ ¬ Traceless ⟨v₀, ino⟩ s' := by
  have hsb : v₀.sb = v.sb := hr.freshRead_sb hread
  obtain ⟨s', hrun, hshort⟩ := hr.runs_short hx hread hbuf hok hlt
  exact ⟨s', hrun, hshort.not_traceless (by rw [hsb]; exact hle)⟩

/-- 断られた書き込みが跡を残すのは、要る数に足りないが一ブロックは取れる場合で、その場合に限る。 -/
theorem failed_write_traceless_iff (hr : Ready v) (hx : FreeExact v.dev.disk v.sb)
    (hread : inodeRead n v = (.ok ino, v₀)) (hfile : ino.entryType &&& entryFile ≠ 0) (hbuf : len.toNat ≤ buf.length) :
    (∀ e s', fileWrite who n buf offset len ⟨v₀, ino⟩ = (.error e, s') → Traceless ⟨v₀, ino⟩ s') ↔
      ¬ (Permits who ⟨v₀, ino⟩ offset len ∧ v.sb.freeBlocks.toNat < writeNeed ino.blockCount.toNat offset len ∧
        stepCost ino.blockCount.toNat ≤ v.sb.freeBlocks.toNat) := by
  constructor
  · rintro h ⟨hok, hlt, hle⟩
    obtain ⟨s', hrun, htrace⟩ := stranded_of_short hr hx hread hbuf hok hlt hle
    exact htrace (h _ _ hrun)
  · intro hno e s' hrun
    by_cases hok : Permits who ⟨v₀, ino⟩ offset len
    · have hwp := hr.wp_fileWrite hx hread hbuf hok
      rw [wp, hrun] at hwp
      obtain ⟨_, hshort⟩ := hwp
      obtain ⟨_, hn, _, hsound⟩ := hr.freshRead hread (live_of_file hfile)
      have hsb : v₀.sb = v.sb := hr.freshRead_sb hread
      have hmore := hshort.needs_more
      rw [hsb] at hmore
      refine hshort.traceless hsound hn ?_
      rw [hsb]
      by_contra hle
      exact hno ⟨hok, hmore, Nat.not_lt.mp hle⟩
    · have hidle : Idle (fileWrite who n buf offset len) ⟨v₀, ino⟩ := Permits.idle_fileWrite_of_not hok
      have hidle := hidle.state
      rw [hrun] at hidle
      obtain rfl : s' = _ := hidle
      exact .refl _

end

/-! ## 空きが四つのボリュームの例 -/

theorem permits_wrote {offset len : UInt32} (hne : len ≠ 0) (hfit : offset.toNat + len.toNat ≤ 1034 * 4096) :
    Permits ⟨0, 0⟩ ⟨(inodeLoad 1 (wrote mountedVolume)).2,
      inodeAt (wrote mountedVolume).dev.disk (wrote mountedVolume).sb 1⟩ offset len := by
  have hsb := inSession_wrote.toReady.freshRead_sb read_wrote
  refine ⟨by decide +kernel, hne, ?_, unfenced_wrote, hfit⟩
  change volumeWritable (inodeLoad 1 (wrote mountedVolume)).2.sb = .ok ()
  rw [hsb]
  decide +kernel

theorem wrote_state : (inodeAt (wrote mountedVolume).dev.disk (wrote mountedVolume).sb 1).blockCount.toNat = 1 ∧
    (wrote mountedVolume).sb.freeBlocks.toNat = 4 := by
  decide +kernel

/-- 一ブロックのファイルを四ブロックにする書き込みは、空きを三つ使う。 -/
theorem wrote_need_three : ∃ s', fileWrite ⟨0, 0⟩ 1 (List.replicate 4 5) 12288 4
      ⟨(inodeLoad 1 (wrote mountedVolume)).2, inodeAt (wrote mountedVolume).dev.disk (wrote mountedVolume).sb 1⟩ =
        (.ok 4, s') ∧ s'.vol.sb.freeBlocks.toNat + 3 = 4 := by
  obtain ⟨hcount, hfree⟩ := wrote_state
  have hbuf : (4 : UInt32).toNat ≤ (List.replicate 4 (5 : UInt8)).length := List.length_replicate.ge
  have hok : Permits ⟨0, 0⟩ ⟨(inodeLoad 1 (wrote mountedVolume)).2,
      inodeAt (wrote mountedVolume).dev.disk (wrote mountedVolume).sb 1⟩ 12288 4 :=
        permits_wrote (by decide) (by decide)
  have hexact := fileWrite_need_exact inSession_wrote.toReady inSession_wrote.exact read_wrote hbuf hok
  rw [hcount, hfree] at hexact
  exact hexact.1 (by decide)

/-- 四つの空きに五ブロックを足そうとする書き込みは、断られても跡を残す。 -/
theorem failed_write_strands_blocks : ¬ ∀ (v v₀ : Vol) (n offset len : UInt32) (ino : Inode) (who : OwIdentity)
    (buf : List UInt8), Ready v → FreeExact v.dev.disk v.sb → inodeRead n v = (.ok ino, v₀) →
    ino.entryType &&& entryFile ≠ 0 → len.toNat ≤ buf.length →
    ∀ e s', fileWrite who n buf offset len ⟨v₀, ino⟩ = (.error e, s') → Traceless ⟨v₀, ino⟩ s' := by
  intro hclaim
  obtain ⟨hcount, hfree⟩ := wrote_state
  have hbuf : (24576 : UInt32).toNat ≤ (List.replicate 24576 (5 : UInt8)).length := List.length_replicate.ge
  have hok : Permits ⟨0, 0⟩ ⟨(inodeLoad 1 (wrote mountedVolume)).2,
      inodeAt (wrote mountedVolume).dev.disk (wrote mountedVolume).sb 1⟩ 0 24576 :=
        permits_wrote (by decide) (by decide)
  obtain ⟨s', hrun, htrace⟩ := stranded_of_short inSession_wrote.toReady inSession_wrote.exact read_wrote hbuf hok
    (by rw [hcount, hfree]; decide) (by rw [hcount, hfree]; decide)
  exact htrace (hclaim _ _ _ _ _ _ _ _ inSession_wrote.toReady inSession_wrote.exact read_wrote hok.file hbuf _ _ hrun)

/-- 空きの足りる書き込みについては、断られた跡はない。 -/
theorem overlong_write_on_wrote : ∃ e s', fileWrite ⟨0, 0⟩ 1 (List.replicate 4 5) 4235264 4
      ⟨(inodeLoad 1 (wrote mountedVolume)).2, inodeAt (wrote mountedVolume).dev.disk (wrote mountedVolume).sb 1⟩ =
        (.error e, s') ∧
    Traceless ⟨(inodeLoad 1 (wrote mountedVolume)).2,
      inodeAt (wrote mountedVolume).dev.disk (wrote mountedVolume).sb 1⟩ s' := by
  have hbuf : (4 : UInt32).toNat ≤ (List.replicate 4 (5 : UInt8)).length := List.length_replicate.ge
  have hfile : (inodeAt (wrote mountedVolume).dev.disk (wrote mountedVolume).sb 1).entryType &&& entryFile ≠ 0 := by
    decide +kernel
  have hclaim : ∀ e s', fileWrite ⟨0, 0⟩ 1 (List.replicate 4 5) 4235264 4 ⟨(inodeLoad 1 (wrote mountedVolume)).2,
      inodeAt (wrote mountedVolume).dev.disk (wrote mountedVolume).sb 1⟩ = (.error e, s') → Traceless _ s' :=
    (failed_write_traceless_iff inSession_wrote.toReady inSession_wrote.exact read_wrote hfile hbuf).mpr
      fun hshort => absurd hshort.1.fits (by decide)
  have herr : (fileWrite ⟨0, 0⟩ 1 (List.replicate 4 5) 4235264 4 ⟨(inodeLoad 1 (wrote mountedVolume)).2,
      inodeAt (wrote mountedVolume).dev.disk (wrote mountedVolume).sb 1⟩).1.isOk = false := by
    decide +kernel
  rcases hrun : fileWrite ⟨0, 0⟩ 1 (List.replicate 4 5) 4235264 4 ⟨(inodeLoad 1 (wrote mountedVolume)).2,
      inodeAt (wrote mountedVolume).dev.disk (wrote mountedVolume).sb 1⟩ with ⟨r, s'⟩
  rw [hrun] at herr
  cases r with
  | ok w => cases herr
  | error e => exact ⟨e, s', rfl, hclaim e s' hrun⟩

end OwStorage.Owfs
