import OwStorage.Owfs.Lemmas.Apart
import OwStorage.Owfs.Lemmas.Escape
import OwStorage.Owfs.Lemmas.Timed
import OwStorage.Owfs.Lemmas.Check

/-!
# 中身を信じられない inode

検査値の合う inode の記録は、それだけでは範囲の中のブロックを指すとは限らない。ファイルの操作が、間接ブロックの中のポインタと
データ領域のブロックにしか触れないのは、記録がどういうときかを述べる。
-/

namespace OwStorage.Owfs

open Lib Prog

/-! ## 性質と条件 -/

/-- 装置の失敗の仕方によらず、inode を通した読み取りも書き込みも切り詰めも、範囲の中にだけ触れる。 -/
structure SafeAccess (v : Vol) (n : UInt32) (ino : Inode) : Prop where
  read : ∀ g who offset len,
    ∀ a ∈ (Tracked.fileRead who ino offset len ⟨refault Vol.devLens g v, []⟩).2.log, a.Inside v.sb
  write : ∀ g who buf offset len, UInt32.toNat len ≤ List.length buf →
    ∀ a ∈ (Tracked.fileWrite who n buf offset len ⟨refault FileState.devLens g ⟨v, ino⟩, []⟩).2.log, a.Inside v.sb
  truncate : ∀ g who size,
    ∀ a ∈ (Tracked.fileTruncate who n size ⟨refault FileState.devLens g ⟨v, ino⟩, []⟩).2.log, a.Inside v.sb

/-- 記録の大きさとブロックの数とポインタが、範囲に収まる。 -/
structure Contained (v : Vol) (ino : Inode) : Prop where
  /-- 大きさとブロックの数の両方に収まる番号は 1034 未満で、読めるポインタは範囲の中を指す。 -/
  read : ino.entryType &&& entryFile ≠ 0 → ∀ i, i * 4096 < ino.sizeBytes.toNat → i < ino.blockCount.toNat →
    (v.scene ino).Readable v.dev.toHtlConfig i → i < 1034 ∧ (v.scene ino).PointsInside i
  /-- 最初の空きブロックを一つずつ足したどの記録でも、ポインタは範囲の中を指し、書き換えてからたどることができない。 -/
  write : Gate v ino → ∀ x, AppendsMany v.dev.toHtlConfig (v.scene ino) x → x.Pointed v.dev.toHtlConfig ∧ ¬ x.Forgeable
  /-- 1034 個を越えるブロックの解放は、間接ブロックを読めないか、1034 番より前で断られる。 -/
  release : Gate v ino → ino.sizeBytes ≠ 0 → 1034 < ino.blockCount.toNat → ino.indirectBlock ≠ 0 →
    v.dev.Reads ino.indirectBlock → ∀ k, k * 4096 < ino.sizeBytes.toNat + 4095 → (v.scene ino).Stops k

/-! ## 記録の条件は要るだけである -/

section

variable {v : Vol} {n : UInt32} {ino : Inode}

theorem SafeAccess.contained (hl : Layout v.sb) (hff : v.dev.FaultFree) (hs : Serves v.dev.toHtlConfig v.sb)
    (hn : n.toNat < v.sb.totalInodes.toNat)
    (hread : ∀ who offset len, ∀ a ∈ (Tracked.fileRead who ino offset len ⟨v, []⟩).2.log, a.Inside v.sb)
    (hwrite : ∀ who buf offset len, UInt32.toNat len ≤ List.length buf →
      ∀ a ∈ (Tracked.fileWrite who n buf offset len ⟨⟨v, ino⟩, []⟩).2.log, a.Inside v.sb)
    (htruncate : ∀ who size, ∀ a ∈ (Tracked.fileTruncate who n size ⟨⟨v, ino⟩, []⟩).2.log, a.Inside v.sb) :
    Contained v ino := by
  constructor
  case read =>
    intro hfile i hsize hbc hopen
    have hmax := ino.sizeBytes.toNat_lt
    have htouch := (read_touches hff hfile hsize hbc hopen).state
    have hin := htouch.inside (hread ⟨0, 0⟩ _ 1)
    rw [toNat_ofNat_lt (by omega)] at hin
    exact hin
  case write =>
    intro hgate x hx
    have hshape : SameShape v.sb x.sb := hx.shape
    have hpointed : x.Pointed v.dev.toHtlConfig := by
      intro i hi hbc hopen hne
      have hhit := (write_aims hl hff hs hgate hn hx hi hbc hopen hne).state
      exact hshape.isData.mpr (hwrite ⟨0, 0⟩ _ _ _ (by rw [length_cycle]) _ hhit)
    refine ⟨hpointed, ?_⟩
    rintro ⟨hdata, i, hself, hopen⟩
    have hi : i < min x.ino.blockCount.toNat 1034 := by
      have hlt := hopen.1
      omega
    have hhit := (write_hits hl hff hs hgate hn hx hi _ fun s hscene hconfig =>
      writeLoop_forges (hshape.layout hl) hff (hshape.serves hs) hpointed hself hdata hopen hscene hconfig).state
    have hin : v.sb.IsData 1 := hwrite ⟨0, 0⟩ _ _ _ (by rw [length_cycle]) _ hhit
    have hone : (1 : UInt32).toNat = 1 := rfl
    have hlow := hin.1
    have hbitmap := hl.bitmapAfter
    have htable := hl.tableAfter
    have hafter := hl.dataAfter
    omega
  case release =>
    intro hgate hsize hbc hind hreads k hk
    by_contra hgo
    have hbad : ∀ k, k ≤ 1034 → k * 4096 < ino.sizeBytes.toNat + 4095 → (v.scene ino).Stops k := by
      intro k hmax hk
      by_contra hgo
      have hover := (truncate_overruns hl hff hs hgate hn hsize hbc hind hreads hmax hk hgo).state
      have hbad : (1024 : UInt32).toNat < 1024 := htruncate ⟨0, 0⟩ _ _ hover
      exact absurd hbad (by decide)
    rcases Nat.le_total k 1034 with hle | hge
    · exact hgo (hbad k hle hk)
    · -- 1034 番より後への切り詰めが許されるなら、1034 番への切り詰めも許される。
      obtain ⟨i, hi, hmax, _⟩ := hbad 1034 le_rfl (lt_of_le_of_lt (Nat.mul_le_mul_right 4096 hge) hk)
      exact absurd hmax (Nat.not_lt.mpr hi)

/-- 条件は、ディスクとスーパーブロックと、装置の読み書きできるブロックだけで決まる。 -/
theorem Contained.transfer {v' : Vol} (h : Contained v ino) (hscene : v'.scene ino = v.scene ino)
    (hreads : ∀ b, v'.dev.Reads b → v.dev.Reads b) (hwrites : ∀ b, v'.dev.Writes b → v.dev.Writes b) :
    Contained v' ino := by
  have hsb : v'.sb = v.sb := congrArg Scene.sb hscene
  have hgate : Gate v' ino → Gate v ino := fun hg => ⟨hg.file, hsb ▸ hg.writable, hg.notReadonly⟩
  constructor
  case read =>
    intro hfile i hsize hbc hopen
    rw [hscene] at hopen ⊢
    exact h.read hfile i hsize hbc fun hten => ⟨(hopen hten).1, hreads _ (hopen hten).2⟩
  case write =>
    intro hg x hx
    rw [hscene] at hx
    obtain ⟨hpointed, hforge⟩ := h.write (hgate hg) x (hx.config hwrites)
    exact ⟨fun i hi hbc hopen => hpointed i hi hbc fun hten => ⟨(hopen hten).1, hreads _ (hopen hten).2⟩, hforge⟩
  case release =>
    intro hg hsize hbc hind hread
    rw [hscene]
    exact h.release (hgate hg) hsize hbc hind (hreads _ hread)

/-- 装置の失敗と時刻は、条件に関わらない。 -/
theorem contained_refault (g : Nat → Option HtlErr) (c : Nat) :
    Contained (refault Vol.devLens g (v.atClock c)) ino ↔ Contained v ino :=
  ⟨fun h => h.transfer rfl (fun _ hb => ⟨hb.valid, hb.inRange⟩) fun _ hb => ⟨⟨hb.valid, hb.inRange⟩, hb.unprotected⟩,
    fun h => h.transfer rfl (fun _ hb => ⟨hb.valid, hb.inRange⟩) fun _ hb => ⟨⟨hb.valid, hb.inRange⟩, hb.unprotected⟩⟩

/-- 検査値の合う記録を通した操作が範囲の中にだけ触れるのは、記録が範囲に収まるとき、かつそのときに限る。 -/
theorem hostile_inode_safe (hl : Layout v.sb) (hs : Serves v.dev.toHtlConfig v.sb) {v₀ : Vol}
    (hread : inodeRead n v = (.ok ino, v₀)) : SafeAccess v₀ n ino ↔ Contained v ino := by
  obtain ⟨hn, -, -, c, rfl⟩ := (inodeRead_spec hl n).ok hread
  constructor
  · intro hsafe
    rw [← contained_refault (fun _ => none) c]
    have hserves : Serves (refault Vol.devLens (fun _ => none) (v.atClock c)).dev.toHtlConfig v.sb :=
      ⟨fun b hb => ⟨⟨(hs.writes b hb).valid, (hs.writes b hb).inRange⟩, (hs.writes b hb).unprotected⟩, hs.wholeBlocks⟩
    exact SafeAccess.contained hl (fun _ => rfl) hserves hn (hsafe.read fun _ => none) (hsafe.write fun _ => none)
      (hsafe.truncate fun _ => none)
  · intro h
    constructor
    case read =>
      exact fun g who offset len => (read_inside ((contained_refault g c).mpr h).read who offset len).state
    case write =>
      intro g who buf offset len _
      exact (write_inside (s := ⟨refault Vol.devLens g (v.atClock c), ino⟩) hl
        ((contained_refault g c).mpr h).write who n buf
        offset len).state
    case truncate =>
      intro g who size
      exact (truncate_inside (s := ⟨refault Vol.devLens g (v.atClock c), ino⟩) hl
        ((contained_refault g c).mpr h).release who n
        size).state

/-- 間接ブロックの離れた記録は、番号がどれも 1034 未満なら、範囲に収まる。 -/
theorem Scene.Apart.contained (h : (v.scene ino).Apart) (hbc : ino.blockCount.toNat ≤ 1034) : Contained v ino := by
  constructor
  case read =>
    exact fun _ i _ hi hopen => ⟨lt_of_lt_of_le hi hbc, h.pointed i (lt_of_lt_of_le hi hbc) hi hopen⟩
  case write => exact fun _ x hx => ⟨(h.appendsMany hx).pointed, (h.appendsMany hx).not_forgeable⟩
  case release => exact fun _ _ hmany => absurd hmany (Nat.not_lt.mpr hbc)

/-- 整合したボリュームの inode は、どれも条件を満たす。 -/
theorem Sound.contained {f : UInt32 → Inode} (h : Sound v.dev.disk v.sb f) (hn : n.toNat < v.sb.totalInodes.toNat) :
    Contained v (f n) := by
  have hshape := h.shaped n hn
  have hused : ∀ i, i < (f n).blockCount.toNat → (v.scene (f n)).block i ∈ usedSet v.dev.disk v.sb := fun i hi =>
    h.owns.mapsTo (show (n, some i) ∈ refs v.sb f from ⟨hn, hi⟩)
  have hlive : (f n).indirectBlock ≠ 0 → (n, none) ∈ refs v.sb f := fun hind => ⟨hn, hind⟩
  refine Scene.Apart.contained ⟨h.layout, fun i _ hbc _ _ => (hused i hbc).1, fun hind => ?_, fun hind _ => ⟨?_, ?_⟩,
    fun _ i _ hbc _ => hused i hbc⟩ hshape.blocks
  · exact h.layout.data_not_bitmap (h.owns.mapsTo (hlive hind)).1
  · exact h.owns.mapsTo (hlive hind)
  · intro i _ hbc heq
    have hmem : (n, some i) ∈ refs v.sb f := ⟨hn, hbc⟩
    exact absurd (h.owns.injOn hmem (hlive hind) heq) (by intro hp; cases hp)

end

theorem hostile_inode_safe_on_wrote : SafeAccess (inodeLoad 1 (wrote mountedVolume)).2 1
    (inodeAt (wrote mountedVolume).dev.disk (wrote mountedVolume).sb 1) := by
  have hr := inSession_wrote.toReady
  have hn : (1 : UInt32).toNat < (wrote mountedVolume).sb.totalInodes.toNat := by decide +kernel
  have hslot : slotInode (wrote mountedVolume).dev.disk (wrote mountedVolume).sb 1 =
      inodeAt (wrote mountedVolume).dev.disk (wrote mountedVolume).sb 1 := slotInode_of_live (by decide +kernel)
  have hcontained := hr.sound.contained hn
  rw [hslot] at hcontained
  exact (hostile_inode_safe hr.sound.layout hr.serves read_wrote).mpr hcontained

/-- データ領域の外のブロック 1 を、直接のポインタに持つファイル。 -/
def strayInode : Inode :=
  { Inode.zero with
    entryType := entryFile
    sizeBytes := 1
    blockCount := 1
    directBlocks := (Vector.replicate 10 0).setIfInBounds 0 1 }

/-- 検査値の合う記録を通した一バイトの読み取りが、ブロック 1 をファイルのデータとして読む。 -/
theorem stray_read_escapes : ∃ v v₀, Layout v.sb ∧ Serves v.dev.toHtlConfig v.sb ∧
    inodeRead 1 v = (.ok strayInode.sealed, v₀) ∧ ¬ SafeAccess v₀ 1 strayInode.sealed := by
  have hr : Ready formattedVolume := formatted_formattedVolume.1.ready faultFree_formattedVolume
  have hn : (1 : UInt32).toNat < formattedVolume.sb.totalInodes.toNat := by decide +kernel
  have hopen : volumeWritable formattedVolume.sb = .ok () := by decide +kernel
  obtain ⟨_, s, _, hent, hrec⟩ := (inodeWrite_spec (s := ⟨formattedVolume, strayInode⟩) hr.sound.layout 1).exists_ok_of
    fun _ _ h => h.2 ⟨hr.faultFree, hr.serves⟩ ⟨hn, hopen⟩
  have hlayout : Layout s.vol.sb := by
    rw [hrec.sb]
    exact hr.sound.layout
  have hserves : Serves s.vol.dev.toHtlConfig s.vol.sb := by
    rw [hrec.sb, hrec.dev.config]
    exact hr.serves
  have hff : s.vol.dev.FaultFree := hrec.dev.faultFree hr.faultFree
  have hat : inodeAt s.vol.dev.disk s.vol.sb 1 = strayInode.sealed := by
    rw [hrec.sb, hrec.table 1 hn, if_pos rfl]
  have hread : wp (inodeRead 1) (fun ino v' => ino = strayInode.sealed ∧ Still s.vol v') (fun _ _ => False) s.vol := by
    refine (inodeRead_spec hlayout 1).mono (fun _ _ h => ⟨h.2.1.trans hat, h.2.2.2⟩) ?_
    rintro e v' ⟨_, ⟨_, hno⟩ | ⟨_, _, hbad⟩ | ⟨_, hno⟩⟩
    · rw [hrec.sb] at hno
      exact hno hn
    · rw [hat, verify_sealed] at hbad
      cases hbad
    · exact hno ⟨hff, hserves⟩
  obtain ⟨_, v₀, hrun, rfl, c, rfl⟩ := hread.exists_ok
  refine ⟨s.vol, _, hlayout, hserves, hrun, fun hsafe => ?_⟩
  have hfile : strayInode.sealed.entryType &&& entryFile ≠ 0 := by decide
  have htouch := (read_touches (v := refault Vol.devLens (fun _ => none) (s.vol.atClock c))
    (fun _ => rfl) hfile (i := 0)
    (by decide) (by decide) (fun h => absurd h (by decide))).state
  have hin := (htouch.inside (hsafe.read (fun _ => none) ⟨0, 0⟩ _ 1)).2
  have hdata : s.vol.sb.IsData 1 := hin (by decide : (1 : UInt32) ≠ 0)
  have hlow := hdata.1
  have hbitmap := hlayout.bitmapAfter
  have htable := hlayout.tableAfter
  have hafter := hlayout.dataAfter
  have hone : (1 : UInt32).toNat = 1 := rfl
  omega

end OwStorage.Owfs
