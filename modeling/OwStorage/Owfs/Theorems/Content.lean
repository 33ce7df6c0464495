import OwStorage.Owfs.Lemmas.Format

/-!
# ファイルの内容はバイトの並びである

通った書き込みの後の読み取りは、前の内容に書いたバイトを重ねた並びの一部を返す。装置の失敗があってもよい。
-/

namespace OwStorage.Owfs

open Lib Prog

section

variable {v v₀ v₁ : Vol} {n : UInt32} {ino ino' : Inode} {who : OwIdentity} {buf : List UInt8}
  {offset len w : UInt32}

theorem reads_faultless {b : UInt32} (h : v.dev.Reads b) : v.faultless.dev.Reads b := ⟨h.valid, h.inRange⟩

/-- ファイルでない inode への書き込みは通らない。 -/
theorem isFile_of_fileWrite {s s' : FileState} (h : fileWrite who n buf offset len s = (.ok w, s')) :
    s.inode.entryType &&& entryFile ≠ 0 := by
  have hwp : wp (fileWrite who n buf offset len) (fun _ _ => s.inode.entryType &&& entryFile ≠ 0)
      (fun _ _ => True) s := by
    unfold fileWrite
    rw [wp_bind, wp_get, wp_bind, wp_failIf]
    exact ⟨fun _ => trivial, fun hfile => wp_trivial.mono (fun _ _ _ => hfile) (fun _ _ _ => trivial)⟩
  exact hwp.ok h

/-- 読み直した inode への、通った書き込みの結果。 -/
theorem overwritten_of_fileWrite (hwf : WellFormed v) (hread : inodeRead n v = (.ok ino, v₀))
    (hbuf : len.toNat ≤ buf.length) (hwrite : fileWrite who n buf offset len ⟨v₀, ino⟩ = (.ok w, ⟨v₁, ino'⟩)) :
    n.toNat < v.sb.totalInodes.toNat ∧ w.toNat ≤ len.toNat ∧
      Overwritten (slotInode v.dev.disk v.sb) n ⟨v, ino⟩ ⟨v₁, ino'⟩ offset.toNat (buf.take w.toNat) := by
  obtain ⟨hn, hino, _, c, hstill⟩ := (inodeRead_spec (Sound.layout hwf) n).ok hread
  subst hino hstill
  have ht : (inodeAt v.dev.disk v.sb n).entryType ≠ 0 := by
    intro hz
    have hfile : (inodeAt v.dev.disk v.sb n).entryType &&& entryFile ≠ 0 := isFile_of_fileWrite hwrite
    rw [hz] at hfile
    exact hfile rfl
  have hsound : Sound v.dev.disk v.sb
      (Function.update (slotInode v.dev.disk v.sb) n (inodeAt v.dev.disk v.sb n)) := by
    rw [update_slotInode ht]
    exact hwf
  obtain ⟨_, hle, hover⟩ := (fileWrite_spec (s := ⟨v.atClock c, inodeAt v.dev.disk v.sb n⟩)
    hsound hn rfl who hbuf).ok hwrite
  have hset := hover.settled
  refine ⟨hn, hle, ⟨hset.sound, hset.shape, HtlDevice.Evolves.atClock.trans hset.dev, hset.exact, hset.table,
    hset.others⟩, hover.fields, hover.verified, hover.size, hover.content⟩

/-- 通った書き込みの後、失敗のない読み取りは、前の内容に書いたバイトを重ねた並びの一部を返す。大きさと、ディスクの上の
inode も合い、ほかのファイルの内容は変わらない。 -/
theorem fileWrite_refines_bytes (hwf : WellFormed v) (hdev : ReadsData v.dev.toHtlConfig v.sb)
    (hread : inodeRead n v = (.ok ino, v₀)) (hoff : offset ≤ ino.sizeBytes) (hbuf : len.toNat ≤ buf.length)
    (hwrite : fileWrite who n buf offset len ⟨v₀, ino⟩ = (.ok w, ⟨v₁, ino'⟩)) :
    (∀ reader off cnt, inodeAccessCheck reader ino' accessRead = .ok () →
      (fileRead reader ino' off cnt v₁.faultless).1 = .ok
        ((((fileContent v.dev.disk v.sb ino).take offset.toNat ++ buf.take w.toNat ++
          (fileContent v.dev.disk v.sb ino).drop (offset.toNat + w.toNat)).drop off.toNat).take cnt.toNat)) ∧
      ino'.sizeBytes.toNat = max ino.sizeBytes.toNat (offset.toNat + w.toNat) ∧
      inodeAt v₁.dev.disk v₁.sb n = ino' ∧
      ∀ m : UInt32, m ≠ n → m.toNat < v.sb.totalInodes.toNat → (inodeAt v.dev.disk v.sb m).entryType ≠ 0 →
        inodeAt v₁.dev.disk v₁.sb m = inodeAt v.dev.disk v.sb m ∧
          fileContent v₁.dev.disk v₁.sb (inodeAt v₁.dev.disk v₁.sb m) =
            fileContent v.dev.disk v.sb (inodeAt v.dev.disk v.sb m) := by
  obtain ⟨hn, hle, hover⟩ := overwritten_of_fileWrite hwf hread hbuf hwrite
  have hset := hover.settled
  have hoff' : offset.toNat ≤ ino.sizeBytes.toNat := UInt32.le_iff_toNat_le.mp hoff
  have hdata : (buf.take w.toNat).length = w.toNat := by
    rw [List.length_take]
    omega
  have hn₁ : n.toNat < v₁.sb.totalInodes.toNat := by
    rw [hset.shape.totalInodes]
    exact hn
  refine ⟨fun reader off cnt hacc => ?_, ?_, ?_, fun m hmn hm ht => ?_⟩
  · have hcontent := hover.content hoff'
    unfold splice at hcontent
    rw [hdata] at hcontent
    have htype : ino'.entryType = ino.entryType := hover.entryType_eq
    have hfile : ino'.entryType &&& entryFile ≠ 0 := by
      rw [htype]
      exact isFile_of_fileWrite hwrite
    have hreads : ReadsData v₁.faultless.dev.toHtlConfig v₁.sb := by
      have hconf : v₁.faultless.dev.WholeBlocks := by
        change v₁.dev.blockSize = 0x1000
        rw [hset.dev.config]
        exact hdev.wholeBlocks
      refine ⟨fun b hb => reads_faultless (v := v₁) ?_, hconf⟩
      rw [hset.dev.config]
      exact hdev.reads b (hset.shape.isData.mp hb)
    have hwp : wp (fileRead reader ino' off cnt)
        (fun out _ => out = ((fileContent v₁.dev.disk v₁.sb ino').drop off.toNat).take cnt.toNat)
        (fun _ _ => False) v₁.faultless := by
      refine (fileRead_spec (v := v₁.faultless) hset.sound hn₁ reader off cnt).mono (fun _ _ h => h.2) ?_
      rintro e v' ⟨_, hbad⟩
      rcases hbad ⟨faultFree_faultless, hreads⟩ with hno | hno
      · exact hfile hno
      · exact hno hacc
    obtain ⟨out, v', hrun, rfl⟩ := hwp.exists_ok
    rw [hrun, ← hcontent]
  · have hsize := hover.size hoff'
    rwa [hdata] at hsize
  · rw [hset.table n hn, if_pos rfl]
  · have hrow : inodeAt v₁.dev.disk v₁.sb m = inodeAt v.dev.disk v.sb m := by
      rw [hset.table m hm, if_neg hmn]
    refine ⟨hrow, ?_⟩
    have hself : Sound v.dev.disk v.sb
      (Function.update (slotInode v.dev.disk v.sb) n (slotInode v.dev.disk v.sb n)) := by
      rw [Function.update_eq_self]
      exact hwf
    have hother := hset.others.content_eq hself hset.shape hm hmn
    rw [slotInode_of_live ht] at hother
    rw [hrow]
    exact hother

end

/-! ## 小さなボリュームの例 -/

/-- フォーマットした直後に、ファイルを一つ作ったボリューム。 -/
def madeVolume : Vol :=
  (inodeAlloc ⟨0, 0⟩ entryFile none 0 0
    (formatBody ⟨blankDevice, freshSuperblock 280 none (Bytes.zero 12)⟩).2).2

theorem ready_madeVolume : Ready madeVolume ∧ Summed madeVolume := by
  obtain ⟨hready, hsums⟩ := ready_formatBody 280 none (Bytes.zero 12) faultFree_blankDevice rfl
    (by decide) (by decide) (by decide) (by decide +kernel)
  unfold madeVolume
  obtain ⟨hafter, hcarry⟩ := hready.after (upholds_inodeAlloc ⟨0, 0⟩ entryFile none 0 0)
  exact ⟨hafter, hcarry.sums hsums⟩

/-- 作ったばかりのファイルに 3 バイトを書くと、読み取りはその 3 バイトを返す。 -/
theorem fileWrite_refines_bytes_on_madeVolume :
    ∃ ino v₀ v₁ ino', inodeRead 1 madeVolume = (.ok ino, v₀) ∧
      fileWrite ⟨0, 0⟩ 1 [1, 2, 3] 0 3 ⟨v₀, ino⟩ = (.ok 3, ⟨v₁, ino'⟩) ∧
      (fileRead ⟨0, 0⟩ ino' 0 10 v₁.faultless).1 = .ok [1, 2, 3] ∧ ino'.sizeBytes.toNat = 3 := by
  obtain ⟨hr, hs⟩ := ready_madeVolume
  have hread := hr.inodeRead_eq hs (n := 1) (by decide +kernel)
  have hwrite := run_eq (p := fileWrite ⟨0, 0⟩ 1 [1, 2, 3] 0 3) (r := .ok 3)
    (s := ⟨(inodeLoad 1 madeVolume).2, inodeAt madeVolume.dev.disk madeVolume.sb 1⟩) (by decide +kernel)
  have hempty : (inodeAt madeVolume.dev.disk madeVolume.sb 1).sizeBytes = 0 := by decide +kernel
  have hroot : ∀ ino, inodeAccessCheck ⟨0, 0⟩ ino accessRead = .ok () := fun _ => rfl
  generalize (fileWrite ⟨0, 0⟩ 1 [1, 2, 3] 0 3
    ⟨(inodeLoad 1 madeVolume).2, inodeAt madeVolume.dev.disk madeVolume.sb 1⟩).2 = s' at hwrite
  obtain ⟨v₁, ino'⟩ := s'
  obtain ⟨hbytes, hsize, -, -⟩ := fileWrite_refines_bytes hr.sound hr.serves.readsData hread
    (by rw [hempty]; decide) (by decide) hwrite
  refine ⟨_, _, v₁, ino', hread, hwrite, ?_, ?_⟩
  · rw [hbytes ⟨0, 0⟩ 0 10 (hroot ino')]
    unfold fileContent pages
    rw [hempty]
    simp
  · rw [hsize, hempty]
    rfl

end OwStorage.Owfs
