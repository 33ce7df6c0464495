import OwStorage.Owfs.Lemmas.Ledger
import OwStorage.Owfs.Lemmas.Check

/-!
# ファイルの切り詰め

切り詰めは、内容の先頭を残し、残さないブロックと、要らなくなった間接ブロックを、ちょうど空きに戻す。
-/

namespace OwStorage.Owfs

open Lib Prog

/-- inode を `newSize` に切り詰めた。 -/
structure Shrunk (s s' : FileState) (newSize : UInt32) : Prop where
  fields : s'.inode =
    { s.inode with
      sizeBytes := newSize
      blockCount := s'.inode.blockCount
      directBlocks := s'.inode.directBlocks
      indirectBlock := s'.inode.indirectBlock
      checksum := s'.inode.checksum }
  count : s'.inode.blockCount.toNat = min s.inode.blockCount.toNat ((newSize.toNat + 4095) / 4096)
  content : fileContent s'.vol.dev.disk s'.vol.sb s'.inode =
    (fileContent s.vol.dev.disk s.vol.sb s.inode).take newSize.toNat
  repaid : Repaid s.vol s'.vol (releasedBlocks s.vol.dev.disk s.inode ((newSize.toNat + 4095) / 4096))

section

variable {f : UInt32 → Inode} {n newSize : UInt32} {s s' : FileState} {who : OwIdentity}

/-- 解放の後で大きさを書くと、切り詰めになる。 -/
theorem Released.shrunk (hr : Released f n s s' ((newSize.toNat + 4095) / 4096))
    (ht : Trimmed s s' ((newSize.toNat + 4095) / 4096))
    (h : Sound s.vol.dev.disk s.vol.sb (Function.update f n s.inode)) (hn : n.toNat < s.vol.sb.totalInodes.toNat)
    (hlt : newSize.toNat < s.inode.sizeBytes.toNat) {v : Vol}
    (hrec : Recorded s'.vol v n ({ s'.inode with sizeBytes := newSize } : Inode).sealed) :
    Shrunk s ⟨v, ({ s'.inode with sizeBytes := newSize } : Inode).sealed⟩ newSize := by
  have hcount : s'.inode.blockCount.toNat = min s.inode.blockCount.toNat ((newSize.toNat + 4095) / 4096) := by
    rw [hr.count, min_comm]
  have hheld := (h.shaped_self hn).size
  have hfit : newSize.toNat ≤ s'.inode.blockCount.toNat * 4096 := by
    rw [hcount]
    omega
  have hn' : n.toNat < s'.vol.sb.totalInodes.toNat := by rwa [hr.shape.totalInodes]
  have hsound := hr.sound h hn { s'.inode with sizeBytes := newSize } ⟨rfl, rfl, rfl, rfl⟩ hfit
  refine ⟨?_, hcount, ?_, ?_⟩
  · change ({ s'.inode with sizeBytes := newSize } : Inode).sealed = _
    rw [hr.fields]
    rfl
  · refine pages_prefix (by decide) (hcount.trans_le (min_le_left _ _)) hlt.le hfit fun i hi => ?_
    have hi' : i < s'.inode.blockCount.toNat := hi
    have hi₀ : i < s.inode.blockCount.toNat := by omega
    have hmap := hrec.map_eq hsound hn' rfl rfl hi'
    have hblk := hrec.block_eq hsound hn' rfl rfl hi'
    have hkeep : mapBlock s'.vol.dev.disk ({ s'.inode with sizeBytes := newSize } : Inode) i =
        mapBlock s.vol.dev.disk s.inode i := ht.keeps i (by omega) hi₀
    rw [hmap, hkeep, hr.dev.disk _ (h.layout.data_not_bitmap (h.mapBlock_isData hn hi₀))] at hblk
    have hflags : ({ s'.inode with sizeBytes := newSize } : Inode).sealed.securityFlags = s.inode.securityFlags := by
      change s'.inode.securityFlags = s.inode.securityFlags
      rw [hr.fields]
    have hshape : SameShape s.vol.sb v.sb := by
      rw [hrec.sb]
      exact hr.shape
    exact plainBlock_congr hshape hflags (hmap.trans hkeep) hblk
  · refine ht.repaid.unspent ⟨hrec.sb, fun x hx => hrec.dev.disk x fun hT => ?_⟩ hsound.layout
    exact hsound.layout.table_not_bitmap hT hx

/-- 失敗のない装置での切り詰め。 -/
theorem fileTruncate_exact (h : Sound s.vol.dev.disk s.vol.sb (Function.update f n s.inode))
    (hn : n.toNat < s.vol.sb.totalInodes.toNat) (hf : s.vol.dev.FaultFree) (hs : Serves s.vol.dev.toHtlConfig s.vol.sb)
    (hfile : s.inode.entryType &&& entryFile ≠ 0) (hw : volumeWritable s.vol.sb = .ok ())
    (hopen : ¬ Fenced who s.inode) (hlt : newSize.toNat < s.inode.sizeBytes.toNat) :
    wp (fileTruncate who n newSize) (fun _ s' => Shrunk s s' newSize) (fun _ _ => False) s := by
  have hl := h.layout
  have hneed := toNat_blocksFor newSize
  have hrecord : ∀ s₁, Released f n s s₁ ((newSize.toNat + 4095) / 4096) →
      Trimmed s s₁ ((newSize.toNat + 4095) / 4096) →
      wp (inodeWrite n) (fun _ s' => Shrunk s s' newSize) (fun _ _ => False)
        { s₁ with inode := { s₁.inode with sizeBytes := newSize } } := by
    intro s₁ hr ht
    have hs₁ : Serves s₁.vol.dev.toHtlConfig s₁.vol.sb := by
      rw [hr.dev.config]
      exact hr.shape.serves hs
    refine (inodeWrite_spec (s := { s₁ with inode := { s₁.inode with sizeBytes := newSize } })
      (hr.shape.layout hl) n).mono ?_ ?_
    · rintro _ ⟨v, ino⟩ ⟨hino, hrec⟩
      obtain rfl : ino = ({ s₁.inode with sizeBytes := newSize } : Inode).sealed := hino
      exact hr.shrunk ht h hn hlt hrec
    · rintro _ s₂ ⟨_, hno⟩
      refine hno ⟨hr.dev.faultFree hf, hs₁⟩ ⟨?_, ?_⟩
      · change n.toNat < s₁.vol.sb.totalInodes.toNat
        rwa [hr.shape.totalInodes]
      · change volumeWritable s₁.vol.sb = .ok ()
        rwa [hr.shape.volumeWritable]
  unfold fileTruncate
  simp only [wp_bind, wp_get, wp_failIf, wp_ite, wp_ofExcept, wp_whenever]
  refine ⟨fun hno => hfile hno, fun _ => ⟨fun _ _ => ⟨fun hro => hopen (.inl hro), fun _ => ⟨fun _ _ => ?_, ?_⟩⟩, ?_⟩⟩
  · refine ⟨fun hge => absurd (UInt32.le_iff_toNat_le.mp hge) (Nat.not_le.mpr hlt), fun _ =>
      ⟨fun hout => ?_, fun _ => ?_⟩⟩
    · exact absurd hn (Nat.not_lt.mpr (UInt32.le_iff_toNat_le.mp hout))
    · refine ⟨fun hcut => ?_, fun hkeep => ?_⟩
      · have hspec := blockmapRelease_spec h hn hf hs (blocksFor newSize)
        have hexact := blockmapRelease_exact hn h hf hs hw (blocksFor newSize)
        rw [hneed] at hspec hexact
        refine (hspec.and hexact).mono ?_ (fun _ _ hno => hno.2)
        rintro _ s₁ ⟨hr, ht⟩
        exact hrecord s₁ hr ht
      · rw [UInt32.not_lt, UInt32.le_iff_toNat_le, hneed] at hkeep
        exact hrecord s (.refl h hn hkeep) (.refl hkeep)
  · exact fun e he => hopen (.inr fun hacc => by rw [hacc] at he; cases he)
  · exact fun e he => by rw [hw] at he; cases he

/-- いまの大きさより短くしない切り詰めは、何もしない。 -/
theorem fileTruncate_idle (hfile : s.inode.entryType &&& entryFile ≠ 0) (hw : volumeWritable s.vol.sb = .ok ())
    (hopen : ¬ Fenced who s.inode) (hge : s.inode.sizeBytes ≤ newSize) :
    fileTruncate who n newSize s = (.ok (), s) := by
  have hwp : wp (fileTruncate who n newSize) (fun _ s' => s' = s) (fun _ _ => False) s := by
    unfold fileTruncate
    simp only [wp_bind, wp_get, wp_failIf, wp_ite, wp_ofExcept]
    refine ⟨fun hno => hfile hno, fun _ => ⟨fun _ _ => ⟨fun hro => hopen (.inl hro), fun _ => ⟨fun _ _ => ?_, ?_⟩⟩, ?_⟩⟩
    · exact ⟨fun _ => rfl, fun hno => absurd hge hno⟩
    · exact fun e he => hopen (.inr fun hacc => by rw [hacc] at he; cases he)
    · exact fun e he => by rw [hw] at he; cases he
  obtain ⟨_, s', hrun, rfl⟩ := hwp.exists_ok
  exact hrun

/-! ## 切り詰めの全体 -/

variable {v v₀ : Vol} {ino : Inode}

end

/-! ## 一バイトのファイルの例 -/

end OwStorage.Owfs
