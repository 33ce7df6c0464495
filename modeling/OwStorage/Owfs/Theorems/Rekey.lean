import OwStorage.Owfs.Lemmas.Reach

/-!
# 鍵を入れる前からあるファイル

ブロックを復号するかどうかは、ボリュームの旗と inode の旗の両方で決まる。ボリュームの旗は鍵を消すと下りるが、inode の旗は
立ったまま残る。その間に平文で書いたファイルは、次に鍵を入れると復号されてしまう。
-/

namespace OwStorage.Owfs

open Lib Prog

/-- 番号 `n` のファイルの全体を読む。 -/
def readWhole (who : OwIdentity) (n : UInt32) : OwfsM (List UInt8) := do
  let ino ← inodeRead n
  fileRead who ino 0 ino.sizeBytes

/-- 番号 `n` は、消されていないファイルである。 -/
structure LiveFile (v : Vol) (n : UInt32) : Prop where
  inTable : n.toNat < v.sb.totalInodes.toNat
  file : (inodeAt v.dev.disk v.sb n).entryType &&& entryFile ≠ 0
  live : (inodeAt v.dev.disk v.sb n).entryType &&& entryDeleted = 0

/-- どのファイルも、どの主体からも、前と同じに読まれる。 -/
def SameReading (v v' : Vol) : Prop :=
  ∀ n, LiveFile v n → ∀ who, (readWhole who n v').1 = (readWhole who n v).1

/-- 鍵を入れたスーパーブロック。 -/
def rekeyed (sb : Superblock) (key : List UInt8) : Superblock :=
  { sb with
    keySlot1 := (Bytes.zero 256).patch 0 key
    securityFlags := sb.securityFlags ||| secEncrypted }

/-- 暗号化の旗の残ったファイルでは、新しい鍵の列がファイルの大きさまで 0 である。 -/
def Unciphered (v : Vol) (key : List UInt8) : Prop :=
  ∀ n, LiveFile v n → (inodeAt v.dev.disk v.sb n).securityFlags.toUInt32 &&& secEncrypted ≠ 0 →
    ∀ p, p < (inodeAt v.dev.disk v.sb n).sizeBytes.toNat →
      paged (fun i => keystreamBlock (rekeyed v.sb key) (mapBlock v.dev.disk (inodeAt v.dev.disk v.sb n) i)) p = 0

section

variable {v v' : Vol} {n : UInt32} {sb : Superblock} {ino : Inode} {key : List UInt8}

theorem LiveFile.type_ne_zero (h : LiveFile v n) : (inodeAt v.dev.disk v.sb n).entryType ≠ 0 := live_of_file h.file

theorem LiveFile.sound (h : LiveFile v n) (hr : Ready v) :
    Sound v.dev.disk v.sb (Function.update (slotInode v.dev.disk v.sb) n (inodeAt v.dev.disk v.sb n)) :=
  hr.sound.fresh h.type_ne_zero

/-- 読み取りの結果は、権限の検査と内容で決まる。 -/
theorem LiveFile.readWhole_eq (h : LiveFile v n) (hr : Ready v) (hs : Summed v) (who : OwIdentity) :
    (readWhole who n v).1 = (inodeAccessCheck who (inodeAt v.dev.disk v.sb n) accessRead).map
      fun _ => fileContent v.dev.disk v.sb (inodeAt v.dev.disk v.sb n) := by
  have hsum := hs n h.inTable h.type_ne_zero
  cases hacc : inodeAccessCheck who (inodeAt v.dev.disk v.sb n) accessRead with
  | error e =>
      have hwp : wp (readWhole who n) (fun _ _ => False) (fun e' _ => e' = e) v := by
        unfold readWhole
        rw [wp_bind]
        refine wp_inodeRead_ok hr h.inTable hsum fun c => ?_
        unfold fileRead
        rw [wp_bind, wp_failIf]
        refine ⟨fun hno => absurd hno h.file, fun _ => ?_⟩
        rw [wp_bind, wp_ofExcept, hacc]
        refine ⟨fun _ hok => ?_, fun e' he => (Except.error.inj he).symm⟩
        cases hok
      obtain ⟨e', v', hrun, rfl⟩ := hwp.exists_error
      rw [hrun]
      rfl
  | ok u =>
      have hwp : wp (readWhole who n) (fun out _ => out = fileContent v.dev.disk v.sb (inodeAt v.dev.disk v.sb n))
          (fun _ _ => False) v := by
        unfold readWhole
        rw [wp_bind]
        refine wp_inodeRead_ok hr h.inTable hsum fun c => ?_
        refine (fileRead_spec (v := v.atClock c) (h.sound hr) h.inTable who 0 _).mono ?_ ?_
        · rintro out _ ⟨_, rfl⟩
          have hlen : (fileContent v.dev.disk v.sb (inodeAt v.dev.disk v.sb n)).length ≤
              (inodeAt v.dev.disk v.sb n).sizeBytes.toNat := by
            unfold fileContent pages
            exact List.length_take_le _ _
          exact (List.take_of_length_le hlen)
        · rintro e _ ⟨_, hbad⟩
          rcases hbad ⟨hr.faultFree, hr.serves.readsData⟩ with hno | hno
          · exact h.file hno
          · exact hno hacc
      obtain ⟨out, v', hrun, rfl⟩ := hwp.exists_ok
      rw [hrun]
      rfl

/-- 内容が同じなのは、大きさまでのバイトがどれも同じときである。 -/
theorem fileContent_eq_iff {disk disk' : Disk} {sb' : Superblock}
    (hfit : ino.sizeBytes.toNat ≤ ino.blockCount.toNat * 4096) :
    fileContent disk' sb' ino = fileContent disk sb ino ↔
      ∀ p, p < ino.sizeBytes.toNat → paged (plainBlock disk' sb' ino) p = paged (plainBlock disk sb ino) p := by
  unfold fileContent
  constructor
  · intro h p hp
    have hget := congrArg (fun l : List UInt8 => l[p]?) h
    change (pages _ _ _)[p]? = (pages _ _ _)[p]? at hget
    rw [getElem?_pages (by decide), getElem?_pages (by decide), if_pos ⟨hp, by omega⟩, if_pos ⟨hp, by omega⟩] at hget
    exact Option.some.inj hget
  · intro h
    refine List.ext_getElem? fun p => ?_
    rw [getElem?_pages (by decide), getElem?_pages (by decide)]
    by_cases hp : p < ino.sizeBytes.toNat ∧ p < ino.blockCount.toNat * 4096
    · rw [if_pos hp, if_pos hp, h p hp.1]
    · rw [if_neg hp, if_neg hp]

/-! ## 鍵を入れる -/

/-- 通った鍵の設定は、スーパーブロックだけを書く。 -/
theorem cryptoSetKey_spec : wp (cryptoSetKey key)
    (fun _ v' => ∃ c c', v' = (Vol.saved { v with sb := rekeyed v.sb key } c).atClock c') (fun _ _ => True) v := by
  unfold cryptoSetKey
  simp only [wp_bind, wp_get, wp_failIf, wp_ofExcept, wp_modifySb, wp_attempt, wp_pure]
  refine ⟨fun _ => trivial, fun _ => ⟨fun _ _ => ?_, fun _ _ => trivial⟩⟩
  refine wp_superblockWrite (fun c _ => ?_) (fun _ _ _ _ => trivial)
  exact wp_flushBlk (fun c' => ⟨c, c', rfl⟩) (fun c' _ => ⟨c, c', rfl⟩)

/-- 鍵を入れた後のボリューム。 -/
structure Rekeyed (v v' : Vol) (key : List UInt8) : Prop where
  ready : Ready v'
  sums : Summed v'
  sb : v'.sb = (rekeyed v.sb key).sealed
  record : ∀ m : UInt32, m.toNat < v.sb.totalInodes.toNat → inodeAt v'.dev.disk v'.sb m = inodeAt v.dev.disk v.sb m
  data : ∀ b, v.sb.IsData b → v'.dev.disk b = v.dev.disk b

theorem Ready.rekeyed (hr : Ready v) (hs : Summed v) (hset : cryptoSetKey key v = (.ok (), v')) : Rekeyed v v' key := by
  obtain ⟨c, c', rfl⟩ := cryptoSetKey_spec.ok hset
  have hl := hr.sound.layout
  have hready : Ready { v with sb := rekeyed v.sb key } := hr.recore rfl
  have hsums : Summed { v with sb := rekeyed v.sb key } := hs.recore rfl
  have hledger := SameLedger.sealed (Owfs.rekeyed v.sb key)
  have hdev : v.dev.Evolves {superblockBlock} ((Vol.saved { v with sb := Owfs.rekeyed v.sb key } c).atClock c').dev :=
    (evolves_saved (v := { v with sb := Owfs.rekeyed v.sb key })).trans .atClock
  exact ⟨hready.resave hledger hdev, hsums.resave hready.sound.layout hledger hdev, rfl,
    fun m hm => resave_inodeAt (v := { v with sb := Owfs.rekeyed v.sb key }) hready.sound.layout hledger hdev hm,
    fun b hb => hdev.disk b (hl.data_ne_superblock hb)⟩

theorem isEncrypted_rekeyed :
    isEncrypted (rekeyed sb key).sealed ino = true ↔ ino.securityFlags.toUInt32 &&& secEncrypted ≠ 0 := by
  have hflag : (sb.securityFlags ||| secEncrypted) &&& secEncrypted ≠ 0 := or_and_ne_zero.mpr (.inr (by decide))
  unfold isEncrypted
  simp only [Bool.and_eq_true, bne_iff_ne]
  exact ⟨fun h => h.2, fun h => ⟨hflag, h⟩⟩

/-- 旗の立ったファイルのバイトだけが、鍵の列と重なる。 -/
theorem Rekeyed.byte (h : Rekeyed v v' key) (hr : Ready v) (hclear : v.sb.securityFlags &&& secEncrypted = 0)
    (hlive : LiveFile v n) {p : Nat} (hp : p / 4096 < (inodeAt v.dev.disk v.sb n).blockCount.toNat) :
    paged (plainBlock v'.dev.disk v'.sb (inodeAt v.dev.disk v.sb n)) p =
      if (inodeAt v.dev.disk v.sb n).securityFlags.toUInt32 &&& secEncrypted ≠ 0 then
        paged (plainBlock v.dev.disk v.sb (inodeAt v.dev.disk v.sb n)) p ^^^
          paged (fun i => keystreamBlock (Owfs.rekeyed v.sb key)
            (mapBlock v.dev.disk (inodeAt v.dev.disk v.sb n) i)) p
      else paged (plainBlock v.dev.disk v.sb (inodeAt v.dev.disk v.sb n)) p := by
  have hsound := hlive.sound hr
  have hmap : mapBlock v'.dev.disk (inodeAt v.dev.disk v.sb n) (p / 4096) =
      mapBlock v.dev.disk (inodeAt v.dev.disk v.sb n) (p / 4096) := by
    refine mapBlock_congr fun hten => h.data _ ?_
    have href : (n, none) ∈ refs v.sb (Function.update (slotInode v.dev.disk v.sb) n (inodeAt v.dev.disk v.sb n)) :=
      mem_refs_update_self.mpr ⟨hlive.inTable, (hsound.shaped_self hlive.inTable).indirect.mpr (by omega)⟩
    have hdata := hsound.isData href
    rwa [target_update_self] at hdata
  have hplain : isEncrypted v.sb (inodeAt v.dev.disk v.sb n) = false := by
    unfold isEncrypted
    rw [hclear]
    rfl
  have hdata := h.data _ (hsound.mapBlock_isData hlive.inTable hp)
  unfold paged plainBlock
  rw [hmap, hdata, h.sb]
  by_cases hflag : (inodeAt v.dev.disk v.sb n).securityFlags.toUInt32 &&& secEncrypted ≠ 0
  · rw [if_pos hflag, cryptoXform_byte (isEncrypted_rekeyed.mpr hflag) _ _ (Nat.mod_lt _ (by decide))]
    unfold cryptoXform
    rw [hplain]
    rfl
  · rw [if_neg hflag]
    unfold cryptoXform
    rw [hplain, if_neg fun henc => hflag (isEncrypted_rekeyed.mp henc)]
    rfl

/-- 鍵を入れても読みの変わらない条件。 -/
theorem Rekeyed.sameReading_iff (h : Rekeyed v v' key) (hr : Ready v) (hs : Summed v)
    (hclear : v.sb.securityFlags &&& secEncrypted = 0) : SameReading v v' ↔ Unciphered v key := by
  have hafter : ∀ n, LiveFile v n → LiveFile v' n := fun n hlive => by
    have hrec := h.record n hlive.inTable
    refine ⟨?_, hrec ▸ hlive.file, hrec ▸ hlive.live⟩
    rw [h.sb]
    exact hlive.inTable
  have hread : ∀ n (hlive : LiveFile v n) who, (readWhole who n v').1 =
      (inodeAccessCheck who (inodeAt v.dev.disk v.sb n) accessRead).map
        fun _ => fileContent v'.dev.disk v'.sb (inodeAt v.dev.disk v.sb n) := fun n hlive who => by
    rw [(hafter n hlive).readWhole_eq h.ready h.sums who, h.record n hlive.inTable]
  have hfit : ∀ n, LiveFile v n → ∀ p, p < (inodeAt v.dev.disk v.sb n).sizeBytes.toNat →
      p / 4096 < (inodeAt v.dev.disk v.sb n).blockCount.toNat := fun n hlive p hp => by
    have hshape := ((hlive.sound hr).shaped_self hlive.inTable).size
    exact Nat.div_lt_of_lt_mul (by omega)
  constructor
  · intro hsame n hlive hflag p hp
    -- 特権の主体の読みを比べる。
    have hroot := hsame n hlive ⟨0, 0⟩
    rw [hread n hlive, hlive.readWhole_eq hr hs] at hroot
    have hcontent := (fileContent_eq_iff ((hlive.sound hr).shaped_self hlive.inTable).size).mp
      (Except.ok.inj hroot) p hp
    rw [h.byte hr hclear hlive (hfit n hlive p hp), if_pos hflag] at hcontent
    have hxor := congrArg (paged (plainBlock v.dev.disk v.sb (inodeAt v.dev.disk v.sb n)) p ^^^ ·) hcontent
    simpa [← UInt8.xor_assoc] using hxor
  · intro hzero n hlive who
    rw [hread n hlive, hlive.readWhole_eq hr hs]
    have hcontent : fileContent v'.dev.disk v'.sb (inodeAt v.dev.disk v.sb n) =
        fileContent v.dev.disk v.sb (inodeAt v.dev.disk v.sb n) := by
      refine (fileContent_eq_iff ((hlive.sound hr).shaped_self hlive.inTable).size).mpr fun p hp => ?_
      rw [h.byte hr hclear hlive (hfit n hlive p hp)]
      split
      · rename_i hflag
        rw [hzero n hlive hflag p hp, UInt8.xor_zero]
      · rfl
    rw [hcontent]

/-- 旗の下りたボリュームに鍵を入れて、どのファイルも前と同じに読まれるのは、inode の旗の残ったファイルで鍵の列が 0 のときに限る。 -/
theorem setKey_same_reading_iff {d₀ d : HtlDevice} {totalBlocks : UInt32} {label : Option (List UInt8)} {v₀ : Vol}
    (hff : d₀.FaultFree) (hformat : formatVolume totalBlocks label d₀ = (.ok (), d)) (hopen : Opened d v₀)
    (ops : List ApiOp) (hclear : (final ApiOp.run ops v₀).sb.securityFlags &&& secEncrypted = 0)
    (hset : cryptoSetKey key (final ApiOp.run ops v₀) = (.ok (), v')) :
    SameReading (final ApiOp.run ops v₀) v' ↔ Unciphered (final ApiOp.run ops v₀) key := by
  have hready := ready_of_opened hff hformat hopen
  obtain ⟨hr, hs⟩ := (anchored_of_opened hformat hopen).final hready.faultFree ops
  exact (hr.rekeyed hs hset).sameReading_iff hr hs hclear

end

/-! ## 鍵を消して書いたファイルの例 -/

/-- 32 バイトの鍵。 -/
def zeroKey : List UInt8 := List.replicate 32 0

/-- 鍵のある間にファイルを作り、鍵を消してから、平文を書く。 -/
def purgeWrite : List ApiOp :=
  [.cryptoSetKey zeroKey, .data (.inodeAlloc ⟨0, 0⟩ entryFile none 0 0), .cryptoPurge,
    .data (.fileWrite ⟨0, 0⟩ 1 [7] 0 1 length_seven)]

/-- 鍵を消した直後。 -/
def purgedEmpty (v : Vol) : Vol := (cryptoPurge (inodeAlloc ⟨0, 0⟩ entryFile none 0 0 (cryptoSetKey zeroKey v).2).2).2

/-- 読み直しの検査値の確認を省いて求めた、平文を書いた後のボリューム。 -/
@[irreducible] def purged (v : Vol) : Vol :=
  (fileWrite ⟨0, 0⟩ 1 [7] 0 1
    ⟨(inodeLoad 1 (purgedEmpty v)).2, inodeAt (purgedEmpty v).dev.disk (purgedEmpty v).sb 1⟩).2.vol

theorem final_purgeWrite {v : Vol} (h : Anchored v) (hf : v.dev.FaultFree)
    (hn : (1 : UInt32).toNat < (purgedEmpty v).sb.totalInodes.toNat) : final ApiOp.run purgeWrite v = purged v := by
  have hbefore : final ApiOp.run [.cryptoSetKey zeroKey, .data
    (.inodeAlloc ⟨0, 0⟩ entryFile none 0 0), .cryptoPurge] v =
      purgedEmpty v := by
    change (cryptoPurge (discard (inodeAlloc ⟨0, 0⟩ entryFile none 0 0) (cryptoSetKey zeroKey v).2).2).2 = _
    rw [discard_state]
    rfl
  obtain ⟨hr, hs⟩ := h.final hf [.cryptoSetKey zeroKey, .data (.inodeAlloc ⟨0, 0⟩ entryFile none 0 0), .cryptoPurge]
  rw [hbefore] at hr hs
  unfold purged
  rw [← withFresh_state (p := fileWrite ⟨0, 0⟩ 1 [7] 0 1) hr hs hn, ← hbefore]
  rfl

theorem anchored_mountedVolume : Anchored mountedVolume :=
  anchored_of_opened format_blankDevice (.mount (mount_formattedVolume Superblock.zero))

theorem final_purged : final ApiOp.run purgeWrite mountedVolume = purged mountedVolume :=
  final_purgeWrite anchored_mountedVolume inSession_mountedVolume.faultFree (by decide +kernel)

/-- 作って書いたファイルのほかに、ファイルはない。 -/
theorem LiveFile.of_wrote (h : LiveFile (wrote mountedVolume) n) : n = 1 := by
  by_contra hne
  have hs := inSession_mountedVolume
  have hrun := run_eq (p := inodeAlloc ⟨0, 0⟩ entryFile none 0 0) (s := mountedVolume) (r := .ok 1) (by decide +kernel)
  have hmade := ((inodeAlloc_spec hs.toReady ⟨0, 0⟩ entryFile none 0 0).ok hrun).moved
  have hfits : (1 : UInt32).toNat ≤ [(7 : UInt8)].length := by decide
  have hups : Preserves (Upholds {1}) (withFresh 1 (fileWrite ⟨0, 0⟩ 1 [7] 0 1)) := upholds_fileWrite ⟨0, 0⟩ 1 hfits
  have hwrote := hmade.ready.after hups
  have hstate := withFresh_state (p := fileWrite ⟨0, 0⟩ 1 [7] 0 1) (n := 1) hmade.ready (hmade.carry.sums hs.sums)
    (by rw [hmade.carry.shape.totalInodes]; exact totalInodes_mountedVolume)
  rw [hstate] at hwrote
  have hv : wrote mountedVolume = (fileWrite ⟨0, 0⟩ 1 [7] 0 1 ⟨(inodeLoad 1
      (inodeAlloc ⟨0, 0⟩ entryFile none 0 0 mountedVolume).2).2, inodeAt (inodeAlloc ⟨0, 0⟩ entryFile none 0 0
        mountedVolume).2.dev.disk (inodeAlloc ⟨0, 0⟩ entryFile none 0 0 mountedVolume).2.sb 1⟩).2.vol := by
    unfold wrote
    rfl
  rw [← hv] at hwrote
  have htable : n.toNat < (inodeAlloc ⟨0, 0⟩ entryFile none 0 0 mountedVolume).2.sb.totalInodes.toNat := by
    rw [← hwrote.carry.shape.totalInodes]
    exact h.inTable
  have hfile := h.file
  rw [hwrote.spares.record n htable hne,
    hmade.spares.record n (by rwa [hmade.carry.shape.totalInodes] at htable) hne] at hfile
  -- ファイルを作る前には、根のカタログだけがある。
  obtain ⟨hblank, _⟩ := blank_of_opened format_blankDevice (.mount (mount_formattedVolume Superblock.zero))
  by_cases hroot : n = 0
  · subst hroot
    exact hfile (by decide +kernel)
  · rw [hblank.others n (by rwa [hmade.carry.shape.totalInodes] at htable) hroot] at hfile
    exact hfile rfl

/-- 鍵のないまま作ったファイルは、鍵を入れても同じに読まれる。 -/
theorem wrote_same_reading : ∃ v', cryptoSetKey zeroKey (wrote mountedVolume) = (.ok (), v') ∧
    SameReading (wrote mountedVolume) v' := by
  have hset := run_eq (p := cryptoSetKey zeroKey) (s := wrote mountedVolume) (r := .ok ()) (by decide +kernel)
  have hfinal : final ApiOp.run [.data (.inodeAlloc ⟨0, 0⟩ entryFile none 0 0),
      .data (.fileWrite ⟨0, 0⟩ 1 [7] 0 1 length_seven)] mountedVolume = wrote mountedVolume :=
    final_allocWrite inSession_mountedVolume totalInodes_mountedVolume
  have hiff := setKey_same_reading_iff faultFree_blankDevice format_blankDevice
    (.mount (mount_formattedVolume Superblock.zero)) _ (by rw [hfinal]; decide +kernel) (by rw [hfinal]; exact hset)
  rw [hfinal] at hiff
  refine ⟨_, hset, hiff.mpr fun n hlive hflag => ?_⟩
  obtain rfl := hlive.of_wrote
  exact absurd hflag (by decide +kernel)

/-- 鍵を消した後に書いた平文が、次の鍵で復号されて読まれる。 -/
theorem purged_plaintext_deciphered : ¬ ∀ (d₀ d : HtlDevice) (totalBlocks : UInt32) (label : Option (List UInt8))
    (v₀ v' : Vol) (ops : List ApiOp) (key : List UInt8), d₀.FaultFree →
    formatVolume totalBlocks label d₀ = (.ok (), d) → Opened d v₀ →
    (final ApiOp.run ops v₀).sb.securityFlags &&& secEncrypted = 0 →
    cryptoSetKey key (final ApiOp.run ops v₀) = (.ok (), v') → SameReading (final ApiOp.run ops v₀) v' := by
  intro hclaim
  obtain ⟨hr, hs⟩ := anchored_mountedVolume.final inSession_mountedVolume.faultFree purgeWrite
  have hset := run_eq (p := cryptoSetKey zeroKey) (s := purged mountedVolume) (r := .ok ()) (by decide +kernel)
  have hclear : (purged mountedVolume).sb.securityFlags &&& secEncrypted = 0 := by decide +kernel
  have hsame := hclaim blankDevice _ 280 none mountedVolume _ purgeWrite zeroKey faultFree_blankDevice
    format_blankDevice
    (.mount (mount_formattedVolume Superblock.zero)) (by rw [final_purged]; exact hclear)
      (by rw [final_purged]; exact hset)
  rw [final_purged] at hsame hr hs
  have hlive : LiveFile (purged mountedVolume) 1 := ⟨by decide +kernel, by decide +kernel, by decide +kernel⟩
  have hzero := ((hr.rekeyed hs hset).sameReading_iff hr hs hclear).mp hsame 1 hlive (by decide +kernel) 0
    (by decide +kernel)
  exact absurd hzero (by decide +kernel)

end OwStorage.Owfs
