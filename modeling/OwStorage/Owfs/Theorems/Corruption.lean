import OwStorage.Owfs.Lemmas.Check
import OwStorage.Common.Lemmas.Checksum

/-!
# 壊れた inode の記録

記録の続いた 4 バイトまでの違いは、CRC32c が必ず見つける。しかし読み取りは種類の欄が 0 の記録の検査値を確かめず、
割り当ては検査値の誤りを無視する。このため、壊れた種類の欄の値によっては、違いは気付かれない。
-/

namespace OwStorage.Owfs

open Lib Prog

/-! ## 記録の違いと検査値 -/

section

variable {rec : List UInt8} {k : Nat} {w : List UInt8}

theorem inodeComputeChecksum_dec (h : rec.length = 256) :
    inodeComputeChecksum (Inode.codec.dec rec) = owCrc32cStruct rec 0xFC := by
  unfold inodeComputeChecksum
  rw [Inode.codec.enc_dec rec h]

theorem checksum_dec (rec : List UInt8) : (Inode.codec.dec rec).checksum = Codec.u32.dec (rec.drop 0xFC) := rfl

/-- 検査値の欄より前の、続いた 4 バイトまでを書き換えた記録の検査値は合わない。 -/
theorem verify_burst (hrec : rec.length = 256) (hsum : inodeVerifyChecksum (Inode.codec.dec rec) = true)
    (hw : w.length ≤ 4) (hk : k + w.length ≤ 0xFC) (hne : (rec.drop k).take w.length ≠ w) :
    inodeVerifyChecksum (Inode.codec.dec (rec.take k ++ (w ++ rec.drop (k + w.length)))) = false := by
  have hold : rec.take k ++ ((rec.drop k).take w.length ++ rec.drop (k + w.length)) = rec := by
    rw [← List.drop_drop, List.take_append_drop, List.take_append_drop]
  have hmid : ((rec.drop k).take w.length).length = w.length := by
    rw [List.length_take, List.length_drop]
    omega
  have hlen : (rec.take k ++ (w ++ rec.drop (k + w.length))).length = 256 := by
    simp only [List.length_append, List.length_take, List.length_drop]
    omega
  have hcrc := owCrc32cStruct_burst (rec.take k) (rec.drop (k + w.length)) 0xFC hmid.symm (by omega)
    (by rw [List.length_take]; omega) hne.symm
  rw [hold] at hcrc
  have hfield : (rec.take k ++ (w ++ rec.drop (k + w.length))).drop 0xFC = rec.drop 0xFC := by
    apply List.ext_getElem?
    intro i
    rw [List.getElem?_drop, List.getElem?_drop, List.getElem?_append_right (by rw [List.length_take]; omega),
      List.getElem?_append_right (by rw [List.length_take]; omega), List.getElem?_drop, List.length_take]
    congr 1
    omega
  unfold inodeVerifyChecksum at hsum ⊢
  rw [beq_iff_eq, inodeComputeChecksum_dec hrec, checksum_dec] at hsum
  rw [beq_eq_false_iff_ne, inodeComputeChecksum_dec hlen, checksum_dec, hfield, hsum]
  exact hcrc.symm

end

/-! ## 壊れた記録を持つボリューム -/

/-- inode `n` の記録の `k` バイト目からが `w` に変わったボリューム。 -/
def scribble (v : Vol) (n : UInt32) (k : Nat) (w : List UInt8) : Vol :=
  let b := inodeBlockOffset v.sb n
  { v with
    dev := { v.dev with
      disk := Function.update v.dev.disk b ((v.dev.disk b).patch ((inodeEntryIndex n).toNat * 256 + k) w) } }

/-- 割り当てが次に渡すスロット。 -/
structure NextSlot (v : Vol) (n : UInt32) : Prop where
  writable : volumeWritable v.sb = .ok ()
  free : v.sb.freeInodes ≠ 0
  inTable : n.toNat < v.sb.totalInodes.toNat
  vacant : slotVacant (inodeAt v.dev.disk v.sb n) = true
  first : ∀ m : UInt32, m.toNat < n.toNat → slotVacant (inodeAt v.dev.disk v.sb m) = false

/-- 読み取りと検査と割り当てのどれもが、inode `n` の記録の誤りに気付く。 -/
structure Noticed (v : Vol) (n : UInt32) : Prop where
  read : (inodeRead n v).1 = .error .checksumMismatch
  check : ∀ count, 1 ≤ (consistencyCheck ⟨v, count⟩).2.corruptCount.toNat
  alloc : ∀ who entryType name nameLen parent, (inodeAlloc who entryType name nameLen parent v).1 ≠ .ok n

section

variable {v : Vol} {n : UInt32} {k : Nat} {w : List UInt8}

theorem disk_scribble : (scribble v n k w).dev.disk = Function.update v.dev.disk (inodeBlockOffset v.sb n)
    ((v.dev.disk (inodeBlockOffset v.sb n)).patch ((inodeEntryIndex n).toNat * 256 + k) w) := rfl

theorem Online.scribble (h : Online v) : Online (scribble v n k w) := ⟨h.layout, h.faultFree, h.serves⟩

/-- 壊れた記録は、元の記録の一部を書き換えたものである。 -/
theorem inodeAt_scribble (hk : k + w.length ≤ 0xFC) : inodeAt (scribble v n k w).dev.disk v.sb n =
    Inode.codec.dec ((Inode.codec.enc (inodeAt v.dev.disk v.sb n)).take k ++
      (w ++ (Inode.codec.enc (inodeAt v.dev.disk v.sb n)).drop (k + w.length))) := by
  have hidx := toNat_inodeEntryIndex n
  have hlen : ((v.dev.disk (inodeBlockOffset v.sb n)).slice ((inodeEntryIndex n).toNat * 256) 256).length = 256 := by
    rw [Bytes.length_slice]
    omega
  unfold inodeAt
  rw [disk_scribble, Function.update_self]
  unfold inodeIn
  rw [Bytes.slice_patch_inside (by omega) (by omega), Inode.codec.enc_dec _ hlen]

/-- 割り当ては、最初の空いているスロットを渡す。 -/
theorem inodeAlloc_nextSlot (h : Online v) (who : OwIdentity) (entryType : UInt8) (name : Option (List UInt8))
    (nameLen : Nat) (parent : UInt32) :
    wp (inodeAlloc who entryType name nameLen parent) (fun m _ => NextSlot v m)
      (fun _ _ => entryType = entryFile → name = none → nameLen = 0 → ∀ m, ¬ NextSlot v m) v := by
  unfold inodeAlloc
  simp only [wp_bind, wp_get, wp_failIf, wp_ofExcept]
  refine ⟨fun hbad ht => absurd ht hbad.1, fun _ => ⟨fun hbad _ _ hz => ?_, fun _ => ⟨fun hbad _ hz => ?_, fun _ =>
    ⟨fun _ hw => ⟨fun hz _ _ _ m hm => hm.free hz, fun hfree => ?_⟩, fun e he _ _ _ m hm => ?_⟩⟩⟩⟩
  · rw [hz] at hbad
    exact absurd hbad (by decide)
  · rw [hz] at hbad
    exact absurd hbad.1 (by simp)
  · refine wp_loop (fun i _ v' => Still v v' ∧
      ∀ m : UInt32, m.toNat < i → slotVacant (inodeAt v.dev.disk v.sb m) = false)
      ⟨refl_of Still v, fun _ hm => absurd hm (Nat.not_lt_zero _)⟩ ?_ ?_
    · rintro i _ _ hi ⟨⟨c, rfl⟩, hfirst⟩
      have hlt := v.sb.totalInodes.toNat_lt
      have hidx : (UInt32.ofNat i).toNat = i := toNat_ofNat_lt (by omega)
      have hn : (UInt32.ofNat i).toNat < v.sb.totalInodes.toNat := by rwa [hidx]
      rw [wp_bind]
      refine (inodeLoad_spec (v := v.atClock c) h.layout _).mono ?_ ?_
      · rintro _ _ ⟨_, rfl, c', rfl⟩
        rw [wp_ite]
        refine ⟨fun hvac => ?_, fun hvac => ⟨⟨c', rfl⟩, fun m hm => ?_⟩⟩
        · simp only [wp_bind, wp_withInode, wp_modifySb, wp_pure]
          refine (inodeWrite_spec (s := ⟨v.atClock c', _⟩) h.layout _).mono (fun _ _ _ => ?_)
            (fun _ _ he => absurd ⟨hn, hw⟩ (he.2 ⟨h.faultFree, h.serves⟩))
          exact ⟨hw, hfree, hn, hvac, by rw [hidx]; exact hfirst⟩
        · by_cases hmi : m.toNat < i
          · exact hfirst m hmi
          · obtain rfl : m = UInt32.ofNat i := UInt32.toNat_inj.mp (by rw [hidx]; omega)
            exact Bool.eq_false_iff.mpr hvac
      · rintro e _ ⟨_, ⟨_, hno⟩ | ⟨_, hno⟩⟩
        · exact absurd hn hno
        · exact absurd ⟨h.faultFree, h.serves⟩ hno
    · rintro _ _ ⟨_, hfull⟩ _ _ _ m hm
      have hvac := hm.vacant
      rw [hfull m hm.inTable] at hvac
      cases hvac
  · rw [hm.writable] at he
    cases he

theorem NextSlot.unique {m : UInt32} (hn : NextSlot v n) (hm : NextSlot v m) : m = n := by
  by_contra hne
  have hne' : m.toNat ≠ n.toNat := fun he => hne (UInt32.toNat_inj.mp he)
  rcases Nat.lt_or_gt_of_ne hne' with hlt | hlt
  · exact absurd hm.vacant (by rw [hn.first m hlt]; decide)
  · exact absurd hn.vacant (by rw [hm.first n hlt]; decide)

/-- 次に渡すスロットのときに限って、割り当てはその番号を返しうる。 -/
theorem alloc_avoids_iff (h : Online v) :
    (∀ who entryType name nameLen parent, (inodeAlloc who entryType name nameLen parent v).1 ≠ .ok n) ↔
      ¬ NextSlot v n := by
  constructor
  · intro hno hn
    have hwp := inodeAlloc_nextSlot h ⟨0, 0⟩ entryFile none 0 0
    obtain ⟨m, v', hrun, hm⟩ := (hwp.mono (fun _ _ hm => hm) (fun _ _ he => he rfl rfl rfl n hn)).exists_ok
    exact hno ⟨0, 0⟩ entryFile none 0 0 (by rw [hrun, hn.unique hm])
  · intro hno who entryType name nameLen parent hrun
    exact hno ((inodeAlloc_nextSlot h who entryType name nameLen parent).ok (run_eq hrun))

/-! ## 気付かれる条件 -/

/-- 種類の欄が 0 でない限り、壊れた記録の検査値は合わない。 -/
theorem verify_scribble (hsum : inodeVerifyChecksum (inodeAt v.dev.disk v.sb n) = true) (hw : w.length ≤ 4)
    (hk : k + w.length ≤ 0xFC)
    (hne : inodeAt (scribble v n k w).dev.disk v.sb n ≠ inodeAt v.dev.disk v.sb n) :
    inodeVerifyChecksum (inodeAt (scribble v n k w).dev.disk v.sb n) = false := by
  have hrec := length_enc_inode (inodeAt v.dev.disk v.sb n)
  rw [inodeAt_scribble hk] at hne ⊢
  refine verify_burst hrec (by rw [Inode.codec.dec_enc]; exact hsum) hw hk fun hsame => hne ?_
  -- 書き込んだバイトが元と同じなら、記録は変わっていない。
  nth_rewrite 1 [← hsame]
  rw [← List.drop_drop, List.take_append_drop, List.take_append_drop, Inode.codec.dec_enc]

theorem findings_ne_zero (hsmall : v.sb.totalInodes.toNat + 2 < 2 ^ 32) (hn : n.toNat < v.sb.totalInodes.toNat)
    (hbad : Corrupt v.dev.disk v.sb n.toNat) : findings v ≠ 0 := by
  have hpos := Nat.count_strict_mono hbad hn
  have hle := Nat.count_le (p := Corrupt v.dev.disk v.sb) (n := v.sb.totalInodes.toNat)
  intro hz
  have hz := congrArg UInt32.toNat hz
  unfold findings at hz
  rw [UInt32.toNat_add, UInt32.toNat_add, toNat_ofNat_lt (by omega)] at hz
  have hzero : (0 : UInt32).toNat = 0 := rfl
  have hone : (1 : UInt32).toNat = 1 := rfl
  split at hz <;> split at hz <;> omega

/-- スーパーブロックが検査に落ちたときも、誤りを一つ数える。 -/
theorem check_counts (h : Online v) (hbad : findings v ≠ 0) (count : UInt32) :
    1 ≤ (consistencyCheck ⟨v, count⟩).2.corruptCount.toNat := by
  have hne : (consistencyCheck ⟨v, count⟩).2.corruptCount ≠ 0 := by
    cases hvalid : superblockValidate v.sb with
    | true =>
        have hwp : wp consistencyCheck (fun _ s' => s'.corruptCount ≠ 0) (fun _ s' => s'.corruptCount ≠ 0) ⟨v, count⟩ :=
          (consistencyCheck_spec (s := ⟨v, count⟩) h hvalid).mono (fun _ _ hs => absurd hs.1 hbad)
            (fun _ _ hs => by rw [hs.2.2.1]; exact hs.2.1)
        exact hwp.state
    | false =>
        have hwp : wp consistencyCheck (fun _ s' => s'.corruptCount ≠ 0) (fun _ s' => s'.corruptCount ≠ 0)
          ⟨v, count⟩ := by
          unfold consistencyCheck
          simp only [wp_bind, wp_modify, wp_get, wp_ite]
          refine ⟨fun _ => ?_, fun hno => absurd (by rw [hvalid]; rfl) hno⟩
          simp only [wp_checkVol, wp_modifySb, wp_countCorrupt, wp_throw]
          exact wp_trivial.mono (fun _ _ _ => by decide) (fun _ _ _ => by decide)
        exact hwp.state
  have hpos : (consistencyCheck ⟨v, count⟩).2.corruptCount.toNat ≠ 0 := fun hz => hne (UInt32.toNat_inj.mp hz)
  omega

/-- 読み取りが気付くのは、壊れた種類の欄が 0 でないときに限る。 -/
theorem read_mismatch_iff (h : Online v) (hn : n.toNat < v.sb.totalInodes.toNat)
    (hbad : inodeVerifyChecksum (inodeAt v.dev.disk v.sb n) = false) :
    (inodeRead n v).1 = .error .checksumMismatch ↔ (inodeAt v.dev.disk v.sb n).entryType ≠ 0 := by
  have hspec := inodeRead_spec h.layout n
  rcases hrun : inodeRead n v with ⟨r, v'⟩
  cases r with
  | ok ino =>
      obtain ⟨_, rfl, hgood, _⟩ := hspec.ok hrun
      refine ⟨fun hno => (by cases hno), fun ht => ?_⟩
      rw [hgood ht] at hbad
      cases hbad
  | error e =>
      unfold wp at hspec
      rw [hrun] at hspec
      obtain ⟨_, ⟨_, hno⟩ | ⟨rfl, ht, _⟩ | ⟨_, hno⟩⟩ := hspec
      · exact absurd hn hno
      · exact ⟨fun _ => ht, fun _ => rfl⟩
      · exact absurd ⟨h.faultFree, h.serves⟩ hno

/-- 壊れた記録が気付かれるのは、種類の欄が 0 でなく、割り当てが次に渡すスロットでもないときに限る。 -/
theorem corruption_noticed_iff (h : Online v) (hsmall : v.sb.totalInodes.toNat + 2 < 2 ^ 32)
    (hn : n.toNat < v.sb.totalInodes.toNat) (hsum : inodeVerifyChecksum (inodeAt v.dev.disk v.sb n) = true)
    (hw : w.length ≤ 4) (hk : k + w.length ≤ 0xFC)
    (hne : inodeAt (scribble v n k w).dev.disk v.sb n ≠ inodeAt v.dev.disk v.sb n) :
    Noticed (scribble v n k w) n ↔
      (inodeAt (scribble v n k w).dev.disk v.sb n).entryType ≠ 0 ∧ ¬ NextSlot (scribble v n k w) n := by
  have hbad := verify_scribble hsum hw hk hne
  have hread := read_mismatch_iff (v := scribble v n k w) h.scribble hn hbad
  have halloc := alloc_avoids_iff (v := scribble v n k w) (n := n) h.scribble
  constructor
  · intro hall
    exact ⟨hread.mp hall.read, halloc.mp hall.alloc⟩
  · rintro ⟨ht, hnext⟩
    have hcorrupt : Corrupt (scribble v n k w).dev.disk (scribble v n k w).sb n.toNat := by
      unfold Corrupt
      rw [UInt32.ofNat_toNat]
      exact ⟨ht, hbad⟩
    exact ⟨hread.mpr ht, check_counts h.scribble (findings_ne_zero hsmall hn hcorrupt), halloc.mpr hnext⟩

end

/-- 種類の欄を 0 にした記録は、気付かれない。 -/
theorem cleared_type_unnoticed :
    ¬ ∀ (v : Vol) (n : UInt32) (k : Nat) (w : List UInt8), Online v → v.sb.totalInodes.toNat + 2 < 2 ^ 32 →
      n.toNat < v.sb.totalInodes.toNat → slotVacant (inodeAt v.dev.disk v.sb n) = false →
      inodeVerifyChecksum (inodeAt v.dev.disk v.sb n) = true → w.length ≤ 4 → k + w.length ≤ 0xFC →
      inodeAt (scribble v n k w).dev.disk v.sb n ≠ inodeAt v.dev.disk v.sb n → Noticed (scribble v n k w) n := by
  intro hclaim
  have hs := inSession_mountedVolume
  have hon : Online mountedVolume := hs.toReady.online
  have hn : (0 : UInt32).toNat < mountedVolume.sb.totalInodes.toNat := by decide +kernel
  have hsum := hs.sums 0 hn (by decide +kernel)
  have hzero : (inodeAt (scribble mountedVolume 0 4 [0]).dev.disk mountedVolume.sb 0).entryType = 0 := by
    decide +kernel
  have hne : inodeAt (scribble mountedVolume 0 4 [0]).dev.disk mountedVolume.sb 0 ≠
      inodeAt mountedVolume.dev.disk mountedVolume.sb 0 := by
    intro he
    rw [he] at hzero
    exact absurd hzero (by decide +kernel)
  have hall := hclaim mountedVolume 0 4 [0] hon (by decide +kernel) hn (by decide +kernel) hsum (by decide)
    (by decide) hne
  have hread := read_mismatch_iff (v := scribble mountedVolume 0 4 [0]) hon.scribble hn
    (verify_scribble hsum (by decide) (by decide) hne)
  exact hread.mp hall.read hzero

/-- 大きさの欄を壊した記録は、気付かれる。 -/
theorem corruption_noticed_on_mountedVolume : Noticed (scribble mountedVolume 0 10 [1, 2, 3, 4]) 0 := by
  have hs := inSession_mountedVolume
  have hn : (0 : UInt32).toNat < mountedVolume.sb.totalInodes.toNat := by decide +kernel
  have hne : inodeAt (scribble mountedVolume 0 10 [1, 2, 3, 4]).dev.disk mountedVolume.sb 0 ≠
      inodeAt mountedVolume.dev.disk mountedVolume.sb 0 := by
    intro he
    exact absurd (congrArg Inode.sizeBytes he) (by decide +kernel)
  refine (corruption_noticed_iff hs.toReady.online (by decide +kernel) hn (hs.sums 0 hn (by decide +kernel)) (by decide)
    (by decide) hne).mpr ⟨by decide +kernel, fun hnext => ?_⟩
  exact absurd hnext.vacant (by decide +kernel)

end OwStorage.Owfs
