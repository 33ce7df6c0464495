import OwStorage.Usfs.Lemmas.Directory

/-!
# 項目の数の欄

項目の解放は、消された印のあるスロットも通し、そのたびに項目の数の欄を減らす。生きている項目だけを解放するかぎり、欄は生きている
項目の数に等しい。
-/

namespace OwStorage.Usfs

open Lib Prog

/-- 生きている項目のあるスロットの数。 -/
def liveSlots (v : Vol) : Nat :=
  Nat.count (fun i => ((viewOf v).table (.ofNat i)).Live) v.sb.totalEntries.toNat

/-- 欄は生きている項目の数に等しい。項目が一つでもあれば、割り当ては親の権限を調べる。 -/
structure CounterExact (v : Vol) : Prop where
  counted : v.sb.usedEntries.toNat = liveSlots v
  guarded : ∀ who entryType name nameLen parent idx, (∃ j, ((viewOf v).table j).Live) →
    (entryAlloc who entryType name nameLen parent v).1 = .ok idx →
      entryCheckAccess who ((viewOf v).table parent) accessWrite = .ok ()

/-- 解放は、断られるか、生きている項目を消すか、欄がすでに 0 である。 -/
def FreesLive (e : Event Vol EntryOp (Except UsfsErr Unit)) : Prop :=
  ∀ who idx, e.op = .free who idx → Erasable e.before who idx → 0 < e.before.sb.usedEntries.toNat →
    ((viewOf e.before).table idx).Live

/-! ## 数える分 -/

section

variable {v v' : Vol} {idx : UInt32} {x : Option Node}

theorem liveSlots_eq :
    liveSlots v = Nat.count (fun i => (directory v (.ofNat i)).isSome = true) v.sb.totalEntries.toNat :=
  count_congr fun _ _ => directory_isSome.symm

theorem SameShape.liveSlots (h : SameShape v.sb v'.sb) (hdir : directory v' = directory v) :
    liveSlots v' = liveSlots v := by
  rw [liveSlots_eq, liveSlots_eq, hdir, h.totalEntries]

/-- 表の中の、一つのほかの番号は、その項目を指さない。 -/
theorem update_ofNat_ne {i : Nat} (hi : i < v.sb.totalEntries.toNat)
    (hne : i ≠ idx.toNat) : Function.update (directory v) idx x (.ofNat i) = directory v (.ofNat i) := by
  have htot := v.sb.totalEntries.toNat_lt
  refine Function.update_of_ne (fun heq => hne ?_) _ _
  rw [← heq, toNat_ofNat_lt (by omega)]

/-- 空きのスロットに項目を加えると、数は 1 増える。 -/
theorem liveSlots_added (h : SameShape v.sb v'.sb) {n : Node}
    (hdir : directory v' = Function.update (directory v) idx (some n))
    (hidx : idx.toNat < v.sb.totalEntries.toNat) (hdead : ¬ ((viewOf v).table idx).Live) :
    liveSlots v' = liveSlots v + 1 := by
  rw [liveSlots_eq, liveSlots_eq, h.totalEntries]
  refine count_of_gain hidx ?_ ?_ fun i hi hne => ?_
  · rw [UInt32.ofNat_toNat, directory_isSome]
    exact hdead
  · rw [UInt32.ofNat_toNat, hdir, Function.update_self]
    rfl
  · rw [hdir, update_ofNat_ne hi hne]

/-- 生きている項目を除くと、数は 1 減る。 -/
theorem liveSlots_removed (h : SameShape v.sb v'.sb) (hdir : directory v' = Function.update (directory v) idx none)
    (hidx : idx.toNat < v.sb.totalEntries.toNat) (hlive : ((viewOf v).table idx).Live) :
    liveSlots v = liveSlots v' + 1 := by
  rw [liveSlots_eq, liveSlots_eq, h.totalEntries]
  refine count_of_gain hidx ?_ ?_ fun i hi hne => ?_
  · rw [UInt32.ofNat_toNat, hdir, Function.update_self]
    exact Bool.noConfusion
  · rw [UInt32.ofNat_toNat, directory_isSome]
    exact hlive
  · rw [hdir, update_ofNat_ne hi hne]

theorem liveSlots_pos (hidx : idx.toNat < v.sb.totalEntries.toNat) (hlive : ((viewOf v).table idx).Live) :
    0 < liveSlots v := by
  refine Nat.pos_of_ne_zero fun hz => count_eq_zero_iff.mp hz idx.toNat hidx ?_
  rw [UInt32.ofNat_toNat]
  exact hlive

/-- 表の外の番号には、項目がない。 -/
theorem inTable_of_live (hlive : ((viewOf v).table idx).Live) : idx.toNat < v.sb.totalEntries.toNat := by
  by_contra hout
  have hzero : (viewOf v).table idx = Entry.zero := if_neg hout
  rw [hzero] at hlive
  exact hlive.1 rfl

end

/-! ## 実行 -/

section

variable {v : Vol}

theorem Kept.guarded (hk : Kept v) (hcount : v.sb.usedEntries.toNat = liveSlots v) : CounterExact v := by
  refine ⟨hcount, fun who entryType name nameLen parent idx ⟨j, hlive⟩ hrun => ?_⟩
  have hadm := ((entryAlloc_turns hk.stable hk.summed who entryType name nameLen parent).ok (run_eq hrun)).admissible
  have hpos := liveSlots_pos (inTable_of_live hlive) hlive
  rw [← hcount] at hpos
  exact (hadm.parent (.inr (UInt32.lt_iff_toNat_lt.mpr hpos))).2.2

/-- 生きている項目だけを消す呼び出しは、欄と数を同じだけ変える。 -/
theorem Kept.counted_step (hk : Kept v) (hcount : v.sb.usedEntries.toNat = liveSlots v) (op : EntryOp)
    (hread : op.FreshlyRead v) (hlive : FreesLive (event EntryOp.run op v)) :
    (op.run v).2.sb.usedEntries.toNat = liveSlots (op.run v).2 := by
  have h := hk.step op hread
  unfold FreesLive event at hlive
  generalize (op.run v).1 = r at h
  generalize (op.run v).2 = v' at h
  obtain ⟨_, hshape, _, hstep⟩ := h
  generalize hdir : directory v' = dir at hstep
  generalize hused : v'.sb.usedEntries = used at hstep
  have htot := v.sb.totalEntries.toNat_lt
  cases hstep with
  | refused => rw [hshape.liveSlots hdir, hcount]
  | written => rw [hshape.liveSlots hdir, hcount]
  | truncated => rw [hshape.liveSlots hdir, hcount]
  | added hadm hslot =>
      have hroom := hadm.room
      have hone : (1 : UInt32).toNat = 1 := rfl
      rw [liveSlots_added hshape hdir hslot.inTable fun hlive => Entry.live_iff.mp hlive hslot.vacant, ← hcount,
        toNat_add_lt (by omega), hone]
  | @removed who idx h =>
      by_cases hpos : 0 < v.sb.usedEntries.toNat
      · have hone : (1 : UInt32).toNat = 1 := rfl
        have hless := liveSlots_removed hshape hdir h.inTable (hlive who idx rfl h hpos)
        have hgt : v.sb.usedEntries > 0 := UInt32.lt_iff_toNat_lt.mpr hpos
        rw [if_pos hgt, toNat_sub_le (by omega)]
        omega
      · -- 欄が 0 なら、消すべき項目は一つもない。
        have hnone : ¬ ((viewOf v).table idx).Live := fun hlive =>
          hpos (by rw [hcount]; exact liveSlots_pos h.inTable hlive)
        have hsame : directory v' = directory v := by
          rw [hdir]
          exact Function.update_eq_self_iff.mpr (if_neg hnone).symm
        have hle : ¬ v.sb.usedEntries > 0 := fun h => hpos (UInt32.lt_iff_toNat_lt.mp h)
        rw [if_neg hle, hshape.liveSlots hsame, hcount]

/-- 根の項目だけがあるとき、欄は 1 である。 -/
theorem Founded.counted (h : Founded v) : v.sb.usedEntries.toNat = liveSlots v := by
  have hone : liveSlots v = Nat.count (fun _ => False) v.sb.totalEntries.toNat + 1 := by
    rw [liveSlots_eq]
    refine count_of_gain h.slots not_false ?_ fun i hi hne => ?_
    · rw [h.root]
      rfl
    · rw [h.root, Function.update_of_ne fun heq => hne ?_]
      · simp
      · have htot := v.sb.totalEntries.toNat_lt
        rw [← toNat_ofNat_lt (n := i) (by omega), heq]
        rfl
  rw [hone, count_eq_zero_iff.mpr fun _ _ => id, h.used]
  rfl

end

section

variable {who : OwIdentity} {totalBlocks : UInt32} {label : Option (List UInt8)} {d d' : HtlDevice} {v : Vol}

/-- フォーマットしたボリュームでは、読み直した項目を渡し、生きている項目だけを解放するかぎり、呼び出しの列のどこでも、
項目の数の欄は生きている項目の数に等しい。 -/
theorem entry_counter_exact (hf : d.Reliable) (hfmt : formatVolume who totalBlocks label d = (.ok (), d'))
    (hopen : Opened d' v) (ops : List EntryOp)
    (hcareful : ∀ e ∈ trace EntryOp.run ops v, e.op.FreshlyRead e.before ∧ FreesLive e) :
    CounterExact (final EntryOp.run ops v) ∧
      ∀ e ∈ trace EntryOp.run ops v, CounterExact e.before ∧ CounterExact e.after := by
  have hfounded := founded_of_opened hf hfmt hopen
  obtain ⟨⟨hk, hcount⟩, hall⟩ := trace_invariant (I := fun v => Kept v ∧ v.sb.usedEntries.toNat = liveSlots v)
    (P := fun e => e.op.FreshlyRead e.before ∧ FreesLive e)
    (fun op _ h hP => ⟨(h.1.step op hP.1).kept, h.1.counted_step h.2 op hP.1 hP.2⟩) ops v
    ⟨hfounded.kept, hfounded.counted⟩ hcareful
  refine ⟨hk.guarded hcount, fun e he => ?_⟩
  obtain ⟨hbefore, heq⟩ := hall e he
  have hstep := hcareful e he
  rw [heq] at hstep ⊢
  exact ⟨hbefore.1.guarded hbefore.2,
    (hbefore.1.step e.op hstep.1).kept.guarded (hbefore.1.counted_step hbefore.2 e.op hstep.1 hstep.2)⟩

end

/-- 二つのファイルを作り、一つに書いてから、それを消す。 -/
def writeThenFree (held : Entry) : List EntryOp :=
  [createFile 0x61 0, createFile 0x62 0, writeByte held, .free ⟨0, 0⟩ 1]

theorem entry_counter_exact_small :
    ∃ d' v held, formatVolume ⟨0, 0⟩ 64 none (zeroDevice 0) = (.ok (), d') ∧ Opened d' v ∧
      CounterExact (final EntryOp.run (writeThenFree held) v) := by
  obtain ⟨d', v, hfmt, hopen⟩ := exists_opened_zeroDevice ⟨0, 0⟩ (n := 0) (.inl rfl)
  obtain ⟨v₁, v₂, hrun₁, hrun₂, hwork, htotal, hdir₁, hdir₂⟩ := two_files hfmt hopen (c := 0x62) (by decide) (.inl rfl)
  have hfile : (directory v₂ 1).isSome = true := by
    rw [hdir₂, Function.update_of_ne (by decide), hdir₁, Function.update_self]
    rfl
  obtain ⟨v₀, hread⟩ := entryRead_summed hwork.ready.stable (by rw [htotal]; decide : (1 : UInt32).toNat < _)
    (hwork.kept.summed 1 (directory_isSome.mp hfile).1)
  have hfresh : (entryRead 1 v₂).1 = .ok ((viewOf v₂).table 1) := by rw [hread]
  refine ⟨d', v, (viewOf v₂).table 1, hfmt, hopen,
    (entry_counter_exact (reliable_zeroDevice 0) hfmt hopen _ fun e he => ?_).1⟩
  have hsecond : (EntryOp.run (createFile 0x62 0) (EntryOp.run (createFile 0x61 0) v).2).2 = v₂ := by
    rw [hrun₁, hrun₂]
  unfold writeThenFree at he
  rcases List.mem_cons.mp he with rfl | he
  · refine ⟨trivial, ?_⟩
    rintro who idx ⟨⟩
  rcases List.mem_cons.mp he with rfl | he
  · refine ⟨trivial, ?_⟩
    rintro who idx ⟨⟩
  rw [hsecond] at he
  rcases List.mem_cons.mp he with rfl | he
  · refine ⟨hfresh, ?_⟩
    rintro who idx ⟨⟩
  · obtain rfl := List.mem_singleton.mp he
    refine ⟨trivial, ?_⟩
    rintro who idx ⟨⟩ _ _
    -- 書き込みは生死を変えないので、消す項目はまだ生きている。
    refine directory_isSome.mp ?_
    change (directory (EntryOp.run (writeByte ((viewOf v₂).table 1)) v₂).2 1).isSome = true
    rw [(hwork.kept.step (writeByte ((viewOf v₂).table 1)) hfresh).step.of_write]
    exact hfile

/-- 一つのファイルを二度消すと、欄は根の項目を数えなくなる。 -/
theorem entry_counter_drifts :
    ¬ ∀ d' v, formatVolume ⟨0, 0⟩ 64 none (zeroDevice 0) = (.ok (), d') → Opened d' v →
      ∀ ops, CounterExact (final EntryOp.run ops v) := by
  intro hclaim
  obtain ⟨d', v, hfmt, hopen⟩ := exists_opened_zeroDevice ⟨0, 0⟩ (n := 0) (.inl rfl)
  obtain ⟨_, _, _, hplain⟩ := workable_small hfmt hopen
  obtain ⟨v₁, hrun₁, hwork₁, _, _, htotal₁, hused₁, hroot₁, _, hfile⟩ := first_file hfmt hopen
  have hflags : ((viewOf v₁).table 1).securityFlags = 0 := by
    rw [hfile]
    change (if v.sb.securityFlags &&& secEncrypted ≠ 0 then secEncrypted.toUInt8 else 0) = 0
    rw [hplain]
    rfl
  obtain ⟨v₂, hrun₂, hwork₂, hshape₂, hused₂, htable₂⟩ := hwork₁.free ⟨0, 0⟩ 1
    (hwork₁.erasable (by rw [htotal₁]; decide) (by rw [hfile]; exact (by decide : entryFile ≠ 0)) hflags)
    (by rw [hfile]; rfl)
  have hgone : (viewOf v₂).table 1 = (clearedEntry ((viewOf v₁).table 1)).sealed := by
    rw [htable₂, Function.update_self]
  obtain ⟨v₃, hrun₃, hwork₃, hshape₃, hused₃, htable₃⟩ := hwork₂.free ⟨0, 0⟩ 1
    (hwork₂.erasable (by rw [hshape₂.totalEntries, htotal₁]; decide)
      (by rw [hgone, hfile]; exact (by decide : entryDeleted ≠ 0))
        (by rw [hfile] at hflags; rw [hgone, hfile]; exact hflags))
    (by rw [hgone, hfile]; rfl)
  have hfinal : final EntryOp.run [createFile 0x61 0, .free ⟨0, 0⟩ 1, .free ⟨0, 0⟩ 1] v = v₃ := by
    change (EntryOp.run (.free ⟨0, 0⟩ 1) (EntryOp.run (.free ⟨0, 0⟩ 1) (EntryOp.run (createFile 0x61 0) v).2).2).2 = v₃
    rw [hrun₁, hrun₂, hrun₃]
  have hexact := (hclaim d' v hfmt hopen [createFile 0x61 0, .free ⟨0, 0⟩ 1, .free ⟨0, 0⟩ 1]).counted
  rw [hfinal, hused₃, hused₂, hused₁] at hexact
  have hlive : ((viewOf v₃).table 0).Live := by
    rw [htable₃, Function.update_of_ne (by decide), htable₂, Function.update_of_ne (by decide)]
    exact hroot₁
  have hpos := liveSlots_pos (inTable_of_live hlive) hlive
  rw [← hexact] at hpos
  exact absurd hpos (by decide)

end OwStorage.Usfs
