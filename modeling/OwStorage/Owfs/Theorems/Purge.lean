import OwStorage.Owfs.Lemmas.Reach

/-!
# 鍵の消去

通った消去の後は、鍵を設定し直さないかぎり、どの呼び出しの列の途中でも、メモリの上にもディスクの上にも鍵が現れない。
-/

namespace OwStorage.Owfs

open Lib Prog

/-- 鍵の欄が二つとも、一つの値で塗りつぶされている。 -/
def Superblock.Keyless (sb : Superblock) : Prop :=
  ∃ fill : UInt8, sb.keySlot1 = Vector.replicate 256 fill ∧ sb.keySlot2 = Vector.replicate 256 fill

/-- メモリの上とディスクの上のスーパーブロックに、鍵がない。 -/
structure Purged (v : Vol) : Prop where
  memory : v.sb.Keyless
  disk : (diskSb v).Keyless

/-- `v` から `v'` までの間に書かれたどのディスクにも、鍵がない。 -/
def WroteNoKey (v v' : Vol) : Prop :=
  ∃ new, v'.dev.trail = new ++ v.dev.trail ∧ ∀ k ∈ new, (Superblock.ofBlock (k superblockBlock)).Keyless

/-- 消えた鍵を、途中のどの書き込みでも戻さない。 -/
def KeepsPurged (v v' : Vol) : Prop := Purged v → Purged v' ∧ WroteNoKey v v'

section

variable {v v' v'' : Vol} {sb sb' : Superblock}

theorem SameShape.keyless (h : SameShape sb sb') (hk : sb.Keyless) : sb'.Keyless := by
  obtain ⟨_, _, rfl⟩ := h
  exact hk

theorem SameLedger.keyless (h : SameLedger sb sb') (hk : sb.Keyless) : sb'.Keyless := by
  obtain ⟨_, _, _, _, rfl⟩ := h
  exact hk

theorem WroteNoKey.refl (v : Vol) : WroteNoKey v v := ⟨[], rfl, fun _ hk => absurd hk List.not_mem_nil⟩

theorem WroteNoKey.trans (h : WroteNoKey v v') (h' : WroteNoKey v' v'') : WroteNoKey v v'' := by
  obtain ⟨new, htrail, hnew⟩ := h
  obtain ⟨new', htrail', hnew'⟩ := h'
  refine ⟨new' ++ new, by rw [htrail', htrail, List.append_assoc], fun k hk => ?_⟩
  rcases List.mem_append.mp hk with hk | hk
  · exact hnew' k hk
  · exact hnew k hk

instance : IsPreorder Vol KeepsPurged where
  refl v h := ⟨h, .refl v⟩
  trans _ _ _ h h' hp := ⟨(h' (h hp).1).1, (h hp).2.trans (h' (h hp).1).2⟩

/-- 鍵のないスーパーブロックを書いた。 -/
theorem purged_saved (hk : v.sb.Keyless) (c : Nat) : Purged (v.saved c) ∧ WroteNoKey v (v.saved c) := by
  have hsealed : v.sb.sealed.Keyless := (SameLedger.sealed v.sb).keyless hk
  have hdisk : (diskSb (v.saved c)).Keyless := by
    rw [diskSb_saved]
    exact hsealed
  refine ⟨⟨hsealed, hdisk⟩, [(v.saved c).dev.disk], rfl, fun k hmem => ?_⟩
  rw [List.mem_singleton.mp hmem]
  exact hdisk

theorem bookkeeping_keepsPurged : Bookkeeping KeepsPurged where
  still := by
    rintro v _ ⟨c, rfl⟩ hp
    exact ⟨⟨hp.memory, hp.disk⟩, .refl v⟩
  ledger := fun hsb hp => ⟨⟨hsb.keyless hp.memory, hp.disk⟩, .refl _⟩
  saved := fun v => wp_superblockWrite (fun c _ hp => purged_saved hp.memory c)
    (fun _ _ _ _ hp => ⟨⟨(SameLedger.sealed v.sb).keyless hp.memory, hp.disk⟩, .refl v⟩)

/-- 二つの欄を塗りつぶしてから書く一回は、前に何があっても、鍵を残さない。 -/
theorem purgePass_spec (fill : UInt8) :
    wp (purgePass fill) (fun _ v' => Purged v' ∧ WroteNoKey v v') (fun _ _ => True) v := by
  unfold purgePass
  rw [wp_bind, wp_modifySb, wp_bind]
  refine wp_superblockWrite (fun c _ => ?_) (fun _ _ _ _ => trivial)
  obtain ⟨hp, hw⟩ := @purged_saved { v with sb := { v.sb with
    keySlot1 := Vector.replicate 256 fill, keySlot2 := Vector.replicate 256 fill } } ⟨fill, rfl, rfl⟩ c
  rw [wp_bind, wp_attempt]
  exact wp_flushBlk (fun c' => ⟨⟨hp.memory, hp.disk⟩, hw⟩) (fun c' _ => ⟨⟨hp.memory, hp.disk⟩, hw⟩)

theorem keepsPurged_purgePass (fill : UInt8) : Preserves KeepsPurged (purgePass fill) := by
  refine .bind (fun v hp => ⟨⟨⟨fill, rfl, rfl⟩, hp.disk⟩, .refl v⟩) fun _ =>
    .bind bookkeeping_keepsPurged.saved fun _ => ?_
  exact .bind bookkeeping_keepsPurged.flushBlk.attempt fun _ => .pure _

/-- 通った消去は、前に何があっても、鍵を残さない。 -/
theorem cryptoPurge_spec :
    wp cryptoPurge (fun _ v' => Purged v' ∧ WroteNoKey v v') (fun _ _ => True) v := by
  have hrest : Preserves KeepsPurged (do
      purgePass 0x00
      purgePass 0xAA
      modifySb fun sb => { sb with securityFlags := sb.securityFlags &&& ~~~ secEncrypted }
      syncChanges) :=
    .bind (keepsPurged_purgePass _) fun _ => .bind (keepsPurged_purgePass _) fun _ =>
      .bind (fun v hp => ⟨⟨hp.memory, hp.disk⟩, .refl v⟩) fun _ => bookkeeping_keepsPurged.syncChanges
  unfold cryptoPurge
  rw [wp_bind]
  refine (purgePass_spec 0xFF).mono ?_ fun _ _ h => h
  rintro _ v₁ ⟨hp, hw⟩
  exact (hrest v₁).mono (fun _ _ hk => ⟨(hk hp).1, hw.trans (hk hp).2⟩) fun _ _ _ => trivial

/-- 鍵の設定のほかの呼び出しは、消えた鍵を戻さない。 -/
theorem Intact.keepsPurged (h : Intact v) {op : ApiOp} (hop : ∀ key, op ≠ .cryptoSetKey key) :
    KeepsPurged v (op.run v).2 := by
  have hkeep : ∀ {q : OwfsM Unit}, Preserves KeepsPurged q → KeepsPurged v (q v).2 := fun hq =>
    (hq v).state (I := KeepsPurged v)
  cases op with
  | data op =>
      obtain ⟨_, hcarry, _⟩ := h.toReady.after (upholds_dataOp op)
      intro hp
      have hout : superblockBlock ∉ { b | b ≠ superblockBlock } := fun hne => hne rfl
      obtain ⟨new, htrail, hnew⟩ := hcarry.dev.trail
      refine ⟨⟨hcarry.shape.keyless hp.memory, ?_⟩, new, htrail, fun k hk => ?_⟩
      · change (Superblock.ofBlock ((op.run v).2.dev.disk superblockBlock)).Keyless
        rw [hcarry.dev.disk _ hout]
        exact hp.disk
      · rw [hnew k hk _ hout]
        exact hp.disk
  | life op =>
      by_cases hmount : op = .mount
      · subst hmount
        exact (bookkeeping_keepsPurged.mounted fun c hp => ⟨⟨hp.disk, hp.disk⟩, .refl v⟩).state (I := KeepsPurged v)
      · exact hkeep (bookkeeping_keepsPurged.lifeOp hmount)
  | cryptoSetKey key => exact absurd rfl (hop key)
  | cryptoPurge =>
      refine hkeep (.bind (keepsPurged_purgePass _) fun _ => .bind (keepsPurged_purgePass _) fun _ =>
        .bind (keepsPurged_purgePass _) fun _ => .bind ?_ fun _ => bookkeeping_keepsPurged.syncChanges)
      exact fun v hp => ⟨⟨hp.memory, hp.disk⟩, .refl v⟩

end

section

variable {d₀ d : HtlDevice} {totalBlocks : UInt32} {label : Option (List UInt8)} {v w : Vol}

/-- どの実行の途中で消去しても、通った消去の書き込みと、鍵を設定し直さない後の実行のどの書き込みの後にも、鍵はない。 -/
theorem purged_key_never_returns (hff : d₀.FaultFree) (hformat : formatVolume totalBlocks label d₀ = (.ok (), d))
    (hopen : Opened d v) (before after : List ApiOp) (hbefore : ∀ e ∈ trace ApiOp.run before v, Flushed e)
    (hpurge : cryptoPurge (final ApiOp.run before v) = (.ok (), w))
    (hafter : ∀ e ∈ trace ApiOp.run after w, Flushed e ∧ ∀ key, e.op ≠ .cryptoSetKey key) :
    Purged (final ApiOp.run after w) ∧ WroteNoKey (final ApiOp.run before v) (final ApiOp.run after w) := by
  have hreach := (intact_of_opened hff hformat hopen).final hbefore
  have hintact : Intact w := by
    have hstep := hreach.step .cryptoPurge fun hno => by cases hno
    change Intact (cryptoPurge (final ApiOp.run before v)).2 at hstep
    rwa [hpurge] at hstep
  have hstart := cryptoPurge_spec.ok hpurge
  refine (trace_invariant (I := fun u => Intact u ∧ Purged u ∧ WroteNoKey (final ApiOp.run before v) u)
    (P := fun e => Flushed e ∧ ∀ key, e.op ≠ .cryptoSetKey key) (fun op u h hP => ?_) after w ⟨hintact, hstart⟩
    hafter).1.2
  obtain ⟨hp, hw⟩ := h.1.keepsPurged hP.2 h.2.1
  exact ⟨h.1.step op hP.1, hp, h.2.2.trans hw⟩

end

/-! ## 小さなボリュームの例 -/

/-- 鍵を設定する。 -/
def keyOps : List ApiOp := [.cryptoSetKey (List.replicate 32 7)]

theorem purge_keyed : cryptoPurge (final ApiOp.run keyOps mountedVolume) =
    (.ok (), (cryptoPurge (final ApiOp.run keyOps mountedVolume)).2) := run_eq (by decide +kernel)

theorem purged_key_never_returns_on_mountedVolume :
    Purged (final ApiOp.run [.life .syncChanges] (cryptoPurge (final ApiOp.run keyOps mountedVolume)).2) ∧
      WroteNoKey (final ApiOp.run keyOps mountedVolume)
        (final ApiOp.run [.life .syncChanges] (cryptoPurge (final ApiOp.run keyOps mountedVolume)).2) := by
  refine purged_key_never_returns faultFree_blankDevice format_blankDevice
    (.mount (mount_formattedVolume Superblock.zero)) keyOps [.life .syncChanges] (fun e he => ?_) purge_keyed
    fun e he => ?_
  · have hop := op_mem_of_mem_trace he
    unfold keyOps at hop
    unfold Flushed
    rw [List.mem_singleton.mp hop]
    exact fun hno => by cases hno
  · unfold Flushed
    rw [List.mem_singleton.mp (op_mem_of_mem_trace he)]
    exact ⟨(fun hno => by cases hno), fun _ hno => by cases hno⟩

end OwStorage.Owfs
