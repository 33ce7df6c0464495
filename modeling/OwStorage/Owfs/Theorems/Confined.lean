import OwStorage.Owfs.Theorems.ObjectStore

/-!
# 書き込みの届く範囲

フォーマットもその後のどの呼び出しも、スーパーブロックからボリュームの終わりまでのブロックだけを書く。起動に使う先頭の十六ブロックと、
ボリュームの後ろのブロックは、途中のどの時点でも、フォーマットの前のままである。
-/

namespace OwStorage.Owfs

open Lib Prog

/-- 大きさを変えずに、スーパーブロックだけを書いた。 -/
structure Filed (v v' : Vol) : Prop where
  total : v'.sb.totalBlocks = v.sb.totalBlocks
  dev : v.dev.Evolves {superblockBlock} v'.dev

instance : IsPreorder Vol Filed where
  refl _ := ⟨rfl, .refl _ _⟩
  trans _ _ _ h h' := ⟨h'.total.trans h.total, h.dev.trans h'.dev⟩

theorem housekeeping_filed : Housekeeping Filed where
  still := by
    rintro v _ ⟨c, rfl⟩
    exact ⟨rfl, .atClock⟩
  clerical := by
    rintro v _ ⟨_, _, _, _, _, _, _, rfl⟩
    exact ⟨rfl, .refl _ _⟩
  saved := fun v => wp_superblockWrite (fun _ _ => ⟨rfl, evolves_saved⟩) (fun _ _ _ _ => ⟨rfl, .atClock⟩)

section

variable {d₀ d : HtlDevice} {totalBlocks : UInt32} {label : Option (List UInt8)} {v v' : Vol}

/-- データの呼び出しのほかは、スーパーブロックだけを書く。 -/
theorem filed_of_flushed {op : ApiOp} (hop : ∀ o, op ≠ .data o) (hflushed : Flushed (event ApiOp.run op v)) :
    Filed v (op.run v).2 := by
  have hkeep : ∀ {q : OwfsM Unit}, Preserves Filed q → Filed v (q v).2 := fun hq => (hq v).state (I := Filed v)
  cases op with
  | data o => exact absurd rfl (hop o)
  | cryptoSetKey key => exact hkeep (housekeeping_filed.cryptoSetKey key)
  | cryptoPurge => exact hkeep housekeeping_filed.cryptoPurge
  | life op =>
      by_cases hmount : op = .mount
      · subst hmount
        refine (housekeeping_filed.mounted fun c => ?_).state (I := Filed v)
        rw [show diskSb v = v.sb from hflushed rfl]
        exact ⟨rfl, .atClock⟩
      · exact hkeep (housekeeping_filed.lifeOp hmount)

/-- 一回の呼び出しは、ボリュームの外を書かない。 -/
theorem Housed.step (h : Housed totalBlocks d v) (hi : Intact v) (op : ApiOp)
    (hflushed : Flushed (event ApiOp.run op v)) : Housed totalBlocks d (op.run v).2 := by
  have hfiled : Filed v (op.run v).2 → Housed totalBlocks d (op.run v).2 := fun hf =>
    h.trans hf.total (hf.dev.mono (hi.sound.layout.superblock_mem h.total))
  cases op with
  | data op =>
      obtain ⟨_, hcarry, _⟩ := hi.toReady.after (upholds_dataOp op)
      exact h.trans hcarry.shape.totalBlocks (hcarry.own.mono (volumeBlocks_of_own h.total))
  | life op => exact hfiled (filed_of_flushed (fun _ => (by rintro ⟨⟩)) hflushed)
  | cryptoSetKey key => exact hfiled (filed_of_flushed (fun _ => (by rintro ⟨⟩)) hflushed)
  | cryptoPurge => exact hfiled (filed_of_flushed (fun _ => (by rintro ⟨⟩)) hflushed)

theorem housed_of_opened (hformat : formatVolume totalBlocks label d₀ = (.ok (), d)) (hopen : Opened d v) :
    Housed totalBlocks d₀ v := by
  obtain ⟨sb, hfmt, _, hhoused⟩ := housed_of_formatVolume hformat
  obtain ⟨⟨_, _, _, _, hsb⟩, hdev⟩ := resaved_of_opened hfmt hopen
  refine hhoused.trans ?_ (hdev.mono (hfmt.sound.layout.superblock_mem hhoused.total))
  rw [hsb]

/-- フォーマットから始まるどの実行も、途中の書き込みの一つ一つまで、ボリュームの外のブロックを変えない。 -/
theorem writes_confined (hff : d₀.FaultFree) (hformat : formatVolume totalBlocks label d₀ = (.ok (), d))
    (hopen : Opened d v) (ops : List ApiOp) (hflushed : ∀ e ∈ trace ApiOp.run ops v, Flushed e) :
    d₀.Evolves (volumeBlocks totalBlocks) (final ApiOp.run ops v).dev :=
  (trace_invariant (I := fun v => Intact v ∧ Housed totalBlocks d₀ v) (P := Flushed)
    (fun op _ h hf => ⟨h.1.step op hf, h.2.step h.1 op hf⟩) ops v
    ⟨intact_of_opened hff hformat hopen, housed_of_opened hformat hopen⟩ hflushed).1.2.dev

theorem writes_confined_on_mountedVolume :
    blankDevice.Evolves (volumeBlocks 280) (final ApiOp.run storeOps mountedVolume).dev := by
  refine writes_confined faultFree_blankDevice format_blankDevice (.mount (mount_formattedVolume Superblock.zero))
    storeOps fun e he hmount => ?_
  have hop := op_mem_of_mem_trace he
  unfold storeOps at hop
  simp only [hmount, List.mem_cons, List.not_mem_nil, or_false, reduceCtorEq, ApiOp.life.injEq] at hop

end

end OwStorage.Owfs
