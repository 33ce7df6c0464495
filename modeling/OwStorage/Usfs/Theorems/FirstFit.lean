import OwStorage.Usfs.Lemmas.Format

/-!
# 最も前の空きの並び

失敗のない装置の上で、`blockAlloc` は空きの並びがあるときに限り成功し、先頭の最も小さい並びだけに印を付ける。
-/

namespace OwStorage.Usfs

open Lib Prog

section

variable {v v' : Vol} {count b : UInt32}

/-- 空きの並びの長さは、空きの数を越えない。 -/
theorem FreeExact.run_le {len s : Nat} (h : FreeExact v.dev.disk v.sb)
    (hs : FirstFit (bitOf v.dev.disk v.sb) v.sb.dataCount len s) : len ≤ v.sb.freeBlocks.toNat := by
  have hvac : vacancies (bitOf v.dev.disk v.sb) s len ≤ freeCount v.dev.disk v.sb := vacancies_le_total hs.fits
  rw [hs.vacant.vacancies] at hvac
  exact hvac.trans h.ge

/-- 数え直しの合う門の開いたボリュームでは、空きの並びがあれば前もって断られない。 -/
theorem not_allocRefused (hw : volumeWritable v.sb = .ok ()) (hexact : FreeExact v.dev.disk v.sb) (hcount : 1 ≤ count)
    {s : Nat} (hs : FirstFit (bitOf v.dev.disk v.sb) v.sb.dataCount count.toNat s) (e : UsfsErr) :
    ¬ AllocRefused v.sb count e := by
  have hpos : 0 < count.toNat := UInt32.le_iff_toNat_le.mp hcount
  have hfits := hs.fits
  have hle := hexact.run_le hs
  rintro (⟨_, h | h | h⟩ | h)
  · rw [h] at hpos
    exact Nat.lt_irrefl 0 hpos
  · exact absurd (UInt32.lt_iff_toNat_lt.mp h) (by omega)
  · have := UInt32.le_iff_toNat_le.mp h
    unfold Superblock.dataCount at hfits
    omega
  · rw [hw] at h
    cases h

/-- 印を付けた後の問い合わせは、返した並びのブロックについてだけ答えが変わる。 -/
theorem Marked.isUsedNow_eq {s len : Nat} (h : Marked v v' s len true) (hl : Layout v.sb)
    (hreads : ReadsBitmap v.dev.toHtlConfig v.sb) (hfit : s + len ≤ v.sb.dataCount)
    (hsb : v'.sb = { v.sb with freeBlocks := v'.sb.freeBlocks }) (x : UInt32) :
    isUsedNow v' x = true ↔ isUsedNow v x = true ∨
      (v.sb.dataRegionStart.toNat + s ≤ x.toNat ∧ x.toNat < v.sb.dataRegionStart.toNat + s + len) := by
  have hl' : Layout v'.sb := by
    rw [hsb]
    exact ⟨hl.tableAfter, hl.bitmapAfter, hl.dataAfter, hl.entriesFit, hl.bitmapCovers⟩
  have hreads' : ReadsBitmap v'.dev.toHtlConfig v'.sb := by
    rw [hsb, h.dev.config]
    exact ⟨hreads.reads, hreads.wholeBlocks⟩
  have hgeo : v'.sb.IsData x ∧ bitOf v'.dev.disk v'.sb (v'.sb.relOf x) = true ↔
      v.sb.IsData x ∧ bitOf v'.dev.disk v.sb (v.sb.relOf x) = true := by
    rw [hsb]
    exact Iff.rfl
  rw [isUsedNow_iff hl' hreads', isUsedNow_iff hl hreads, hgeo]
  unfold Superblock.dataCount at hfit
  by_cases hx : v.sb.IsData x
  · have hlow := hx.1
    have hhigh := hx.2
    have hrel : v.sb.relOf x = x.toNat - v.sb.dataRegionStart.toNat := rfl
    have hlt : v.sb.relOf x < v.sb.dataCount := by
      unfold Superblock.dataCount
      omega
    rw [h.bits _ (lt_bitmap_of_lt_data hl hlt)]
    by_cases hin : s ≤ v.sb.relOf x ∧ v.sb.relOf x < s + len
    · rw [fill_of_mem hin]
      exact ⟨fun _ => .inr (by omega), fun _ => ⟨hx, rfl⟩⟩
    · rw [fill_of_notMem hin]
      exact ⟨fun hm => .inl hm, fun hm => hm.resolve_right (by omega)⟩
  · refine ⟨fun hm => absurd hm.1 hx, fun hm => ?_⟩
    rcases hm with hm | hm
    · exact absurd hm.1 hx
    · exact absurd ⟨by omega, by omega⟩ hx

/-- 空きの並びがあれば、割り当ては最も前の並びを返して印を付ける。 -/
theorem blockAlloc_ok (hl : Layout v.sb) (hw : volumeWritable v.sb = .ok ()) (hexact : FreeExact v.dev.disk v.sb)
    (hf : v.dev.FaultFree) (hserves : WritesBitmap v.dev.toHtlConfig v.sb) (hcount : 1 ≤ count) {s : Nat}
    (hs : FirstFit (bitOf v.dev.disk v.sb) v.sb.dataCount count.toNat s) :
    ∃ b v', blockAlloc count v = (.ok b, v') ∧ b.toNat = v.sb.dataRegionStart.toNat + s ∧
      Marked v v' s count.toNat true ∧ v'.sb = { v.sb with freeBlocks := v.sb.freeBlocks - count } := by
  have hpos : 0 < count.toNat := UInt32.le_iff_toNat_le.mp hcount
  have hcalm : ∀ c n, (v.atClock c).dev.Calm n := fun c n k _ => hf _
  obtain ⟨b, v', hrun, _, s', hfirst, hstart, hmarked, hsb, _⟩ :=
    (blockAlloc_spec hl count hserves.reads).exists_ok_of <| by
    rintro e v' ⟨_, ⟨_, href | ⟨_, hno⟩ | ⟨_, q, hq, _⟩⟩ | ⟨_, _, s', i, _, _, htorn⟩⟩
    · exact not_allocRefused hw hexact hcount hs e href
    · exact hno ⟨s, hs⟩
    · exact hq (hf _)
    · exact htorn.cut ⟨hcalm _ _, hserves.unprotected hl (by have := hs.fits; omega)⟩
  obtain rfl := hs.unique hfirst
  exact ⟨b, v', hrun, hstart, hmarked, hsb⟩

end

/-- 割り当てがボリュームに残す変化。`s` は返した並びの、データ領域の中での先頭である。 -/
structure TookRun (v v' : Vol) (b count : UInt32) (s : Nat) : Prop where
  first : FirstFit (bitOf v.dev.disk v.sb) v.sb.dataCount count.toNat s
  start : b.toNat = v.sb.dataRegionStart.toNat + s
  bits : ∀ r, r < v.sb.bitmapBlockCount.toNat * 32768 →
    bitOf v'.dev.disk v.sb r = if s ≤ r ∧ r < s + count.toNat then true else bitOf v.dev.disk v.sb r
  others : ∀ x, x ∉ v.sb.bitmapRegion → v'.dev.disk x = v.dev.disk x
  answers : ∀ x, isUsedNow v' x = true ↔ isUsedNow v x = true ∨
    (b.toNat ≤ x.toNat ∧ x.toNat < b.toNat + count.toNat)
  sb : v'.sb = { v.sb with freeBlocks := v.sb.freeBlocks - count }
  freeBlocks : v'.sb.freeBlocks.toNat + count.toNat = v.sb.freeBlocks.toNat

/-- 空きの並びがあれば最も前のものを取り、なければ何も変えずに断る。 -/
theorem blockAlloc_first_fit {v : Vol} {count : UInt32} (hl : Layout v.sb) (hw : volumeWritable v.sb = .ok ())
    (hexact : FreeExact v.dev.disk v.sb) (hf : v.dev.FaultFree) (hserves : WritesBitmap v.dev.toHtlConfig v.sb)
    (hcount : 1 ≤ count) :
    ((∃ s, s + count.toNat ≤ v.sb.dataCount ∧ Vacant (bitOf v.dev.disk v.sb) s count.toNat) →
      ∃ b v' s, blockAlloc count v = (.ok b, v') ∧ TookRun v v' b count s) ∧
    ((¬ ∃ s, s + count.toNat ≤ v.sb.dataCount ∧ Vacant (bitOf v.dev.disk v.sb) s count.toNat) →
      ∃ v', blockAlloc count v = (.error .noFreeBlocks, v') ∧ v'.dev.disk = v.dev.disk ∧
        v'.dev.trail = v.dev.trail ∧ v'.sb = v.sb) := by
  have hspec := blockAlloc_spec hl count hserves.reads
  refine ⟨fun hsome => ?_, fun hnone => ?_⟩
  · obtain ⟨s, hfit, hvac⟩ := hsome
    obtain ⟨s, hs⟩ := FirstFit.of_vacant hfit hvac
    obtain ⟨b, v', hrun, hstart, hmarked, hsb⟩ := blockAlloc_ok hl hw hexact hf hserves hcount hs
    have hle := hexact.run_le hs
    have hfree : v'.sb.freeBlocks = v.sb.freeBlocks - count := congrArg Superblock.freeBlocks hsb
    refine ⟨b, v', s, hrun, hs, hstart, hmarked.bits, hmarked.dev.disk, fun x => ?_, hsb, ?_⟩
    · have hanswer := hmarked.isUsedNow_eq hl hserves.reads hs.fits (by rw [hfree]; exact hsb) x
      rwa [← hstart] at hanswer
    · rw [hfree, toNat_sub_le hle]
      omega
  · have hno : ¬ ∃ s, FirstFit (bitOf v.dev.disk v.sb) v.sb.dataCount count.toNat s := by
      rintro ⟨s, hs⟩
      exact hnone ⟨s, hs.fits, hs.vacant⟩
    obtain ⟨e, v', hrun, hsb, h⟩ := hspec.exists_error_of fun _ _ h => hno ⟨h.2.choose, h.2.choose_spec.1⟩
    rcases h with ⟨⟨c, rfl⟩, href | ⟨rfl, _⟩ | ⟨_, q, hq, _⟩⟩ | ⟨_, _, s, _, hs, _⟩
    · rcases href with ⟨rfl, _⟩ | href
      · exact ⟨_, hrun, rfl, rfl, rfl⟩
      · rw [hw] at href
        cases href
    · exact ⟨_, hrun, rfl, rfl, rfl⟩
    · exact absurd (hf _) hq
    · exact absurd ⟨s, hs⟩ hno

/-- フォーマットしたばかりのボリュームから、三つの並びを取る。 -/
theorem blockAlloc_first_fit_fresh :
    ∃ d' v, formatVolume ⟨0, 0⟩ 64 none (zeroDevice 0) = (.ok (), d') ∧ Opened d' v ∧
      ∃ b v' s, blockAlloc 3 v = (.ok b, v') ∧ TookRun v v' b 3 s := by
  obtain ⟨d', v, hfmt, hopen⟩ := exists_opened_zeroDevice ⟨0, 0⟩ (n := 0) (.inl rfl)
  obtain ⟨b, nonce, hb, hunused, hfresh, _⟩ := fresh_of_format (reliable_zeroDevice 0) (by decide) hfmt hopen
  obtain rfl : b = 1 := Option.some.inj (hb.symm.trans layoutBitmapBlocks_small)
  have hr := hfresh.ready
  have hcount : v.sb.dataCount = 46 := by
    unfold Superblock.dataCount
    rw [hfresh.totalBlocks_eq, hfresh.dataRegionStart_eq]
    rfl
  refine ⟨d', v, hfmt, hopen, (blockAlloc_first_fit hr.layout hfresh.writable (hfresh.freeExact hunused) hr.faultFree
    (hr.serves.bitmap hr.layout) (by decide)).1 ⟨1, by rw [hcount]; decide, fun i hi => ?_⟩⟩
  have hi : i < 3 := hi
  rw [hfresh.bit (by omega), fill_of_notMem (by omega)]

end OwStorage.Usfs
