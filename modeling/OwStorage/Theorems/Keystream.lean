import OwStorage.Common.Lemmas.Crypto
import OwStorage.Owfs.File
import OwStorage.Owfs.Format
import OwStorage.Usfs.File

/-!
# 鍵の流れの再利用

ブロック `b` の暗号化は、カウンタ `b` から `b + 63` までの鍵の流れを使う。一つのボリュームの二つのブロックは、
番号が 64 以上離れていなければ、鍵の流れの一部を共有する。流れそのものは、データの位置だけで決まる。
-/

namespace OwStorage

open Lib

/-- 32 ビットで回る番号の上で、二つの番号が互いに 64 以上離れている。 -/
def Apart (b₁ b₂ : UInt32) : Prop := 64 ≤ (b₁ - b₂).toNat ∧ 64 ≤ (b₂ - b₁).toNat

theorem Owfs.cryptoCounters_eq {sb : Owfs.Superblock} {ino : Owfs.Inode} (h : Owfs.isEncrypted sb ino = true)
    (buf : Block) (b : UInt32) :
    Owfs.cryptoCounters sb ino buf b = (List.range 64).map fun i => b + UInt32.ofNat i := by
  rw [Owfs.cryptoCounters, if_pos h, owChacha20Counters_block]

theorem Usfs.cryptoCounters_eq {sb : Usfs.Superblock} {e : Usfs.Entry} (h : Usfs.isEncrypted sb e = true)
    (buf : Block) (b : UInt32) :
    Usfs.cryptoCounters sb e buf b = (List.range 64).map fun i => b + UInt32.ofNat i := by
  rw [Usfs.cryptoCounters, if_pos h, owChacha20Counters_block]

/-- 暗号化されたファイルの二つのブロックが鍵の流れを共有しないのは、番号が 64 以上離れているときに限る。 -/
theorem keystream_disjoint_iff_apart (b₁ b₂ : UInt32) (buf₁ buf₂ : Block) :
    (∀ (sb : Owfs.Superblock) (i₁ i₂ : Owfs.Inode),
      List.Disjoint (Owfs.cryptoCounters sb i₁ buf₁ b₁) (Owfs.cryptoCounters sb i₂ buf₂ b₂) ↔
        (Owfs.isEncrypted sb i₁ = true → Owfs.isEncrypted sb i₂ = true → Apart b₁ b₂)) ∧
    (∀ (sb : Usfs.Superblock) (e₁ e₂ : Usfs.Entry),
      List.Disjoint (Usfs.cryptoCounters sb e₁ buf₁ b₁) (Usfs.cryptoCounters sb e₂ buf₂ b₂) ↔
        (Usfs.isEncrypted sb e₁ = true → Usfs.isEncrypted sb e₂ = true → Apart b₁ b₂)) := by
  constructor
  · intro sb i₁ i₂
    by_cases h₁ : Owfs.isEncrypted sb i₁ = true
    · by_cases h₂ : Owfs.isEncrypted sb i₂ = true
      · rw [Owfs.cryptoCounters_eq h₁, Owfs.cryptoCounters_eq h₂, counters_disjoint_iff]
        exact ⟨fun h _ _ => h, fun h => h h₁ h₂⟩
      · simp [Owfs.cryptoCounters, h₂]
    · simp [Owfs.cryptoCounters, h₁]
  · intro sb e₁ e₂
    by_cases h₁ : Usfs.isEncrypted sb e₁ = true
    · by_cases h₂ : Usfs.isEncrypted sb e₂ = true
      · rw [Usfs.cryptoCounters_eq h₁, Usfs.cryptoCounters_eq h₂, counters_disjoint_iff]
        exact ⟨fun h _ _ => h, fun h => h h₁ h₂⟩
      · simp [Usfs.cryptoCounters, h₂]
    · simp [Usfs.cryptoCounters, h₁]

/-- 1024 ブロックの暗号化されたボリュームの、隣り合うブロック 300 と 301 は鍵の流れを共有する。 -/
theorem keystream_shared_by_neighbours :
    ¬ ∀ (sb : Owfs.Superblock) (ino : Owfs.Inode) (buf₁ buf₂ : Block) (b₁ b₂ : UInt32),
      Owfs.isEncrypted sb ino = true → b₁ < sb.totalBlocks → b₂ < sb.totalBlocks → b₁ ≠ b₂ →
      List.Disjoint (Owfs.cryptoCounters sb ino buf₁ b₁) (Owfs.cryptoCounters sb ino buf₂ b₂) := by
  intro h
  have henc : Owfs.isEncrypted
      { Owfs.freshSuperblock 1024 none (Bytes.zero 12) with securityFlags := Owfs.secEncrypted }
      { Owfs.Inode.zero with entryType := Owfs.entryFile, securityFlags := 1 } = true := by decide
  have hd := h _ _ (Bytes.zero 4096) (Bytes.zero 4096) 300 301 henc (by decide) (by decide) (by decide)
  rw [Owfs.cryptoCounters_eq henc, Owfs.cryptoCounters_eq henc] at hd
  exact absurd ((counters_disjoint_iff 300 301).mp hd).2 (by decide)

/-! ## 位置ごとの暗号 -/

/-- `ow_chacha20_xor` は位置ごとの暗号である。二度掛けると元に戻り、64 バイトの境で分けて掛けられる。 -/
theorem owChacha20Xor_positional (counter : UInt32) (key nonce data : List UInt8) :
    owChacha20Xor counter key nonce (owChacha20Xor counter key nonce data) = data ∧
    (owChacha20Xor counter key nonce data).length = data.length ∧
    (∀ p (hp : p < data.length), (owChacha20Xor counter key nonce data)[p]? =
      some (data.get ⟨p, hp⟩ ^^^
        (owChacha20Block (UInt32.ofNat ((counter.toNat + p / 64) % 2 ^ 32)) key nonce).get
          ⟨p % 64, mod_lt_owChacha20Block _ p⟩)) ∧
    (∀ x y : List UInt8, 64 ∣ x.length → owChacha20Xor counter key nonce (x ++ y) =
      owChacha20Xor counter key nonce x ++
        owChacha20Xor (UInt32.ofNat ((counter.toNat + x.length / 64) % 2 ^ 32)) key nonce y) := by
  refine ⟨owChacha20Xor_invol counter data, length_owChacha20Xor counter data, ?_, ?_⟩
  · intro p hp
    rw [getElem?_owChacha20Xor, List.getElem?_eq_getElem hp, Option.map_some, keystreamByte_eq_get]
    rfl
  · intro x y hx
    obtain ⟨m, hm⟩ := hx
    have hdiv : x.length / 64 = m := by omega
    rw [hdiv, wrapped_eq_add, owChacha20Xor_append hm]

/-- カウンタの最大値の次は 0 である。 -/
theorem owChacha20Xor_wraps :
    owChacha20Xor 0xFFFFFFFF ((List.range 32).map UInt8.ofNat) (List.replicate 12 9) (List.replicate 64 5 ++ [1, 2]) =
      owChacha20Xor 0xFFFFFFFF ((List.range 32).map UInt8.ofNat) (List.replicate 12 9) (List.replicate 64 5) ++
        owChacha20Xor 0 ((List.range 32).map UInt8.ofNat) (List.replicate 12 9) [1, 2] :=
  (owChacha20Xor_positional 0xFFFFFFFF ((List.range 32).map UInt8.ofNat) (List.replicate 12 9) []).2.2.2
    (List.replicate 64 5) [1, 2] (by decide)

end OwStorage
