import OwStorage.Lib.Bytes

/-!
# 検査値（`ow_checksum.c`）
-/

namespace OwStorage

open Lib

/-! ## CRC32c -/

/-- 一ビット分の除算。 -/
def crc32cBit (crc : UInt32) : UInt32 :=
  if crc &&& 1 != 0 then (crc >>> 1) ^^^ 0x82F63B78 else crc >>> 1

def crc32cByte (crc : UInt32) (byte : UInt8) : UInt32 :=
  crc32cBit^[8] (crc ^^^ byte.toUInt32)

@[irreducible] def owCrc32c (initial : UInt32) (data : List UInt8) : UInt32 :=
  ~~~ data.foldl crc32cByte (~~~ initial)

/-- 検査値の欄 `[off, off + 4)` を 0 とみなした CRC32c。 -/
@[irreducible] def owCrc32cStruct (data : List UInt8) (off : Nat) : UInt32 :=
  ~~~ (data.zipIdx.foldl
    (fun crc p => crc32cByte crc (if off ≤ p.2 ∧ p.2 < off + 4 then 0 else p.1)) 0xFFFFFFFF)

/-- 検査値の欄の中身は、検査値に影響しない。 -/
theorem owCrc32cStruct_field (pre post c c' : List UInt8) (hc : c.length = 4) (hc' : c'.length = 4) :
    owCrc32cStruct (pre ++ (c ++ post)) pre.length =
      owCrc32cStruct (pre ++ (c' ++ post)) pre.length := by
  unfold owCrc32cStruct
  simp only [List.zipIdx_append, List.foldl_append, Nat.zero_add, hc, hc']
  have hzero : ∀ (l : List UInt8) (k : Nat) (acc : UInt32), pre.length ≤ k →
      k + l.length ≤ pre.length + 4 →
      (l.zipIdx k).foldl (fun crc p =>
        crc32cByte crc (if pre.length ≤ p.2 ∧ p.2 < pre.length + 4 then 0 else p.1)) acc =
      (fun crc => crc32cByte crc 0)^[l.length] acc := by
    intro l
    induction l with
    | nil => intro k acc _ _; rfl
    | cons b l ih =>
        intro k acc hlo hhi
        simp only [List.length_cons] at hhi
        simp only [List.zipIdx_cons, List.foldl_cons, List.length_cons, Function.iterate_succ,
          Function.comp_apply]
        rw [ih (k + 1) _ (by omega) (by omega), if_pos (by omega)]
  rw [hzero c pre.length _ (by omega) (by omega), hzero c' pre.length _ (by omega) (by omega), hc, hc']

/-! ## Fletcher-64 -/

/-- 下の桁から並ぶ 4 バイトの語。 -/
def leWord (b0 b1 b2 b3 : UInt8) : UInt32 :=
  b0.toUInt32 ||| (b1.toUInt32 <<< 8) ||| (b2.toUInt32 <<< 16) ||| (b3.toUInt32 <<< 24)

def fletcherStep (s : UInt64 × UInt64) (word : UInt32) : UInt64 × UInt64 :=
  let sum1 := (s.1 + word.toUInt64) % 0xFFFFFFFF
  (sum1, (s.2 + sum1) % 0xFFFFFFFF)

/-- 4 バイトずつ読み進める。端数が残れば、それを返す。 -/
def fletcherWords : List UInt8 → UInt64 × UInt64 → List UInt8 × (UInt64 × UInt64)
  | b0 :: b1 :: b2 :: b3 :: rest, s => fletcherWords rest (fletcherStep s (leWord b0 b1 b2 b3))
  | tail, s => (tail, s)

def fletcherResult (s : UInt64 × UInt64) : UInt64 := (s.2 <<< 32) ||| s.1

def owFletcher64 (data : List UInt8) : UInt64 :=
  match fletcherWords data (0, 0) with
  | ([], s) => fletcherResult s
  | (tail, s) =>
      fletcherResult (fletcherStep s (leWord (tail[0]?.getD 0) (tail[1]?.getD 0) (tail[2]?.getD 0) 0))

end OwStorage
