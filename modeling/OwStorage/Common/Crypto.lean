import OwStorage.Lib.Bytes

/-!
# ChaCha20（`ow_crypto.c`）

`owChacha20Xor` の繰り返しは、鍵の流れとの排他的論理和のほかに、`ow_chacha20_block` へ渡したカウンタの値を
順に記録する。記録は鍵の流れの再利用を述べるために使う。
-/

namespace OwStorage

open Lib

def rotl32 (x : UInt32) (n : UInt32) : UInt32 := (x <<< n) ||| (x >>> (32 - n))

def load32Le (p : List UInt8) (i : Nat) : UInt32 :=
  (p[i]?.getD 0).toUInt32 ||| ((p[i + 1]?.getD 0).toUInt32 <<< 8) |||
    ((p[i + 2]?.getD 0).toUInt32 <<< 16) ||| ((p[i + 3]?.getD 0).toUInt32 <<< 24)

def store32Le (v : UInt32) : List UInt8 :=
  [(v &&& 0xFF).toUInt8, ((v >>> 8) &&& 0xFF).toUInt8, ((v >>> 16) &&& 0xFF).toUInt8,
    ((v >>> 24) &&& 0xFF).toUInt8]

abbrev ChachaState : Type := Vector UInt32 16

def chachaQr (w : ChachaState) (ia ib ic id : Fin 16) : ChachaState :=
  let a := w[ia] + w[ib]
  let d := rotl32 (w[id] ^^^ a) 16
  let c := w[ic] + d
  let b := rotl32 (w[ib] ^^^ c) 12
  let a := a + b
  let d := rotl32 (d ^^^ a) 8
  let c := c + d
  let b := rotl32 (b ^^^ c) 7
  (((w.set ia a).set ib b).set ic c).set id d

def chachaInitState (counter : UInt32) (key nonce : List UInt8) : ChachaState :=
  #v[0x61707865, 0x3320646E, 0x79622D32, 0x6B206574,
    load32Le key 0, load32Le key 4, load32Le key 8, load32Le key 12,
    load32Le key 16, load32Le key 20, load32Le key 24, load32Le key 28,
    counter, load32Le nonce 0, load32Le nonce 4, load32Le nonce 8]

/-- 縦の四つと斜めの四つの変換からなる二重の段。 -/
def chachaRound (w : ChachaState) : ChachaState :=
  let w := chachaQr w 0 4 8 12
  let w := chachaQr w 1 5 9 13
  let w := chachaQr w 2 6 10 14
  let w := chachaQr w 3 7 11 15
  let w := chachaQr w 0 5 10 15
  let w := chachaQr w 1 6 11 12
  let w := chachaQr w 2 7 8 13
  chachaQr w 3 4 9 14

/-- 鍵の流れの 64 バイト。 -/
def owChacha20Block (counter : UInt32) (key nonce : List UInt8) : List UInt8 :=
  let state := chachaInitState counter key nonce
  let work := chachaRound^[10] state
  (Vector.zipWith (· + ·) work state).toList.flatMap store32Le

/-- `while (pos < len)` の繰り返し。残りのデータと、使ったカウンタの記録を返す。 -/
def chachaXorLoop (key nonce : List UInt8) : Nat → UInt32 → List UInt8 → List UInt8 × List UInt32
  | 0, _, data => (data, [])
  | n + 1, counter, data =>
      if data = [] then ([], [])
      else
        let chunk := List.zipWith (· ^^^ ·) (data.take 64) (owChacha20Block counter key nonce)
        let rest := chachaXorLoop key nonce n (counter + 1) (data.drop 64)
        (chunk ++ rest.1, counter :: rest.2)

def owChacha20Xor (counter : UInt32) (key nonce data : List UInt8) : List UInt8 :=
  (chachaXorLoop key nonce data.length counter data).1

/-- `owChacha20Xor` が `ow_chacha20_block` へ渡すカウンタの値。 -/
def owChacha20Counters (counter : UInt32) (key nonce data : List UInt8) : List UInt32 :=
  (chachaXorLoop key nonce data.length counter data).2

end OwStorage
