import OwStorage.Lib.Bytes

/-!
# SUTF-8 の文字列（`ow_string.c`）
-/

namespace OwStorage

open Lib

/-- 一文字を読んだ結果。`endOfBuffer` は 0、`malformed` は -1、`char` は読んだバイト数を返すことに当たる。 -/
inductive Decoded where
  | endOfBuffer
  | malformed
  | char (consumed : Nat) (cp : UInt32)
  deriving DecidableEq, Repr

/-- 続きのバイトの印 `10xxxxxx`。 -/
def isCont (b : UInt8) : Bool := b &&& 0xC0 == 0x80

def contBits (b : UInt8) : UInt32 := (b &&& 0x3F).toUInt32

def sutf8DecodeOne (s : List UInt8) : Decoded :=
  match s with
  | [] => .endOfBuffer
  | u0 :: rest =>
      let at' (i : Nat) : UInt8 := rest[i - 1]?.getD 0
      if u0 &&& 0x80 == 0x00 then .char 1 u0.toUInt32
      else if u0 &&& 0xE0 == 0xC0 then
        if s.length < 2 then .malformed
        else if ! isCont (at' 1) then .malformed
        else
          let cp := ((u0 &&& 0x1F).toUInt32 <<< 6) ||| contBits (at' 1)
          if cp < 0x80 then .malformed else .char 2 cp
      else if u0 &&& 0xF0 == 0xE0 then
        if s.length < 3 then .malformed
        else if ! isCont (at' 1) || ! isCont (at' 2) then .malformed
        else
          let cp := ((u0 &&& 0x0F).toUInt32 <<< 12) ||| (contBits (at' 1) <<< 6) ||| contBits (at' 2)
          if cp < 0x800 then .malformed else .char 3 cp
      else if u0 &&& 0xF8 == 0xF0 then
        if s.length < 4 then .malformed
        else if ! isCont (at' 1) || ! isCont (at' 2) || ! isCont (at' 3) then .malformed
        else
          let cp := ((u0 &&& 0x07).toUInt32 <<< 18) ||| (contBits (at' 1) <<< 12) |||
            (contBits (at' 2) <<< 6) ||| contBits (at' 3)
          if cp < 0x10000 || cp > 0x0010FFFF then .malformed else .char 4 cp
      else if u0 &&& 0xFC == 0xF8 then
        if s.length < 5 then .malformed
        else if ! isCont (at' 1) || ! isCont (at' 2) || ! isCont (at' 3) || ! isCont (at' 4) then
          .malformed
        else
          let cp := ((u0 &&& 0x03).toUInt32 <<< 24) ||| (contBits (at' 1) <<< 18) |||
            (contBits (at' 2) <<< 12) ||| (contBits (at' 3) <<< 6) ||| contBits (at' 4)
          if cp < 0x00110000 || cp > 0x03FFFFFF then .malformed else .char 5 cp
      else if u0 &&& 0xFE == 0xFC then
        if s.length < 6 then .malformed
        else if ! isCont (at' 1) || ! isCont (at' 2) || ! isCont (at' 3) || ! isCont (at' 4) ||
            ! isCont (at' 5) then .malformed
        else
          let cp := ((u0 &&& 0x01).toUInt32 <<< 30) ||| (contBits (at' 1) <<< 24) |||
            (contBits (at' 2) <<< 18) ||| (contBits (at' 3) <<< 12) ||| (contBits (at' 4) <<< 6) |||
            contBits (at' 5)
          if cp < 0x04000000 then .malformed
          else if cp ≥ 0x7FFFFFF0 then .malformed
          else .char 6 cp
      else .malformed

/-- `ow_sutf8_validate` の繰り返し。一文字は必ず 1 バイト以上進むので、残りの長さの回数で終わる。 -/
def sutf8ValidateLoop : Nat → List UInt8 → Bool
  | 0, _ => true
  | n + 1, s =>
      if s = [] then true
      else
        match sutf8DecodeOne s with
        | .char k _ => sutf8ValidateLoop n (s.drop k)
        | _ => false

def owSutf8Validate (s : List UInt8) : Bool := sutf8ValidateLoop s.length s

/-- `ow_sutf8_name_cmp` の繰り返し。 -/
def sutf8NameCmpLoop : Nat → List UInt8 → List UInt8 → Int
  | 0, _, _ => 0
  | n + 1, a, b =>
      if a = [] then if b = [] then 0 else -1
      else if b = [] then 1
      else
        match sutf8DecodeOne a, sutf8DecodeOne b with
        | .char na ca, .char nb cb =>
            if ca != cb then if ca < cb then -1 else 1
            else sutf8NameCmpLoop n (a.drop na) (b.drop nb)
        | .char _ _, _ => 1
        | _, _ => -1

def owSutf8NameCmp (a b : List UInt8) : Int := sutf8NameCmpLoop (a.length + b.length + 1) a b

/-- 写したあとの `dest` と、終端の前までの長さ。 -/
def owSutf8NameCopy {n : Nat} (dest : Bytes n) (src : List UInt8) : Bytes n × Nat :=
  if n = 0 then (dest, 0)
  else
    let copyLen := if src.length < n then src.length else n - 1
    ((dest.patch 0 (src.take copyLen)).patch copyLen [0], copyLen)

end OwStorage
