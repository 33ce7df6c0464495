import OwStorage.Usfs.Bitmap
import OwStorage.Common.Sec
import OwStorage.Common.String

/-!
# 項目の表（`usfs_entry.c`）
-/

namespace OwStorage.Usfs

open Lib

/-- `usfs_entry_t`。256 バイトに詰めて並ぶ。データは `firstBlock` から連続して並ぶ。 -/
structure Entry where
  entryIndex : UInt32
  entryType : UInt8
  nameLength : UInt8
  securityFlags : UInt8
  reserved1 : UInt8
  permissions : UInt16
  flags : UInt16
  sizeBytes : UInt32
  firstBlock : UInt32
  blockCount : UInt32
  parentEntry : UInt32
  createdTimestamp : UInt32
  modifiedTimestamp : UInt32
  name : Bytes 128
  ownerUid : UInt16
  ownerGid : UInt16
  reserved : Bytes 84
  checksum : UInt32
  deriving DecidableEq

namespace Entry

/-- 検査値の欄より前の 0xFC バイト。 -/
abbrev Front : Type :=
  UInt32 × UInt8 × UInt8 × UInt8 × UInt8 × UInt16 × UInt16 × UInt32 × UInt32 × UInt32 × UInt32 ×
    UInt32 × UInt32 × Bytes 128 × UInt16 × UInt16 × Bytes 84

def front : Codec Front :=
  .pair .u32 <| .pair .u8 <| .pair .u8 <| .pair .u8 <| .pair .u8 <| .pair .u16 <| .pair .u16 <|
  .pair .u32 <| .pair .u32 <| .pair .u32 <| .pair .u32 <| .pair .u32 <| .pair .u32 <|
  .pair (.raw 128) <| .pair .u16 <| .pair .u16 (.raw 84)

def fields : Entry ≃ Front × UInt32 where
  toFun e :=
    ((e.entryIndex, e.entryType, e.nameLength, e.securityFlags, e.reserved1, e.permissions, e.flags,
      e.sizeBytes, e.firstBlock, e.blockCount, e.parentEntry, e.createdTimestamp, e.modifiedTimestamp,
      e.name, e.ownerUid, e.ownerGid, e.reserved), e.checksum)
  invFun := fun ((a, b, c, d, e, f, g, h, i, j, k, l, m, n, o, p, q), x) =>
    ⟨a, b, c, d, e, f, g, h, i, j, k, l, m, n, o, p, q, x⟩
  left_inv _ := rfl
  right_inv _ := rfl

def codec : Codec Entry := .iso fields (.pair front .u32)

/-- `memset(&entry, 0, sizeof entry)` の結果。 -/
def zero : Entry :=
  ⟨0, 0, 0, 0, 0, 0, 0, 0, 0, 0, 0, 0, 0, Bytes.zero 128, 0, 0, Bytes.zero 84, 0⟩

/-- 名前。ソースと同じく、名前の欄の先頭から `name_length` バイトを読む。 -/
def nameField (e : Entry) : List UInt8 := ((codec.enc e).drop 0x24).take e.nameLength.toNat

end Entry

def entryIsHidden (e : Entry) : Bool := e.securityFlags.toUInt32 &&& secHidden != 0

def entryCheckAccess (who : OwIdentity) (e : Entry) (want : UInt8) : Except UsfsErr Unit :=
  if e.entryType = 0 then .error .notFound
  else if ! owSecAccess who e.permissions e.ownerUid e.ownerGid want then .error .accessDenied
  else .ok ()

def entryComputeChecksum (e : Entry) : UInt32 := owCrc32cStruct (Entry.codec.enc e) 0xFC

def entryVerifyChecksum (e : Entry) : Bool := e.checksum == entryComputeChecksum e

def entryBlockOffset (sb : Superblock) (idx : UInt32) : UInt32 := sb.entryTableStart + (idx >>> 4)

def entrySlotIndex (idx : UInt32) : UInt32 := idx &&& 0x0F

/-- 表のブロック `blk` の中の、項目 `idx` の記録。 -/
@[irreducible] def entryIn (blk : Block) (idx : UInt32) : Entry :=
  Entry.codec.dec (blk.slice ((entrySlotIndex idx).toNat * 256) 256)

def entryRead (idx : UInt32) : UsfsM Entry := do
  let v ← Prog.get
  Prog.failIf (idx ≥ v.sb.totalEntries) .notFound
  let blk ← readBlk (entryBlockOffset v.sb idx)
  let e := entryIn blk idx
  Prog.failIf (e.entryType ≠ 0 ∧ ! entryVerifyChecksum e) .checksumMismatch
  pure e

/-- ボリュームと、呼び出し側の持つ項目。関数が書き換えた項目は、誤りを返すときも残る。 -/
structure EntryState where
  vol : Vol
  entry : Entry

def EntryState.volLens : Lens EntryState Vol where
  get s := s.vol
  set v s := { s with vol := v }
  get_set _ _ := rfl
  set_get _ := rfl
  set_set _ _ _ := rfl

abbrev EntryM (α : Type) : Type := Prog EntryState UsfsErr α

def onVol {α : Type} (p : UsfsM α) : EntryM α := Prog.within EntryState.volLens id p

def modifyEntry (f : Entry → Entry) : EntryM Unit := Prog.modify fun s => { s with entry := f s.entry }

/-- 局所変数の項目 `e` で `p` を行い、結果と書き換えた項目を返す。 -/
def withEntry {α : Type} (e : Entry) (p : EntryM α) : UsfsM (α × Entry) := fun v =>
  match p ⟨v, e⟩ with
  | (.ok a, s) => (.ok (a, s.entry), s.vol)
  | (.error err, s) => (.error err, s.vol)

def entryWrite (idx : UInt32) : EntryM Unit := do
  let s ← Prog.get
  Prog.failIf (idx ≥ s.vol.sb.totalEntries) .notFound
  Prog.ofExcept (volumeWritable s.vol.sb)
  let blockNum := entryBlockOffset s.vol.sb idx
  let blk ← onVol (readBlk blockNum)
  modifyEntry fun e => { e with checksum := entryComputeChecksum e }
  let s ← Prog.get
  onVol (writeBlk blockNum (blk.patch ((entrySlotIndex idx).toNat * 256) (Entry.codec.enc s.entry)))

def defaultModeFor (entryType : UInt8) : Except UsfsErr UInt16 :=
  if entryType = entryCatalog then .ok modeDefaultDir
  else if entryType = entryFile then .ok modeDefaultFile
  else .error .invalidParam

/-- 名前の引数。`none` は空のポインタで、長さは別に渡す。 -/
def nameBytes (name : Option (List UInt8)) (nameLen : Nat) : List UInt8 := (name.getD []).take nameLen

/-- スロット `chosen` に作る新しい項目。 -/
def freshEntry (who : OwIdentity) (sb : Superblock) (chosen : UInt32) (entryType : UInt8) (mode : UInt16)
    (name : Option (List UInt8)) (nameLen : Nat) (parent : UInt32) : Entry :=
  { Entry.zero with
    entryIndex := chosen
    entryType := entryType
    permissions := mode
    ownerUid := who.uid.toUInt16
    ownerGid := who.gid.toUInt16
    parentEntry := parent
    nameLength := UInt8.ofNat nameLen
    securityFlags := if sb.securityFlags &&& secEncrypted ≠ 0 then secEncrypted.toUInt8 else 0
    name := (owSutf8NameCopy (Bytes.zero 128) (nameBytes name nameLen)).1 }

/-- 最初の空きスロット。検査値の合わないスロットは飛ばす。 -/
def findSlot : UsfsM UInt32 := do
  let v ← Prog.get
  let r ← Prog.loop v.sb.totalEntries.toNat () fun i _ => do
    match ← Prog.attempt (entryRead (UInt32.ofNat i)) with
    | .ok temp =>
        if temp.entryType == 0 || temp.entryType &&& entryDeleted != 0 then pure (.inr (UInt32.ofNat i))
        else pure (.inl ())
    | .error .checksumMismatch => pure (.inl ())
    | .error e => Prog.throw e
  match r with
  | .inr chosen => pure chosen
  | .inl _ => Prog.throw .noFreeEntries

/-- カタログには 0 で埋めたブロックを一つ持たせる。 -/
def allocCatalogBlock : UsfsM UInt32 := do
  let first ← blockAlloc 1
  match ← Prog.attempt (writeBlk first (Bytes.zero 4096)) with
  | .ok _ => pure first
  | .error e => do
      let _ ← Prog.attempt (ε := UsfsErr) (blockFree first 1)
      Prog.throw e

/-- 新しい項目を書く。書けなければ、持たせたブロックを返す。 -/
def storeFresh (chosen : UInt32) (temp : Entry) : UsfsM UInt32 := do
  match ← Prog.attempt (withEntry temp (entryWrite chosen)) with
  | .ok _ => do
      modifySb fun sb => { sb with usedEntries := sb.usedEntries + 1 }
      pure chosen
  | .error e => do
      if temp.blockCount > 0 then do
        let _ ← Prog.attempt (ε := UsfsErr) (blockFree temp.firstBlock temp.blockCount)
        Prog.throw e
      else Prog.throw e

def entryAlloc (who : OwIdentity) (entryType : UInt8) (name : Option (List UInt8)) (nameLen : Nat)
    (parent : UInt32) : UsfsM UInt32 := do
  Prog.failIf name.isNone .invalidParam
  Prog.failIf (entryType ≠ entryFile ∧ entryType ≠ entryCatalog) .invalidParam
  Prog.failIf (nameLen = 0 ∨ nameLen ≥ nameMaxBytes) .nameTooLong
  Prog.failIf (! owSutf8Validate (nameBytes name nameLen)) .invalidParam
  let v ← Prog.get
  Prog.failIf (v.sb.usedEntries ≥ v.sb.totalEntries) .noFreeEntries
  Prog.ofExcept (volumeWritable v.sb)
  -- 根の項目がまだないときだけ、親の権限を調べない。
  Prog.whenever (parent ≠ 0 ∨ v.sb.usedEntries > 0) do
    let parentEntry ← entryRead parent
    Prog.failIf (parentEntry.entryType = 0) .notFound
    Prog.ofExcept (entryCheckAccess who parentEntry accessWrite)
  let mode ← Prog.ofExcept (defaultModeFor entryType)
  let chosen ← findSlot
  let temp := freshEntry who v.sb chosen entryType mode name nameLen parent
  if entryType = entryCatalog then do
    let first ← allocCatalogBlock
    storeFresh chosen { temp with firstBlock := first, blockCount := 1 }
  else storeFresh chosen temp

/-- 消した項目。ブロックを持っていたときだけ、大きさも消す。 -/
def clearedEntry (e : Entry) : Entry :=
  if e.blockCount > 0 then
    { e with firstBlock := 0, blockCount := 0, sizeBytes := 0, entryType := entryDeleted }
  else { e with entryType := entryDeleted }

def entryFree (who : OwIdentity) (idx : UInt32) : UsfsM Unit := do
  let v ← Prog.get
  Prog.ofExcept (volumeWritable v.sb)
  let temp ← entryRead idx
  Prog.failIf (temp.entryType = 0) .notFound
  Prog.failIf (temp.securityFlags.toUInt32 &&& secReadonly ≠ 0) .writeProtected
  Prog.ofExcept (entryCheckAccess who temp accessWrite)
  Prog.whenever (temp.blockCount > 0) (blockFree temp.firstBlock temp.blockCount)
  let _ ← withEntry (clearedEntry temp) (entryWrite idx)
  modifySb fun sb => if sb.usedEntries > 0 then { sb with usedEntries := sb.usedEntries - 1 } else sb

def entryLookup (who : OwIdentity) (parentIdx : UInt32) (name : Option (List UInt8)) (nameLen : Nat) :
    UsfsM UInt32 := do
  Prog.failIf (name.isNone ∨ nameLen = 0) .invalidParam
  Prog.failIf (nameLen ≥ nameMaxBytes) .nameTooLong
  let v ← Prog.get
  let r ← Prog.loop v.sb.totalEntries.toNat () fun i _ => do
    match ← Prog.attempt (ε := UsfsErr) (entryRead (UInt32.ofNat i)) with
    | .error _ => pure (.inl ())
    | .ok temp =>
        if temp.entryType != 0 && temp.entryType &&& entryDeleted == 0 && temp.parentEntry == parentIdx &&
            ! (entryIsHidden temp && ! owSecIsSuperuser who && who.uid != temp.ownerUid.toUInt32) &&
            owSutf8NameCmp temp.nameField (nameBytes name nameLen) == 0 then pure (.inr (UInt32.ofNat i))
        else pure (.inl ())
  match r with
  | .inr i => pure i
  | .inl _ => Prog.throw .notFound

end OwStorage.Usfs
