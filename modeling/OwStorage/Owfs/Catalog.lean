import OwStorage.Owfs.InodeTable

/-!
# カタログ（`owfs_catalog.c`）
-/

namespace OwStorage.Owfs

open Lib

/-- `owfs_catalog_entry_t`。256 バイトに詰めて並ぶ。 -/
structure CatalogEntry where
  inodeNumber : UInt32
  entryType : UInt8
  nameLength : UInt8
  name : Bytes 128
  reserved : Bytes 118
  checksum : UInt32
  deriving DecidableEq

namespace CatalogEntry

abbrev Front : Type := UInt32 × UInt8 × UInt8 × Bytes 128 × Bytes 118

def front : Codec Front := .pair .u32 <| .pair .u8 <| .pair .u8 <| .pair (.raw 128) (.raw 118)

def fields : CatalogEntry ≃ Front × UInt32 where
  toFun e := ((e.inodeNumber, e.entryType, e.nameLength, e.name, e.reserved), e.checksum)
  invFun := fun ((a, b, c, d, e), x) => ⟨a, b, c, d, e, x⟩
  left_inv _ := rfl
  right_inv _ := rfl

def codec : Codec CatalogEntry := .iso fields (.pair front .u32)

end CatalogEntry

/-- 隠された inode は、持ち主と特権の主体のほかには見えない。 -/
def inodeHiddenFrom (who : OwIdentity) (n : UInt32) : OwfsM Bool := do
  match ← Prog.attempt (ε := OwfsErr) (inodeRead n) with
  | .error _ => pure false
  | .ok ino => pure (inodeIsHidden ino && ! owSecIsSuperuser who && who.uid != ino.ownerUid.toUInt32)

def catalogEntryComputeChecksum (e : CatalogEntry) : UInt32 :=
  owCrc32cStruct (CatalogEntry.codec.enc e) 0xFC

def catalogEntryVerifyChecksum (e : CatalogEntry) : Bool := e.checksum == catalogEntryComputeChecksum e

def catalogRead (n : UInt32) : OwfsM Inode := do
  let ino ← inodeRead n
  Prog.failIf (ino.entryType &&& entryCatalog = 0) .notCatalog
  pure ino

/-- カタログのブロックの `e` 番目の項目。 -/
@[irreducible] def entryIn (blk : Block) (e : Nat) : CatalogEntry := CatalogEntry.codec.dec (blk.slice (e * 256) 256)

/-- `e` 番目の項目の名前。ソースと同じく、名前の欄の先頭から `name_length` バイトを読む。 -/
def entryName (blk : Block) (e : Nat) : List UInt8 :=
  blk.slice (e * 256 + 6) (entryIn blk e).nameLength.toNat

def putEntry (blk : Block) (e : Nat) (entry : CatalogEntry) : Block :=
  blk.patch (e * 256) (CatalogEntry.codec.enc entry)

def entryLive (entry : CatalogEntry) : Bool :=
  entry.entryType != 0 && entry.entryType &&& entryDeleted == 0

def catalogLookup (who : OwIdentity) (catalogInode : UInt32) (name : Option (List UInt8))
    (nameLen : Nat) : OwfsM UInt32 := do
  Prog.failIf (name.isNone ∨ nameLen = 0) .invalidParam
  Prog.failIf (nameLen ≥ nameMaxBytes) .nameTooLong
  let cinode ← catalogRead catalogInode
  Prog.ofExcept (inodeAccessCheck who cinode accessRead)
  let r ← Prog.loop cinode.blockCount.toNat () fun idx _ => do
    let bnum ← blockmapGet cinode (UInt32.ofNat idx)
    let blk ← readBlk bnum
    let hit ← Prog.loop 16 () fun e _ => do
      let centry := entryIn blk e
      if entryLive centry && catalogEntryVerifyChecksum centry &&
          owSutf8NameCmp (entryName blk e) (nameBytes name nameLen) == 0 then do
        let hidden ← inodeHiddenFrom who centry.inodeNumber
        if hidden then pure (.inl ()) else pure (.inr centry.inodeNumber)
      else pure (.inl ())
    pure hit
  match r with
  | .inr ino => pure ino
  | .inl _ => Prog.throw .notFound

/-- 検査値を付けた新しい項目。 -/
def freshEntry (target : UInt32) (entryType : UInt8) (name : Option (List UInt8)) (nameLen : Nat) :
    CatalogEntry :=
  let e : CatalogEntry :=
    ⟨target, entryType, UInt8.ofNat nameLen, (Bytes.zero 128).patch 0 (nameBytes name nameLen),
      Bytes.zero 118, 0⟩
  { e with checksum := catalogEntryComputeChecksum e }

/-- カタログを一ブロック伸ばして、最初の項目を書く。 -/
def growCatalog (n : UInt32) (entry : CatalogEntry) (ino : Inode) : FileM Unit := do
  let grown ← Prog.attempt (blockmapEnsure ino.blockCount)
  match grown with
  | .error e => Prog.throw (if e = .noFreeBlocks then .catalogFull else e)
  | .ok bnum => do
      onVol (writeBlk bnum (putEntry (Bytes.zero 4096) 0 entry))
      inodeWrite n

def catalogInsert (who : OwIdentity) (catalogInode : UInt32) (name : Option (List UInt8))
    (nameLen : Nat) (targetInode : UInt32) (entryType : UInt8) : OwfsM Unit := do
  Prog.failIf (name.isNone ∨ nameLen = 0) .invalidParam
  Prog.failIf (nameLen ≥ nameMaxBytes) .nameTooLong
  Prog.failIf (entryType ≠ entryFile ∧ entryType ≠ entryCatalog) .invalidParam
  Prog.failIf (! owSutf8Validate (nameBytes name nameLen)) .invalidParam
  let v ← Prog.get
  Prog.ofExcept (volumeWritable v.sb)
  let existing ← Prog.attempt (ε := OwfsErr) (catalogLookup who catalogInode name nameLen)
  Prog.failIf existing.isOk .alreadyExists
  let cinode ← catalogRead catalogInode
  Prog.ofExcept (inodeAccessCheck who cinode accessWrite)
  let entry := freshEntry targetInode entryType name nameLen
  let r ← Prog.loop cinode.blockCount.toNat () fun idx _ => do
    let bnum ← blockmapGet cinode (UInt32.ofNat idx)
    let blk ← readBlk bnum
    match (List.range 16).find? fun e => ! entryLive (entryIn blk e) with
    | some e => do
        writeBlk bnum (putEntry blk e entry)
        pure (.inr ())
    | none => pure (.inl ())
  match r with
  | .inr _ => pure ()
  | .inl _ => do
      -- 空きがないので、カタログを一ブロック伸ばす。
      let _ ← withInode cinode (growCatalog catalogInode entry cinode)
      pure ()

/-- 消した印を付け、検査値を付け直した項目。 -/
def deletedEntry (entry : CatalogEntry) : CatalogEntry :=
  let e := { entry with entryType := entry.entryType ||| entryDeleted }
  { e with checksum := catalogEntryComputeChecksum e }

/-- 項目の検査値は確かめない。 -/
def catalogRemove (who : OwIdentity) (catalogInode : UInt32) (name : Option (List UInt8))
    (nameLen : Nat) : OwfsM Unit := do
  Prog.failIf (name.isNone ∨ nameLen = 0) .invalidParam
  Prog.failIf (nameLen ≥ nameMaxBytes) .nameTooLong
  let v ← Prog.get
  Prog.ofExcept (volumeWritable v.sb)
  let cinode ← catalogRead catalogInode
  Prog.ofExcept (inodeAccessCheck who cinode accessWrite)
  let r ← Prog.loop cinode.blockCount.toNat () fun idx _ => do
    let bnum ← blockmapGet cinode (UInt32.ofNat idx)
    let blk ← readBlk bnum
    match (List.range 16).find? fun e => entryLive (entryIn blk e) &&
        owSutf8NameCmp (entryName blk e) (nameBytes name nameLen) == 0 with
    | some e => do
        let hidden ← inodeHiddenFrom who (entryIn blk e).inodeNumber
        Prog.failIf hidden .notFound
        writeBlk bnum (putEntry blk e (deletedEntry (entryIn blk e)))
        pure (.inr ())
    | none => pure (.inl ())
  match r with
  | .inr _ => pure ()
  | .inl _ => Prog.throw .notFound

/-- 返す並びの長さが `*out_count` である。 -/
def catalogList (who : OwIdentity) (catalogInode maxEntries : UInt32) : OwfsM (List CatalogEntry) := do
  Prog.failIf (maxEntries = 0) .invalidParam
  let cinode ← catalogRead catalogInode
  Prog.ofExcept (inodeAccessCheck who cinode accessRead)
  let r ← Prog.loop (γ := Empty) cinode.blockCount.toNat ([] : List CatalogEntry) fun idx acc => do
    let bnum ← blockmapGet cinode (UInt32.ofNat idx)
    let blk ← readBlk bnum
    Prog.loop (γ := Empty) 16 acc fun e acc => do
      let centry := entryIn blk e
      if entryLive centry && catalogEntryVerifyChecksum centry then do
        let hidden ← inodeHiddenFrom who centry.inodeNumber
        if ! hidden && decide (acc.length < maxEntries.toNat) then pure (.inl (acc ++ [centry]))
        else pure (.inl acc)
      else pure (.inl acc)
  match r with
  | .inl entries => pure entries

/-- inode を作り、親のカタログに登録する。登録できなければ inode を返す。 -/
def catalogMake (who : OwIdentity) (entryType : UInt8) (parent : UInt32) (name : Option (List UInt8))
    (nameLen : Nat) : OwfsM UInt32 := do
  let ino ← inodeAlloc who entryType name nameLen parent
  match ← Prog.attempt (catalogInsert who parent name nameLen ino entryType) with
  | .ok _ => pure ino
  | .error e => do
      let _ ← Prog.attempt (ε := OwfsErr) (inodeFree who ino)
      Prog.throw e

def catalogCreate (who : OwIdentity) (parent : UInt32) (name : Option (List UInt8)) (nameLen : Nat) :
    OwfsM UInt32 := catalogMake who entryFile parent name nameLen

def catalogMkdir (who : OwIdentity) (parent : UInt32) (name : Option (List UInt8)) (nameLen : Nat) :
    OwfsM UInt32 := catalogMake who entryCatalog parent name nameLen

end OwStorage.Owfs
