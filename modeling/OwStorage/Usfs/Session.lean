import OwStorage.Usfs.Run
import OwStorage.Usfs.Sync

/-!
# 開いたボリュームの上の呼び出しの列

項目への操作に、マウントと同期と検査の呼び出しを交える。
-/

namespace OwStorage.Usfs

open Lib

/-- 誤りの数を捨てた検査。 -/
def runCheck : UsfsM Unit := fun v =>
  match consistencyCheck ⟨v, 0⟩ with
  | (r, s) => (r, s.vol)

/-- アンマウントして、別のスーパーブロックの変数 `sb` にマウントし直す。 -/
def remount (sb : Superblock) : UsfsM Unit := do
  unmount
  modifySb fun _ => sb
  mount

/-- 開いたボリュームの利用者の呼び出し。`secure` は、利用者が `security_flags` の欄を直接書き換えることを表す。 -/
inductive SessionOp where
  | entry (op : EntryOp)
  | secure (flags : UInt32)
  | sign
  | markDirty
  | markClean
  | flushDirty
  | check
  | remount (sb : Superblock)

def SessionOp.run : SessionOp → UsfsM Unit
  | entry op => op.run
  | secure flags => modifySb fun sb => { sb with securityFlags := flags }
  | sign => signatureUpdate
  | markDirty => Usfs.markDirty
  | markClean => Usfs.markClean
  | flushDirty => Usfs.flushDirty
  | check => runCheck
  | remount sb => Usfs.remount sb

/-- 項目への操作は、読み直した項目を渡す。 -/
def SessionOp.FreshlyRead (v : Vol) : SessionOp → Prop
  | entry op => op.FreshlyRead v
  | _ => True

end OwStorage.Usfs
