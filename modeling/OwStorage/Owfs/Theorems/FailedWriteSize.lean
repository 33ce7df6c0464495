import OwStorage.Owfs.Lemmas.Timed
import OwStorage.Owfs.Theorems.WriteSpace

/-!
# 失敗した書き込みの残す大きさ

書き込みは、一バイトも書けなかったときにも、大きさを書き始めの位置まで伸ばす。ファイルの終わりより後に書くときだけ、それが見える。
-/

namespace OwStorage.Owfs

open Lib Prog

section

variable {f : UInt32 → Inode} {s s₁ s' : FileState} {v v₂ : Vol} {n offset len w : UInt32} {failure : Option OwfsErr}
  {who : OwIdentity} {buf : List UInt8} {Q : UInt32 → FileState → Prop} {E : OwfsErr → FileState → Prop}

theorem Permits.refault (hok : Permits who s offset len) (g : Nat → Option HtlErr) :
    Permits who (refault FileState.devLens g s) offset len :=
  ⟨hok.file, hok.nonempty, hok.writable, hok.unfenced, hok.fits⟩

end

end OwStorage.Owfs
