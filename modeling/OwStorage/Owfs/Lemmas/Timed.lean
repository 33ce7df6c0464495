import OwStorage.Common.Lemmas.Timed
import OwStorage.Owfs.Lemmas.WriteCost

/-!
# ブロックの用意と装置の失敗

割り当てとブロック表の操作は、装置の失敗を、自分の呼び出した範囲でしか見ない。
-/

namespace OwStorage.Owfs

open Lib Prog

/-- ファイルの状態の中の装置。 -/
def FileState.devLens : Lens FileState HtlDevice := FileState.volLens.into Vol.devLens

section

variable {α : Type}

end

end OwStorage.Owfs
