namespace RpcStubs

/-!
# Package names

Which names the generated package may have, and what is wrong with the others.
-/

/-- What is wrong with a package name. -/
inductive PackageFault
  | empty
  | malformed (name : String)
  | reserved (name : String)
  | keyword (name : String)
deriving Repr, DecidableEq

/-- The fault in words. -/
def PackageFault.message : PackageFault → String
  | .empty => "Package name cannot be empty"
  | .malformed name =>
      s!"Package name '{name}' must be a bare identifier (letters, digits, underscores)"
  | .reserved name => s!"Package name '{name}' is reserved for the program entry point"
  | .keyword name => s!"Package name '{name}' is a language keyword"

namespace Package

/-- The words that the generated language keeps for itself. -/
def keywords : List String := [
  "break", "case", "chan", "const", "continue", "default", "defer", "else", "fallthrough",
  "for", "func", "go", "goto", "if", "import", "interface", "map", "package", "range",
  "return", "select", "struct", "switch", "type", "var"]

/-- Whether a name is a letter or underscore followed by letters, digits and underscores. -/
def isBareIdentifier : List Char → Bool
  | [] => false
  | first :: rest =>
      (first.isAlpha || first == '_') &&
        rest.all fun character => character.isAlphanum || character == '_'

/-- The first fault of a package name; `reserved` is the name kept for entry points. -/
def fault? (name reserved : String) : Option PackageFault :=
  if name = "" then
    some .empty
  else if !isBareIdentifier name.toList then
    some (.malformed name)
  else if name = reserved then
    some (.reserved name)
  else if keywords.contains name then
    some (.keyword name)
  else
    none

end Package

end RpcStubs
