import RpcStubs.Route
namespace RpcStubs.ImportPath

open Text

/-!
# Import paths and namespaces

Joining the elements of an import path, and deriving the message namespace from the
place of the message file.
-/

/-- The text without slashes at either end. -/
def trimSlashes (text : List Char) : List Char :=
  ((text.dropWhile (· == '/')).reverse.dropWhile (· == '/')).reverse

/-- The elements with one slash between neighbours; slashes around an element do not count. -/
def join (parts : List String) : String :=
  let trimmed := parts.map fun part => trimSlashes part.toList
  String.ofList (joined ['/'] (trimmed.filter (!·.isEmpty)))

/-- The version that a namespace has when its path names none. -/
def fallbackVersion : String := "v1"

/-- The innermost version directory of a file path. -/
def versionOf (filePath : String) : String :=
  let directories := (pieces (· == '/') filePath.toList).dropLast
  match directories.reverse.find? Route.isVersion with
  | some version => String.ofList version
  | none => fallbackVersion

/-- The namespace of the messages in a file. -/
def namespaceOf (filePath vendor : String) : String :=
  vendor ++ ".api." ++ versionOf filePath

end RpcStubs.ImportPath
