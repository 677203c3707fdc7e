import RpcStubs.Text.Pieces
namespace RpcStubs.Files.Path

open Text

/-!
# File paths

A path is text: names between slashes. Joining, the parent and the ancestors keep the text
as it was written. For comparing, a path is read as components: a slash at the start, a
leading `.`, every `..`, and names; empty pieces and other dots do not count.
-/

/-- What a piece of a path means. -/
inductive Component
  | top
  | here
  | up
  | name (text : String)
deriving Repr, DecidableEq

/-- Whether a path starts at the top of the tree. -/
def isAbsolute (path : String) : Bool :=
  "/".toList.isPrefixOf path.toList

/-- Whether a piece between slashes stands for no component. -/
def isIdle (piece : String) : Bool :=
  piece == "" || piece == "."

/-- A piece as a component, when it stands for one. -/
def component? (piece : String) : Option Component :=
  if isIdle piece then
    none
  else if piece = ".." then
    some .up
  else
    some (.name piece)

/-- The pieces of a path between its slashes; the slash at the start is not among them. -/
def piecesOf (path : String) : List String :=
  if isAbsolute path then
    segments '/' (String.ofList (path.toList.drop 1))
  else
    segments '/' path

/-- The components of a path. -/
def components (path : String) : List Component :=
  let inner := (piecesOf path).filterMap component?
  if isAbsolute path then
    .top :: inner
  else if (piecesOf path).head? = some "." then
    .here :: inner
  else
    inner

/--
One path below another one.

An absolute path stands for itself. Otherwise one slash comes between, unless the first
path is empty or ends in one.
-/
def join (base path : String) : String :=
  if isAbsolute path || base = "" then
    path
  else if base.toList.getLast? = some '/' then
    base ++ path
  else
    base ++ "/" ++ path

/-- The text of pieces given last one first. -/
def unwind (absolute : Bool) (reversed : List String) : String :=
  (if absolute then "/" else "") ++ Text.join "/" reversed.reverse

/-- The pieces, last one first, without the idle ones in front; a leading dot counts. -/
def dropIdle (absolute : Bool) : List String → List String
  | [] => []
  | [first] =>
      if first = "" || (absolute && first = ".") then
        []
      else
        [first]
  | piece :: earlier =>
      if isIdle piece then
        dropIdle absolute earlier
      else
        piece :: earlier

/-- The ancestors of pieces given last one first, without the pieces themselves. -/
def chain (absolute : Bool) : List String → List String
  | [] => []
  | piece :: earlier =>
      let rest := chain absolute earlier
      if isIdle piece && !(earlier.isEmpty && !absolute && piece = ".") then
        rest
      else
        unwind absolute (dropIdle absolute earlier) :: rest

/-- The paths above a path, innermost first. -/
def parents (path : String) : List String :=
  chain (isAbsolute path) (piecesOf path).reverse

/-- The path and the paths above it, innermost first. -/
def ancestors (path : String) : List String :=
  path :: parents path

/-- The path of the directory that holds a path. -/
def parent? (path : String) : Option String :=
  (parents path).head?

/-- The last name of a path, unless it ends in `..` or has none. -/
def fileName? (path : String) : Option String :=
  match (components path).getLast? with
  | some (.name text) => some text
  | _ => none

/-- What follows the last dot of the file name, unless that dot is its first character. -/
def extension? (path : String) : Option String :=
  match fileName? path with
  | none => none
  | some name =>
      match cutLast '.' name.toList with
      | some (_ :: _, after) => some (String.ofList after)
      | _ => none

/-- Pieces without the idle ones at the start. -/
def skipIdle : List String → List String :=
  List.dropWhile isIdle

/-- The pieces that are left when a number of components is taken from the front. -/
def skipComponents : Nat → List String → List String
  | 0, pieces => skipIdle pieces
  | count + 1, pieces =>
      match skipIdle pieces with
      | [] => []
      | _ :: rest => skipComponents count rest

/-- What a path adds to a base that its components start with. -/
def remainder? (base path : String) : Option String :=
  let shared := components base
  if shared.isPrefixOf (components path) then
    match shared with
    | [] => some (unwind (isAbsolute path) (dropIdle (isAbsolute path) (piecesOf path).reverse))
    | first :: others =>
        let inner := match first with
          | .top => skipComponents others.length (piecesOf path)
          | .here => skipComponents others.length (piecesOf path).tail
          | _ => skipComponents (others.length + 1) (piecesOf path)
        some (unwind false (inner.reverse.dropWhile isIdle))
  else
    none

end RpcStubs.Files.Path
