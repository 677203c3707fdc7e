namespace RpcStubs.Data

/-!
# Data trees

What a data file holds once its notation is read: scalars, lists and maps. Maps keep their
entries in written order, repeated keys included.
-/

/-- A value without parts. -/
inductive Scalar
  | null
  | boolean (value : Bool)
  | integer (value : Int)
  | decimal (isWhole : Bool)
  | text (value : String)
deriving Repr, DecidableEq

/--
A data tree.

A scalar may carry the spelling it has in its file; a node may carry a tag that gives it a
type of the file's own.
-/
inductive Node
  | scalar (value : Scalar) (spelling : Option String)
  | list (items : List Node)
  | map (entries : List (Node × Node))
  | tagged (content : Node)
deriving Repr

namespace Node

/-- The text that a node is, spellings of other scalars not counted. -/
def text? : Node → Option String
  | scalar (.text value) _ => some value
  | _ => none

/-- Whether a node is the null scalar. -/
def isNull : Node → Bool
  | scalar .null _ => true
  | _ => false

/-- A text node. -/
def ofText (value : String) : Node :=
  scalar (.text value) none

/-- The value of the first entry with a text key. -/
def valueOf? (name : String) : List (Node × Node) → Option Node
  | [] => none
  | (key, value) :: rest =>
      if key.text? = some name then some value else valueOf? name rest

/-- The value under a text key of a map. -/
def field? (node : Node) (name : String) : Option Node :=
  match node with
  | map entries => valueOf? name entries
  | _ => none

end Node

end RpcStubs.Data
