import RpcStubs.Document.Shape
namespace RpcStubs.Document

open Data

/-!
# Spelled values

Near its top a document takes scalars by their spelling: `version: 1.0` is the text `1.0`.
Further down, in paths and in components, values count as what they are. `settle` turns a
data tree into one in which every value counts as what it is.
-/

/-- Whether values of a shape count as what they are, with everything below them. -/
def Shape.isTyped : Shape → Bool
  | .slot _ => true
  | .flagOrSlot _ => true
  | .value => true
  | .object .paths => true
  | _ => false

/-- A scalar as the text that it is spelled with. -/
def spelled : Node → Node
  | .scalar _ (some spelling) => .ofText spelling
  | .tagged content => spelled content
  | other => other

/-- What stands for an empty spelling where a list or an object is asked for. -/
def emptyOf : Shape → Option Node
  | .list _ => some (.list [])
  | .map _ => some (.map [])
  | .object _ => some (.map [])
  | _ => none

/-- A scalar settled for a shape. -/
def settleScalar (shape : Shape) (value : Scalar) (spelling : Option String) : Node :=
  match shape with
  | .text => spelled (.scalar value spelling)
  | _ =>
      if value = .null && spelling = some "" then
        (emptyOf shape).getD (.scalar value spelling)
      else
        .scalar value spelling

/-- A tree that counts as what it is, when it is plain. -/
def plainOnly (node : Node) : Option Node :=
  if isPlain node then some node else none

mutual

/-- A tree with the spellings in place of the scalars where a shape asks for text. -/
def settle (shape : Shape) : Node → Option Node
  | .tagged content =>
      if shape.isTyped then none else settle shape content
  | .scalar value spelling =>
      if shape.isTyped then
        match shape with
        | .object _ => plainOnly (settleScalar shape value spelling)
        | _ => plainOnly (.scalar value spelling)
      else
        some (settleScalar shape value spelling)
  | .list items =>
      if shape.isTyped then
        plainOnly (.list items)
      else
        match shape with
        | .list item => (settleItems item items).map .list
        | _ => some (.list items)
  | .map entries =>
      if shape.isTyped then
        plainOnly (.map entries)
      else
        match shape with
        | .map item => (settleValues item entries).map .map
        | .object kind => (settleFields kind.fields entries).map .map
        | _ => some (.map entries)

/-- Every item settled for one shape. -/
def settleItems (shape : Shape) : List Node → Option (List Node)
  | [] => some []
  | item :: rest => do
      let settled ← settle shape item
      let others ← settleItems shape rest
      return settled :: others

/-- Every value settled for one shape, under its key as it is spelled. -/
def settleValues (shape : Shape) : List (Node × Node) → Option (List (Node × Node))
  | [] => some []
  | (key, value) :: rest => do
      let settled ← settle shape value
      let others ← settleValues shape rest
      return (spelled key, settled) :: others

/-- Every value settled for the field that its key names. -/
def settleFields (fields : List Field) : List (Node × Node) → Option (List (Node × Node))
  | [] => some []
  | (key, value) :: rest => do
      let name := spelled key
      let settled ← match fields.find? fun field => name.text? = some field.name with
        | some field =>
            if field.presence = .optional && value.isNull then
              some value
            else
              settle field.shape value
        | none => plainOnly value
      let others ← settleFields fields rest
      return (name, settled) :: others

end

/-- The data tree of a document in which every value counts as what it is. -/
def settled? (node : Node) : Option Node :=
  match settle (.object .document) node with
  | some tree => if accepts (.object .document) tree then some tree else none
  | none => none

end RpcStubs.Document
