import RpcStubs.Failure
import RpcStubs.Model
namespace RpcStubs

/-!
# Templates

A template is text with fields of the model between double braces.  Statements between braces
and percent signs, comments, and expressions that are not the name of a field are not understood.
-/

/-- A piece of a template. -/
inductive TemplatePiece
  | plain (character : Char)
  | field (name : String)
deriving Repr, DecidableEq

/-- A template as its pieces. -/
abbrev Template := List TemplatePiece

namespace Template

/-- The text before the closing braces of a field, and the text after them. -/
def untilClosed : List Char → Option (List Char × List Char)
  | [] => none
  | '\x7d' :: '\x7d' :: rest => some ([], rest)
  | character :: rest =>
      (untilClosed rest).map fun (inside, after) => (character :: inside, after)

/-- A text is what stands before the braces, the braces, and what stands after them. -/
theorem eq_of_untilClosed
    {text inside after : List Char}
    (closed : untilClosed text = some (inside, after)) :
    text = inside ++ '\x7d' :: '\x7d' :: after := by
  fun_induction untilClosed text generalizing inside after with
  | case1 =>
      cases closed
  | case2 rest =>
      cases closed
      rfl
  | case3 character rest _ inductionHypothesis =>
      simp only [Option.map_eq_some_iff, Prod.mk.injEq, Prod.exists] at closed
      obtain ⟨before, later, found, rfl, rfl⟩ := closed
      rw [inductionHypothesis found, List.cons_append]

/-- What follows a field is shorter than what holds it. -/
theorem length_of_untilClosed
    {text inside after : List Char}
    (closed : untilClosed text = some (inside, after)) :
    after.length < text.length := by
  rw [eq_of_untilClosed closed, List.length_append, List.length_cons, List.length_cons]
  omega

/-- The characters that may stand around the name of a field. -/
def isGap (character : Char) : Bool :=
  character == ' ' || character == '\t' || character == '\r' || character == '\n'

/-- The words that mean something else where the name of a field may stand. -/
def reserved : List String := ["true", "false", "True", "False", "__tera_context"]

/-- Whether a text is the name of a field: an identifier that is not reserved. -/
def isFieldName (name : List Char) : Bool :=
  Package.isBareIdentifier name && !reserved.contains (String.ofList name)

/-- The name of the field between double braces. -/
def fieldName? (inside : List Char) : Option String :=
  let opened := inside.dropWhile isGap
  let name := opened.takeWhile (!isGap ·)
  if isFieldName name && (opened.dropWhile (!isGap ·)).all isGap then
    some (String.ofList name)
  else
    none

/-- The pieces of a template, unless a brace opens what is not closed or not understood. -/
def pieces? (text : List Char) : Option Template :=
  match text with
  | [] => some []
  | '\x7b' :: '%' :: _ => none
  | '\x7b' :: '#' :: _ => none
  | '\x7b' :: '\x7b' :: rest =>
      match found : untilClosed rest with
      | none => none
      | some (inside, after) =>
          have : after.length < rest.length := length_of_untilClosed found
          match fieldName? inside with
          | some name => (pieces? after).map (.field name :: ·)
          | none => none
  | character :: rest => (pieces? rest).map (.plain character :: ·)
termination_by text.length

/-- The template that a text is. -/
def parse? (text : String) : Option Template :=
  pieces? text.toList

/-- Values between square brackets. -/
def listed (values : List String) : String :=
  "[" ++ Text.join ", " values ++ "]"

/-- The value of a field as it is shown, if the model has the field. -/
def value? (model : Model) (name : String) : Option String :=
  match name with
  | "package_name" => some model.package
  | "package_import_path" => some model.packageImport
  | "proto_import_path" => some model.protoImport
  | "proto_package" => some model.protoPackage
  | "proto_path" => some model.protoPath
  | "proto_root" => some model.protoRoot
  | "module_path" => some model.modulePath
  | "output_rel" => some model.outputRelative
  | "operations" => some (listed (model.operations.map fun _ => "[object]"))
  | "list_operations" => some (listed (model.lists.map fun _ => "[object]"))
  | "has_list_operations" => some (toString !model.lists.isEmpty)
  | "page_fetchers" => some (listed (model.fetchers.map fun _ => "[object]"))
  | "messages" => some (listed model.messages)
  | "generated_at" => some model.generatedAt
  | "full_scaffold" => some (toString model.full)
  | _ => none

/-- The text of a template for a model, or the first field that the model does not have. -/
def render (model : Model) : Template → Except String (List Char)
  | [] => .ok []
  | .plain character :: rest => (render model rest).map (character :: ·)
  | .field name :: rest =>
      match value? model name with
      | some value => (render model rest).map (value.toList ++ ·)
      | none => .error name

end Template

end RpcStubs
