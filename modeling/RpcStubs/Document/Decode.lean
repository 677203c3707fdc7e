import RpcStubs.Document.Basic
import RpcStubs.Document.Spelled
namespace RpcStubs.Document

open Data

/-!
# Documents from data trees

Reading a document from a data tree of the right shape. The kind of a schema follows from
the fields that it declares.
-/

/-- The entries of a map; other trees have none. -/
def entriesOf : Node → Entries
  | .map entries => entries
  | _ => []

/-- The entries of a field that is a map. -/
def entriesUnder (name : String) (entries : Entries) : Entries :=
  match Node.valueOf? name entries with
  | some value => entriesOf value
  | none => []

/-- A map as a reference to a component, or as what it holds in place. -/
def refOf {α : Type} (read : Entries → α) (node : Node) : Ref α :=
  match targetOf? (entriesOf node) with
  | some target => .reference target
  | none => .inline (read (entriesOf node))

/-- The entries with text keys as a catalog. -/
def catalogOf {α : Type} (read : Node → α) (entries : Entries) : Catalog String α :=
  Catalog.ofList (entries.filterMap fun entry =>
    entry.1.text?.map fun name => (name, read entry.2))

/-- What a schema declares under the fields that hold schemas. -/
inductive Part
  | properties (members : List (String × Ref Schema))
  | items (member : Ref Schema)
  | additional (member : Ref Schema)
  | negation (member : Ref Schema)
  | members (how : Combination) (members : List (Ref Schema))

/-- The properties among the parts of a schema. -/
def propertiesIn (parts : List Part) : List (String × Ref Schema) :=
  parts.flatMap fun
    | .properties members => members
    | _ => []

/-- The schema of the items among the parts of a schema. -/
def itemsIn (parts : List Part) : Option (Ref Schema) :=
  parts.findSome? fun
    | .items member => some member
    | _ => none

/-- The schema of additional properties among the parts of a schema. -/
def additionalIn (parts : List Part) : Option (Ref Schema) :=
  parts.findSome? fun
    | .additional member => some member
    | _ => none

/-- The negated schema among the parts of a schema. -/
def negationIn (parts : List Part) : Option (Ref Schema) :=
  parts.findSome? fun
    | .negation member => some member
    | _ => none

/-- The members of one combination among the parts of a schema. -/
def membersIn (how : Combination) (parts : List Part) : List (Ref Schema) :=
  parts.flatMap fun
    | .members kind members => if kind = how then members else []
    | _ => []

/-- The fields on which the kind of a schema depends. -/
def kindFields : List String := [
  "type", "pattern", "multipleOf", "exclusiveMinimum", "exclusiveMaximum", "minimum",
  "maximum", "properties", "required", "additionalProperties", "minProperties",
  "maxProperties", "items", "minItems", "maxItems", "uniqueItems", "enum", "format",
  "minLength", "maxLength", "oneOf", "allOf", "anyOf", "not"]

/-- Whether a value says nothing: null, or a list or map without members. -/
def isVoid : Node → Bool
  | .scalar .null _ => true
  | .list [] => true
  | .map [] => true
  | _ => false

/-- The fields that count as declared only with members in them. -/
def memberFields : List String := ["properties", "required", "enum", "oneOf", "allOf", "anyOf"]

/-- Whether a field of a schema, given its value, counts as declared. -/
def counts (name : String) (value : Node) : Bool :=
  kindFields.contains name && !value.isNull && !(memberFields.contains name && isVoid value)

/-- The fields that a schema declares and on which its kind depends. -/
def declaredFields (entries : Entries) : List String :=
  entries.filterMap fun entry =>
    match entry.1.text? with
    | some name => if counts name entry.2 then some name else none
    | none => none

/-- Whether a schema declares no field besides some. -/
def declaresOnly (allowed : List String) (entries : Entries) : Bool :=
  (declaredFields entries).all allowed.contains

/-- Whether a value is null or a scalar that passes a test. -/
def isNullOr (test : Scalar → Bool) : Node → Bool
  | .scalar .null _ => true
  | .scalar scalar _ => test scalar
  | _ => false

/-- Whether every value of an enumeration is null or passes a test. -/
def enumerates (test : Scalar → Bool) (entries : Entries) : Bool :=
  match Node.valueOf? "enum" entries with
  | some (.list values) => values.all (isNullOr test)
  | _ => true

/-- Whether a scalar is a number. -/
def isNumber : Scalar → Bool
  | .integer _ => true
  | .decimal _ => true
  | _ => false

/-- Whether a scalar is a number without fraction. -/
def isWholeNumber : Scalar → Bool
  | .integer _ => true
  | .decimal isWhole => isWhole
  | _ => false

/-- Whether a scalar is a signed integer of 64 bits. -/
def isInteger : Scalar → Bool
  | .integer value => -Int.pow 2 63 ≤ value && value < Int.pow 2 63
  | _ => false

/-- Whether a scalar is text. -/
def isText : Scalar → Bool
  | .text _ => true
  | _ => false

/-- Whether a scalar is a truth value. -/
def isFlag : Scalar → Bool
  | .boolean _ => true
  | _ => false

/-- Whether the bounds that a schema declares are whole numbers. -/
def hasWholeBounds (entries : Entries) : Bool :=
  ["multipleOf", "minimum", "maximum"].all fun name =>
    match Node.valueOf? name entries with
    | some value => isNullOr isWholeNumber value
    | none => true

/-- The fields that a schema for numbers may declare. -/
def numberFields : List String := [
  "type", "multipleOf", "exclusiveMinimum", "exclusiveMaximum", "minimum", "maximum", "enum",
  "format"]

/-- The schema for plain values that a type name and the other fields make. -/
def valueType? (name : String) (entries : Entries) : Option ValueType :=
  match name with
  | "string" =>
      if declaresOnly ["type", "pattern", "enum", "format", "minLength", "maxLength"] entries &&
          enumerates isText entries then
        some .string
      else
        none
  | "number" =>
      if declaresOnly numberFields entries && enumerates isNumber entries then
        some .number
      else
        none
  | "integer" =>
      if declaresOnly numberFields entries && enumerates isInteger entries &&
          hasWholeBounds entries then
        some .integer
      else
        none
  | "boolean" =>
      if declaresOnly ["type", "enum"] entries && enumerates isFlag entries then
        some .boolean
      else
        none
  | _ => none

/-- The schema of kind `any` with every schema in it. -/
def anySchema (type : Option String) (parts : List Part) : Schema :=
  .any type (propertiesIn parts) (itemsIn parts)
    ((additionalIn parts).toList ++ membersIn .oneOf parts ++ membersIn .allOf parts ++
      membersIn .anyOf parts ++ (negationIn parts).toList)

/-- The schema that the entries of a map declare, given its parts. -/
def assemble (entries : Entries) (parts : List Part) : Schema :=
  match textOf "type" entries with
  | some "object" =>
      if declaresOnly ["type", "properties", "required", "additionalProperties",
          "minProperties", "maxProperties"] entries then
        .object (propertiesIn parts) (additionalIn parts)
      else
        anySchema (some "object") parts
  | some "array" =>
      if declaresOnly ["type", "items", "minItems", "maxItems", "uniqueItems"] entries then
        .array (itemsIn parts)
      else
        anySchema (some "array") parts
  | some name =>
      match valueType? name entries with
      | some type => .value type
      | none => anySchema (some name) parts
  | none =>
      match declaredFields entries with
      | ["oneOf"] => .combination .oneOf (membersIn .oneOf parts)
      | ["allOf"] => .combination .allOf (membersIn .allOf parts)
      | ["anyOf"] => .combination .anyOf (membersIn .anyOf parts)
      | ["not"] =>
          match negationIn parts with
          | some member => .negation member
          | none => anySchema none parts
      | _ => anySchema none parts

mutual

/-- The schema or reference that a tree is. -/
def schemaRef : Node → Ref Schema
  | .map entries =>
      match targetOf? entries with
      | some target => .reference target
      | none => .inline (assemble entries (partsOf entries))
  | _ => .inline (assemble [] [])

/-- What the entries of a schema declare under the fields that hold schemas. -/
def partsOf : List (Node × Node) → List Part
  | [] => []
  | (key, value) :: rest =>
      match key.text? with
      | some "properties" => .properties (propertiesOf value) :: partsOf rest
      | some "items" => partOf .items value ++ partsOf rest
      | some "additionalProperties" => partOf .additional value ++ partsOf rest
      | some "not" => partOf .negation value ++ partsOf rest
      | some "oneOf" => .members .oneOf (membersOf value) :: partsOf rest
      | some "allOf" => .members .allOf (membersOf value) :: partsOf rest
      | some "anyOf" => .members .anyOf (membersOf value) :: partsOf rest
      | _ => partsOf rest

/-- The part that a single schema makes, when the value is one. -/
def partOf (make : Ref Schema → Part) : Node → List Part
  | .map entries => [make (
      match targetOf? entries with
      | some target => .reference target
      | none => .inline (assemble entries (partsOf entries)))]
  | _ => []

/-- The named schemas of a map, a repeated name keeping its place. -/
def propertiesOf : Node → List (String × Ref Schema)
  | .map entries => (namedSchemas entries).foldl
      (fun members entry => Catalog.declareIn entry.1 entry.2 members) []
  | _ => []

/-- The schemas under the text keys of some entries. -/
def namedSchemas : List (Node × Node) → List (String × Ref Schema)
  | [] => []
  | (key, value) :: rest =>
      match key.text? with
      | some name => (name, schemaRef value) :: namedSchemas rest
      | none => namedSchemas rest

/-- The schemas of a list. -/
def membersOf : Node → List (Ref Schema)
  | .list items => memberSchemas items
  | _ => []

/-- The schemas that some trees are. -/
def memberSchemas : List Node → List (Ref Schema)
  | [] => []
  | item :: rest => schemaRef item :: memberSchemas rest

end

/-- The schema of a media type, when it has one. -/
def mediaSchema (node : Node) : Option (Ref Schema) :=
  match node.field? "schema" with
  | some value => if value.isNull then none else some (schemaRef value)
  | none => none

/-- The content of a request body or a response. -/
def payloadOf (entries : Entries) : Payload :=
  { content := catalogOf mediaSchema (entriesUnder "content" entries) }

/-- The status that a key of a map of responses is. -/
def statusOf? : Node → Option Status
  | .scalar (.integer number) _ => (codeOf? number).map .code
  | .scalar (.text text) _ =>
      match codeText? text.toList with
      | some number => some (.code number)
      | none => (rangeOf? text.toList).map .range
  | _ => none

/-- The call that the entries of an operation declare. -/
def callOf (entries : Entries) : Call :=
  { summary := textOf "summary" entries
    description := textOf "description" entries
    requestBody :=
      match Node.valueOf? "requestBody" entries with
      | some value => if value.isNull then none else some (refOf payloadOf value)
      | none => none
    responses := Catalog.ofList ((entriesUnder "responses" entries).filterMap fun entry =>
      (statusOf? entry.1).map fun status => (status, refOf payloadOf entry.2)) }

/-- The name of the field that holds the call of a verb. -/
def Verb.field : Verb → String
  | .get => "get"
  | .put => "put"
  | .delete => "delete"
  | .patch => "patch"
  | .head => "head"
  | .options => "options"
  | .trace => "trace"

/-- Every verb besides `POST`, in the order of reports. -/
def otherVerbs : List Verb := [.get, .put, .delete, .patch, .head, .options, .trace]

/-- Whether a field is there and not null. -/
def declares (name : String) (entries : Entries) : Bool :=
  match Node.valueOf? name entries with
  | some value => !value.isNull
  | none => false

/-- The path item that some entries declare. -/
def pathItemOf (entries : Entries) : PathItem :=
  { post :=
      if declares "post" entries then some (callOf (entriesUnder "post" entries)) else none
    others := otherVerbs.filter fun verb => declares (Verb.field verb) entries }

/-- The components that some entries declare. -/
def componentsOf (entries : Entries) : Components :=
  { schemas := catalogOf schemaRef (entriesUnder "schemas" entries)
    requestBodies := catalogOf (refOf payloadOf) (entriesUnder "requestBodies" entries)
    responses := catalogOf (refOf payloadOf) (entriesUnder "responses" entries) }

/-- Whether a text is a path, which starts with a slash. -/
def isPath (name : String) : Bool :=
  "/".toList.isPrefixOf name.toList

/-- The document that a settled tree is. -/
def ofSettled (node : Node) : Document :=
  let entries := entriesOf node
  let info := entriesUnder "info" entries
  let paths := (entriesUnder "paths" entries).filter fun entry =>
    (entry.1.text?.map isPath).getD false
  { openapi := (textOf "openapi" entries).getD ""
    title := (textOf "title" info).getD ""
    version := (textOf "version" info).getD ""
    paths := catalogOf (refOf pathItemOf) paths
    components := componentsOf (entriesUnder "components" entries) }

/-- The document that a data tree is, when it has the shape of one. -/
def ofNode? (node : Node) : Option Document :=
  (settled? node).map ofSettled

end RpcStubs.Document
