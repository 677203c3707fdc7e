import RpcStubs.Data.Json
namespace RpcStubs.Document

open Data

/-!
# The shape of API documents

Which data trees are API documents: for every kind of object its fields, and for every
field whether it must be there and what it may hold. `Shape.accepts` decides it.
-/

/-- The kinds of objects in a document. -/
inductive Kind
  | document
  | info
  | contact
  | license
  | server
  | variable
  | tag
  | documentation
  | components
  | paths
  | callback
  | pathItem
  | operation
  | parameter
  | header
  | body
  | media
  | encoding
  | responses
  | response
  | example
  | link
  | schema
  | discriminator
  | security
  | flows
  | implicitFlow
  | passwordFlow
  | clientFlow
  | codeFlow
deriving Repr, DecidableEq

/-- What a value may be. -/
inductive Shape
  | value
  | text
  | flag
  | number
  | count
  | keyword (allowed : List String)
  | list (item : Shape)
  | map (item : Shape)
  | object (kind : Kind)
  | slot (kind : Kind)
  | flagOrSlot (kind : Kind)
deriving Repr, DecidableEq

/--
Whether a field must be there.

Null counts as absent for an `optional` field, and is a value like any other for a `required`
or `defaulted` one.
-/
inductive Presence
  | required
  | optional
  | defaulted
deriving Repr, DecidableEq

/-- A field of an object. -/
structure Field where
  name : String
  presence : Presence
  shape : Shape
deriving Repr, DecidableEq

/-- A field that must be there. -/
def required (name : String) (shape : Shape) : Field := ⟨name, .required, shape⟩

/-- A field that may be absent or null. -/
def optional (name : String) (shape : Shape) : Field := ⟨name, .optional, shape⟩

/-- A field that may be absent, but not null. -/
def defaulted (name : String) (shape : Shape) : Field := ⟨name, .defaulted, shape⟩

/-- Requirements of security: for each scheme a list of scopes. -/
def securityList : Shape := .list (.map (.list .text))

/-- The fields that every parameter has, its schema or content apart. -/
def parameterFields : List Field := [
  required "name" .text, optional "description" .text, defaulted "required" .flag,
  optional "deprecated" .flag, optional "example" .value,
  defaulted "examples" (.map (.slot .example)), optional "explode" .flag]

/-- The styles of parameters in a query. -/
def queryStyles : Shape := .keyword ["form", "spaceDelimited", "pipeDelimited", "deepObject"]

/-- The fields of an authorization flow besides its addresses. -/
def flowFields : List Field := [optional "refreshUrl" .text, defaulted "scopes" (.map .text)]

/-- The fields of every kind whose fields do not depend on its content. -/
def Kind.fields : Kind → List Field
  | .document => [
      required "openapi" .text, required "info" (.object .info),
      defaulted "servers" (.list (.object .server)), required "paths" (.object .paths),
      optional "components" (.object .components), optional "security" securityList,
      defaulted "tags" (.list (.object .tag)), optional "externalDocs" (.object .documentation)]
  | .info => [
      required "title" .text, optional "description" .text, optional "termsOfService" .text,
      optional "contact" (.object .contact), optional "license" (.object .license),
      required "version" .text]
  | .contact => [optional "name" .text, optional "url" .text, optional "email" .text]
  | .license => [required "name" .text, optional "url" .text]
  | .server => [
      required "url" .text, optional "description" .text,
      optional "variables" (.map (.object .variable))]
  | .variable => [
      defaulted "enum" (.list .text), required "default" .text, optional "description" .text]
  | .tag => [
      required "name" .text, optional "description" .text,
      optional "externalDocs" (.object .documentation)]
  | .documentation => [optional "description" .text, required "url" .text]
  | .components => [
      defaulted "securitySchemes" (.map (.slot .security)),
      defaulted "responses" (.map (.slot .response)),
      defaulted "parameters" (.map (.slot .parameter)),
      defaulted "examples" (.map (.slot .example)),
      defaulted "requestBodies" (.map (.slot .body)),
      defaulted "headers" (.map (.slot .header)),
      defaulted "schemas" (.map (.slot .schema)),
      defaulted "links" (.map (.slot .link)),
      defaulted "callbacks" (.map (.slot .callback))]
  | .paths => []
  | .callback => []
  | .pathItem => [
      optional "summary" .text, optional "description" .text,
      optional "get" (.object .operation), optional "put" (.object .operation),
      optional "post" (.object .operation), optional "delete" (.object .operation),
      optional "options" (.object .operation), optional "head" (.object .operation),
      optional "patch" (.object .operation), optional "trace" (.object .operation),
      defaulted "servers" (.list (.object .server)),
      defaulted "parameters" (.list (.slot .parameter))]
  | .operation => [
      defaulted "tags" (.list .text), optional "summary" .text, optional "description" .text,
      optional "externalDocs" (.object .documentation), optional "operationId" .text,
      defaulted "parameters" (.list (.slot .parameter)), optional "requestBody" (.slot .body),
      required "responses" (.object .responses),
      defaulted "callbacks" (.map (.object .callback)), defaulted "deprecated" .flag,
      optional "security" securityList, defaulted "servers" (.list (.object .server))]
  | .parameter => parameterFields
  | .header => [
      optional "description" .text, defaulted "style" (.keyword ["simple"]),
      defaulted "required" .flag, optional "deprecated" .flag, optional "example" .value,
      defaulted "examples" (.map (.slot .example))]
  | .body => [
      optional "description" .text, defaulted "content" (.map (.object .media)),
      defaulted "required" .flag]
  | .media => [
      optional "schema" (.slot .schema), optional "example" .value,
      defaulted "examples" (.map (.slot .example)),
      defaulted "encoding" (.map (.object .encoding))]
  | .encoding => [
      optional "contentType" .text, defaulted "headers" (.map (.slot .header)),
      optional "style" queryStyles, defaulted "explode" .flag, defaulted "allowReserved" .flag]
  | .responses => [optional "default" (.slot .response)]
  | .response => [
      required "description" .text, defaulted "headers" (.map (.slot .header)),
      defaulted "content" (.map (.object .media)), defaulted "links" (.map (.slot .link))]
  | .example => [
      optional "summary" .text, optional "description" .text, optional "value" .value,
      optional "externalValue" .text]
  | .link => [
      optional "description" .text, optional "requestBody" .value,
      defaulted "parameters" (.map .value), optional "server" (.object .server)]
  | .schema => [
      defaulted "nullable" .flag, defaulted "readOnly" .flag, defaulted "writeOnly" .flag,
      defaulted "deprecated" .flag, optional "externalDocs" (.object .documentation),
      optional "example" .value, optional "title" .text, optional "description" .text,
      optional "discriminator" (.object .discriminator), optional "default" .value,
      optional "type" .text, optional "pattern" .text, optional "multipleOf" .number,
      optional "exclusiveMinimum" .flag, optional "exclusiveMaximum" .flag,
      optional "minimum" .number, optional "maximum" .number,
      optional "properties" (.map (.slot .schema)), optional "required" (.list .text),
      optional "additionalProperties" (.flagOrSlot .schema), optional "minProperties" .count,
      optional "maxProperties" .count, optional "items" (.slot .schema),
      optional "minItems" .count, optional "maxItems" .count, optional "uniqueItems" .flag,
      optional "enum" (.list .value), optional "format" .text, optional "minLength" .count,
      optional "maxLength" .count, optional "oneOf" (.list (.slot .schema)),
      optional "allOf" (.list (.slot .schema)), optional "anyOf" (.list (.slot .schema)),
      optional "not" (.slot .schema)]
  | .discriminator => [required "propertyName" .text, defaulted "mapping" (.map .text)]
  | .security => [optional "description" .text]
  | .flows => [
      optional "implicit" (.object .implicitFlow), optional "password" (.object .passwordFlow),
      optional "clientCredentials" (.object .clientFlow),
      optional "authorizationCode" (.object .codeFlow)]
  | .implicitFlow => required "authorizationUrl" .text :: flowFields
  | .passwordFlow => required "tokenUrl" .text :: flowFields
  | .clientFlow => required "tokenUrl" .text :: flowFields
  | .codeFlow => required "authorizationUrl" .text :: required "tokenUrl" .text :: flowFields

/-- The entries of a map. -/
abbrev Entries := List (Node × Node)

/-- The first of some fields that a map has, in the order of the map. -/
def firstOf (fields : List Field) : Entries → Option Field
  | [] => none
  | (key, _) :: rest =>
      match fields.find? fun field => key.text? = some field.name with
      | some field => some field
      | none => firstOf fields rest

/-- One of several fields, of which a map must have one; the first one in the map counts. -/
def alternative (fields : List Field) (entries : Entries) : Option (List Field) :=
  (firstOf fields entries).map fun field => [field]

/-- The schema or the content of a parameter or header. -/
def schemaOrContent : List Field := [
  required "schema" (.slot .schema), required "content" (.map (.object .media))]

/-- The fields that a parameter has for its place. -/
def placeFields : String → Option (List Field)
  | "query" => some [
      defaulted "allowReserved" .flag, defaulted "style" queryStyles,
      optional "allowEmptyValue" .flag]
  | "header" => some [defaulted "style" (.keyword ["simple"])]
  | "path" => some [defaulted "style" (.keyword ["matrix", "label", "simple"])]
  | "cookie" => some [defaulted "style" (.keyword ["form"])]
  | _ => none

/-- The fields that a security scheme has for its type. -/
def schemeFields : String → Option (List Field)
  | "apiKey" => some [
      required "in" (.keyword ["query", "header", "cookie"]), required "name" .text]
  | "http" => some [required "scheme" .text, optional "bearerFormat" .text]
  | "oauth2" => some [required "flows" (.object .flows)]
  | "openIdConnect" => some [required "openIdConnectUrl" .text]
  | _ => none

/-- The value of a text field. -/
def textOf (name : String) (entries : Entries) : Option String :=
  (Node.valueOf? name entries).bind Node.text?

/-- The fields of an object of a kind, with those that its content asks for. -/
def Kind.fieldsIn (kind : Kind) (entries : Entries) : Option (List Field) := do
  match kind with
  | .parameter =>
      let place ← placeFields (← textOf "in" entries)
      let held ← alternative schemaOrContent entries
      return required "in" .text :: kind.fields ++ place ++ held
  | .header =>
      return kind.fields ++ (← alternative schemaOrContent entries)
  | .link =>
      let target ← alternative
        [required "operationRef" .text, required "operationId" .text] entries
      return kind.fields ++ target
  | .security =>
      return required "type" .text :: kind.fields ++ (← schemeFields (← textOf "type" entries))
  | _ => return kind.fields

/-- Whether a text is a status range such as `2XX`: a digit and two crosses. -/
def rangeOf? : List Char → Option Nat
  | [digit, first, second] =>
      if digit.isDigit && first.toLower == 'x' && second.toLower == 'x' then
        some (digit.toNat - '0'.toNat)
      else
        none
  | _ => none

/-- The status that a number is. -/
def codeOf? (number : Int) : Option Nat :=
  if 100 ≤ number ∧ number < 1000 then some number.toNat else none

/-- The status that a text of three digits spells. -/
def codeText? (text : List Char) : Option Nat :=
  if text.length = 3 && text.all Char.isDigit then codeOf? (Json.numberOf text) else none

/--
What an object holds under a key that is the name of no field: a path item under a path, a
response under a status, and nothing of note otherwise.
-/
def Kind.patternShape (kind : Kind) (key : Node) : Option Shape :=
  match kind, key with
  | .paths, .scalar (.text name) _ =>
      if "/".toList.isPrefixOf name.toList then some (.slot .pathItem) else none
  | .callback, .scalar (.text _) _ => some (.object .pathItem)
  | .callback, _ => some (.keyword [])
  | .responses, .scalar (.text name) _ =>
      if (codeText? name.toList).isSome || (rangeOf? name.toList).isSome then
        some (.slot .response)
      else
        none
  | .responses, .scalar (.integer number) _ => (codeOf? number).map fun _ => .slot .response
  | _, _ => none

mutual

/-- Whether a tree has no tags and no integer beyond 64 bits. -/
def isPlain : Node → Bool
  | .scalar (.integer value) _ => Json.fitsWord value
  | .scalar _ _ => true
  | .list items => arePlain items
  | .map entries => arePlainEntries entries
  | .tagged _ => false

/-- Whether every item is plain. -/
def arePlain : List Node → Bool
  | [] => true
  | item :: rest => isPlain item && arePlain rest

/-- Whether every key and every value is plain. -/
def arePlainEntries : List (Node × Node) → Bool
  | [] => true
  | (key, value) :: rest => isPlain key && isPlain value && arePlainEntries rest

end

mutual

/-- Whether every key in a tree is text. -/
def isTextKeyed : Node → Bool
  | .list items => areTextKeyed items
  | .map entries => haveTextKeys entries
  | _ => true

/-- Whether every key in some trees is text. -/
def areTextKeyed : List Node → Bool
  | [] => true
  | item :: rest => isTextKeyed item && areTextKeyed rest

/-- Whether every key of some entries and in their values is text. -/
def haveTextKeys : List (Node × Node) → Bool
  | [] => true
  | (key, value) :: rest => key.text?.isSome && isTextKeyed value && haveTextKeys rest

end

/-- Whether a key may stand in an object: text, or a whole number that no field has as name. -/
def isFieldKey : Node → Bool
  | .scalar (.text _) _ => true
  | .scalar (.integer value) _ => 0 ≤ value
  | _ => false

/-- How often a field stands in a map. -/
def occurrences (name : String) (entries : Entries) : Nat :=
  entries.countP fun entry => entry.1.text? = some name

/-- Whether a map has every field that must be there, and no field twice. -/
def hasFields (fields : List Field) (entries : Entries) : Bool :=
  fields.all fun field =>
    let count := occurrences field.name entries
    count ≤ 1 && (count = 1 || field.presence ≠ .required)

/-- The target of a map that is a reference: its one `$ref` field is text. -/
def targetOf? (entries : Entries) : Option String :=
  if occurrences "$ref" entries = 1 then textOf "$ref" entries else none

/-- Whether the name of a field marks an extension. -/
def isExtension (key : Node) : Bool :=
  match key with
  | .scalar (.text name) _ => "x-".toList.isPrefixOf name.toList
  | _ => false

/-- Whether a scalar is of a shape. -/
def acceptsScalar (shape : Shape) (scalar : Scalar) : Bool :=
  match shape, scalar with
  | .value, _ => true
  | .text, .text _ => true
  | .flag, .boolean _ => true
  | .flagOrSlot _, .boolean _ => true
  | .number, .integer _ => true
  | .number, .decimal _ => true
  | .count, .integer value => 0 ≤ value && Json.fitsWord value
  | .keyword allowed, .text text => allowed.contains text
  | _, _ => false

/-- The kind of object that a shape admits. -/
def Shape.kind? : Shape → Option Kind
  | .object kind => some kind
  | .slot kind => some kind
  | .flagOrSlot kind => some kind
  | _ => none

/-- Whether a map may be a reference where a shape is asked for. -/
def Shape.admitsReference : Shape → Bool
  | .slot _ => true
  | .flagOrSlot _ => true
  | _ => false

mutual

/-- Whether a plain tree is of a shape. -/
def accepts (shape : Shape) : Node → Bool
  | .scalar scalar _ => acceptsScalar shape scalar
  | .list items =>
      match shape with
      | .list item => acceptsItems item items
      | .value => areTextKeyed items
      | _ => false
  | .map entries =>
      match shape with
      | .map item => acceptsValues item entries
      | .value => haveTextKeys entries
      | _ =>
          match shape.kind? with
          | none => false
          | some kind =>
              entries.all (fun entry => isFieldKey entry.1) &&
                if shape.admitsReference && (targetOf? entries).isSome then
                  true
                else
                  match kind.fieldsIn entries with
                  | none => false
                  | some fields => hasFields fields entries && acceptsFields kind fields entries
  | .tagged _ => false

/-- Whether every item is of a shape. -/
def acceptsItems (shape : Shape) : List Node → Bool
  | [] => true
  | item :: rest => accepts shape item && acceptsItems shape rest

/-- Whether every key is text and every value of a shape. -/
def acceptsValues (shape : Shape) : List (Node × Node) → Bool
  | [] => true
  | (key, value) :: rest => key.text?.isSome && accepts shape value && acceptsValues shape rest

/-- Whether every entry of an object is of the shape that its key asks for. -/
def acceptsFields (kind : Kind) (fields : List Field) : List (Node × Node) → Bool
  | [] => true
  | (key, value) :: rest =>
      let fits := match fields.find? fun field => key.text? = some field.name with
        | some field => (field.presence = .optional && value.isNull) || accepts field.shape value
        | none =>
            match kind.patternShape key with
            | some shape => accepts shape value
            | none => !isExtension key || isTextKeyed value
      fits && acceptsFields kind fields rest

end

end RpcStubs.Document
