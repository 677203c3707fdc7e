import RpcStubs.Extraction
namespace RpcStubs

/-!
# The RPC convention

What a document must obey before anything is generated from it. Every path is checked
against every rule; then come the checks over the whole document: methods that two paths
derive, and references inside components that point nowhere.
-/

/-- A breach of the convention. -/
inductive Breach
  | pathReferenced
  | pathMalformed (path : String)
  | postMissing
  | verbsBesides (verbs : List Verb)
  | bodyMissing
  | bodyUnresolved
  | requestSchemaMissing
  | requestContentMissing
  | successContentMissing
  | schemaInline (side : Side)
  | schemaUnresolved (targets : List String)
  | methodTaken (method first : String)
deriving Repr, DecidableEq

/-- A verb in words. -/
def Verb.text : Verb → String
  | .get => "GET"
  | .put => "PUT"
  | .delete => "DELETE"
  | .patch => "PATCH"
  | .head => "HEAD"
  | .options => "OPTIONS"
  | .trace => "TRACE"

namespace Breach

/-- The name of the rule that is broken. -/
def rule : Breach → String
  | pathReferenced => "path-format"
  | pathMalformed _ => "path-format"
  | postMissing => "post-only"
  | verbsBesides _ => "post-only"
  | bodyMissing => "request-body"
  | bodyUnresolved => "request-schema"
  | requestSchemaMissing => "request-schema"
  | requestContentMissing => "request-schema"
  | successContentMissing => "success-response"
  | schemaInline .request => "named-request"
  | schemaInline .response => "named-response"
  | schemaUnresolved _ => "schema-exists"
  | methodTaken _ _ => "unique-method"

/-- The breach in words. -/
def message : Breach → String
  | pathReferenced => "path items must be declared inline"
  | pathMalformed path => (Failure.route path).message
  | postMissing => "no POST operation declared"
  | verbsBesides verbs =>
      "only POST is allowed, found " ++ Text.join ", " (verbs.map Verb.text)
  | bodyMissing => "operation has no request body"
  | bodyUnresolved => "request body reference does not resolve"
  | requestSchemaMissing => "first request content entry has no schema"
  | requestContentMissing => "request body declares no content"
  | successContentMissing => "no 2xx response carries content"
  | schemaInline side =>
      side.text ++ " schema is inline; reference a schema under #/components/schemas"
  | schemaUnresolved targets =>
      "unresolved schema reference " ++ Text.join ", " targets
  | methodTaken method first => s!"derives {method} like {first}"

end Breach

/-- A breach and the path at which it occurs. -/
structure Violation where
  path : String
  breach : Breach
deriving Repr, DecidableEq

/-- A violation on one line. -/
def Violation.text (violation : Violation) : String :=
  "[" ++ violation.breach.rule ++ "] " ++ violation.path ++ ": " ++ violation.breach.message

namespace Convention

/-- A check of what a path declares. -/
abbrev Check := Document → String → PathItem → Option Breach

/-- The path must be a route. -/
def checkPath : Check := fun _ path _ =>
  if (Route.parse? path).isSome then none else some (.pathMalformed path)

/-- The path must declare a `POST` call and no other. -/
def checkVerbs : Check := fun _ _ item =>
  if item.post.isNone then
    some .postMissing
  else if item.others = [] then
    none
  else
    some (.verbsBesides item.others)

/-- The call must have a request body. -/
def checkBody : Check := fun _ _ item =>
  match item.post with
  | some call => if call.requestBody.isNone then some .bodyMissing else none
  | none => none

/-- The request body must be found, and its first content must have a schema. -/
def checkRequestSchema : Check := fun document _ item => do
  let call ← item.post
  let body ← call.requestBody
  match document.requestBody? body with
  | none => some .bodyUnresolved
  | some payload =>
      match payload.firstMedia? with
      | some (some _) => none
      | some none => some .requestSchemaMissing
      | none => some .requestContentMissing

/-- A response of success must carry content. -/
def checkSuccess : Check := fun document _ item =>
  match item.post with
  | some call =>
      if (call.successes document).any fun payload => !payload.content.entries.isEmpty then
        none
      else
        some .successContentMissing
  | none => none

/-- The schema of the request of a path. -/
def requestSchema? (document : Document) (item : PathItem) : Option (Ref Schema) := do
  let call ← item.post
  let body ← call.requestBody
  let payload ← document.requestBody? body
  let media ← payload.firstMedia?
  media

/-- The schema of the response of success of a path. -/
def responseSchema? (document : Document) (item : PathItem) : Option (Ref Schema) := do
  let call ← item.post
  let media ← (call.successes document).findSome? Payload.firstMedia?
  media

/-- The breach of a schema that is written in place. -/
def inlineBreach? (side : Side) : Ref Schema → Option Breach
  | .inline _ => some (.schemaInline side)
  | .reference _ => none

/-- The schema of the request must be a named one. -/
def checkNamedRequest : Check := fun document _ item =>
  (requestSchema? document item).bind (inlineBreach? .request)

/-- The schema of the response must be a named one. -/
def checkNamedResponse : Check := fun document _ item =>
  (responseSchema? document item).bind (inlineBreach? .response)

/-- The target of a schema that refers to nothing declared. -/
def dangling? (document : Document) : Ref Schema → Option String
  | .reference target => if document.declaresSchema target then none else some target
  | .inline _ => none

/-- The named schemas of request and response must be declared. -/
def checkDeclared : Check := fun document _ item =>
  let schemas := (requestSchema? document item).toList ++ (responseSchema? document item).toList
  match schemas.filterMap (dangling? document) with
  | [] => none
  | targets => some (.schemaUnresolved targets)

/-- The checks of a path, in the order of reports. -/
def checks : List Check := [
  checkPath, checkVerbs, checkBody, checkRequestSchema, checkSuccess, checkNamedRequest,
  checkNamedResponse, checkDeclared]

/-- The violations at one path. -/
def pathViolations (document : Document) (path : String) : Ref PathItem → List Violation
  | .reference _ => [⟨path, .pathReferenced⟩]
  | .inline item =>
      (checks.filterMap fun check => check document path item).map fun breach => ⟨path, breach⟩

/--
The violations of paths that derive a method which an earlier path derives.

`seen` holds the methods of earlier paths, each with the first path deriving it.
-/
def collisions (seen : List (String × String)) : List String → List Violation
  | [] => []
  | path :: rest =>
      match Route.parse? path with
      | none => collisions seen rest
      | some route =>
          match seen.lookup route.methodName with
          | some first =>
              ⟨path, .methodTaken route.methodName first⟩ :: collisions seen rest
          | none => collisions (seen ++ [(route.methodName, path)]) rest

mutual

/-- The references in a schema that are checked: in its properties and its items. -/
def targetsIn : Schema → List String
  | .object properties _ => targetsOfProperties properties
  | .array items => targetsOfItems items
  | .any _ properties items _ => targetsOfProperties properties ++ targetsOfItems items
  | _ => []

/-- The references in properties. -/
def targetsOfProperties : List (String × Ref Schema) → List String
  | [] => []
  | (_, schema) :: rest => targetsOf schema ++ targetsOfProperties rest

/-- The references in items. -/
def targetsOfItems : Option (Ref Schema) → List String
  | none => []
  | some schema => targetsOf schema

/-- The reference that a schema is, or the references in it. -/
def targetsOf : Ref Schema → List String
  | .reference target => [target]
  | .inline schema => targetsIn schema

end

/-- The violations inside one component schema. -/
def componentViolations (document : Document) (name : String) (schema : Ref Schema) :
    List Violation :=
  ((targetsOf schema).filter fun target => !document.declaresSchema target).map fun target =>
    ⟨"#/components/schemas/" ++ name, .schemaUnresolved [target]⟩

end Convention

/-- Every violation of the convention, in the order of reports. -/
def Document.violations (document : Document) : List Violation :=
  document.paths.entries.flatMap (fun entry =>
      Convention.pathViolations document entry.1 entry.2) ++
    Convention.collisions [] document.paths.names ++
    document.components.schemas.entries.flatMap (fun entry =>
      Convention.componentViolations document entry.1 entry.2)

end RpcStubs
