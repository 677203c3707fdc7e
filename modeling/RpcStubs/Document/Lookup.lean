import RpcStubs.Document.Basic
import RpcStubs.Text.Pieces
namespace RpcStubs

/-!
# Looking up components

A reference is followed by its last segment only. A schema is looked up through a bounded
number of aliases; request bodies and responses are referred to directly.
-/

namespace Ref

/-- The name that a reference ends in. -/
def nameOf (target : String) : String :=
  String.ofList (Text.afterLast '/' target.toList)

end Ref

namespace Document

/-- How many aliases a look-up follows. -/
def aliasLimit : Nat := 16

/-- The schema of a name, through at most `budget` aliases. -/
def schemaWithin? (document : Document) : Nat → String → Option Schema
  | budget, name =>
      match document.components.schemas.get? name with
      | none => none
      | some (.inline schema) => some schema
      | some (.reference target) =>
          match budget with
          | 0 => none
          | budget + 1 => document.schemaWithin? budget (Ref.nameOf target)

/-- The schema of a name. -/
def schema? (document : Document) (name : String) : Option Schema :=
  document.schemaWithin? aliasLimit name

/-- The schema that a property or an item is. -/
def resolve? (document : Document) : Ref Schema → Option Schema
  | .inline schema => some schema
  | .reference target => document.schema? (Ref.nameOf target)

/-- The payload that stands in place, or that a name has among some components. -/
def payload? (named : Catalog String (Ref Payload)) : Ref Payload → Option Payload
  | .inline payload => some payload
  | .reference target =>
      match named.get? (Ref.nameOf target) with
      | some (.inline payload) => some payload
      | _ => none

/-- The request body that a call names or holds. -/
def requestBody? (document : Document) (body : Ref Payload) : Option Payload :=
  payload? document.components.requestBodies body

/-- The response that a call names or holds. -/
def response? (document : Document) (response : Ref Payload) : Option Payload :=
  payload? document.components.responses response

/-- Whether a reference points at a declared schema. -/
def declaresSchema (document : Document) (target : String) : Bool :=
  "#/components/schemas/".toList.isPrefixOf target.toList &&
    document.components.schemas.contains (Ref.nameOf target)

end Document

namespace Schema

/-- The declared properties in order. -/
def properties : Schema → List (String × Ref Schema)
  | .object properties _ => properties
  | .any _ properties _ _ => properties
  | _ => []

/-- The schema of the items of an array. -/
def items? : Schema → Option (Ref Schema)
  | .array items => items
  | .any (some "array") _ items _ => items
  | _ => none

end Schema

namespace Payload

/-- The schema of the first media type: none without media types. -/
def firstMedia? (payload : Payload) : Option (Option (Ref Schema)) :=
  payload.content.values.head?

end Payload

namespace Call

/-- The responses that stand for success and can be found, in declared order. -/
def successes (document : Document) (call : Call) : List Payload :=
  (call.responses.entries.filter fun entry => entry.1.isSuccess).filterMap fun entry =>
    document.response? entry.2

/-- The first media type of the first success that has any. -/
def successMedia? (document : Document) (call : Call) : Option (Option (Ref Schema)) :=
  (call.successes document).findSome? Payload.firstMedia?

end Call

end RpcStubs
