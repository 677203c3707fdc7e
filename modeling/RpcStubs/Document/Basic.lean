import RpcStubs.Catalog
namespace RpcStubs

/-!
# API documents

What an API document says, as far as generation needs it: its paths with their calls, and
the components that calls and schemas refer to.
-/

/-- Something written in place, or a reference to a component. -/
inductive Ref (α : Type)
  | reference (target : String)
  | inline (value : α)
deriving Repr

/-- The types of schemas for plain values. -/
inductive ValueType
  | string
  | number
  | integer
  | boolean
deriving Repr, DecidableEq

/-- The ways to combine schemas in a list. -/
inductive Combination
  | oneOf
  | allOf
  | anyOf
deriving Repr, DecidableEq

/--
A schema by its kind.

A schema whose fields fit no other kind is of kind `any`; it keeps its type, its properties,
its items and every other schema in it.
-/
inductive Schema
  | value (type : ValueType)
  | object (properties : List (String × Ref Schema)) (additional : Option (Ref Schema))
  | array (items : Option (Ref Schema))
  | combination (how : Combination) (members : List (Ref Schema))
  | negation (member : Ref Schema)
  | any (type : Option String) (properties : List (String × Ref Schema))
      (items : Option (Ref Schema)) (others : List (Ref Schema))
deriving Repr

/-- The status of a response: one code, or all codes of one hundred. -/
inductive Status
  | code (number : Nat)
  | range (hundreds : Nat)
deriving Repr, DecidableEq

/-- Whether a status stands for success. -/
def Status.isSuccess : Status → Bool
  | .code number => 200 ≤ number && number < 300
  | .range hundreds => hundreds == 2

/-- The content of a request or a response: media types, each with its schema. -/
structure Payload where
  content : Catalog String (Option (Ref Schema)) := {}

/-- The call that a path declares for one verb. -/
structure Call where
  summary : Option String := none
  description : Option String := none
  requestBody : Option (Ref Payload) := none
  responses : Catalog Status (Ref Payload) := {}

/-- The verbs that calls may have besides `POST`, in the order of reports. -/
inductive Verb
  | get
  | put
  | delete
  | patch
  | head
  | options
  | trace
deriving Repr, DecidableEq

/-- What a path declares: its `POST` call and its other verbs. -/
structure PathItem where
  post : Option Call := none
  others : List Verb := []

/-- The named parts of a document that references point at. -/
structure Components where
  schemas : Catalog String (Ref Schema) := {}
  requestBodies : Catalog String (Ref Payload) := {}
  responses : Catalog String (Ref Payload) := {}

/-- An API document. -/
structure Document where
  openapi : String
  title : String
  version : String
  paths : Catalog String (Ref PathItem) := {}
  components : Components := {}

end RpcStubs
