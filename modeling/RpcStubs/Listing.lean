import RpcStubs.Document.Lookup
import RpcStubs.Event
import RpcStubs.Route
namespace RpcStubs.Listing

/-!
# List operations

An operation lists items in pages when its method speaks of a list, its request has an
offset, and its response has an array of a named schema. The first such array counts.
-/

/-- The text with its ASCII letters in lower case. -/
def lowered (text : String) : List Char :=
  text.toList.map Char.toLower

/-- Whether a request schema has a property for the offset. -/
def hasOffset (request : Schema) : Bool :=
  request.properties.any fun property => lowered property.1 = "offset".toList

/-- The property of a response that holds a page, and the schema of its items. -/
structure Page where
  field : String
  itemType : String
deriving Repr, DecidableEq

/-- The page that a property holds, when it is an array of a named schema. -/
def pageOf? (document : Document) (property : String × Ref Schema) : Option Page :=
  match document.resolve? property.2 with
  | none => none
  | some schema =>
      match schema.items? with
      | some (.reference target) => some ⟨property.1, Ref.nameOf target⟩
      | _ => none

/-- The first page among the properties of a response schema. -/
def firstPage? (document : Document) (response : Schema) : Option Page :=
  response.properties.findSome? (pageOf? document)

/-- The text without an ending, when it ends so. -/
def withoutEnding (ending text : List Char) : List Char :=
  if ending.isSuffixOf text then text.take (text.length - ending.length) else text

/-- The name of the type that fetches pages of an item type. -/
def fetcherName (itemType : String) : String :=
  String.ofList (withoutEnding "Response".toList itemType.toList) ++ "PageFetcher"

/-- The list operation that an operation and its page make. -/
def listOperation (operation : Operation) (page : Page) : ListOperation :=
  { operation with
    iteratorName := operation.methodName ++ "Iter"
    fetcherName := fetcherName page.itemType
    itemType := page.itemType
    responseField := String.ofList (Text.capitalized page.field.toList) }

/-- What is found about an operation: a list operation, or perhaps a report why it is none. -/
inductive Verdict
  | list (operation : ListOperation)
  | none (report : Option Report)
deriving Repr, DecidableEq

/-- Judge one operation. -/
def judge (document : Document) (operation : Operation) : Verdict :=
  match Route.parse? operation.path with
  | none => .none none
  | some route =>
      if !route.mentionsList then
        .none none
      else
        match document.schema? operation.requestType with
        | none => .none none
        | some request =>
            if !hasOffset request then
              .none (some .withoutOffset)
            else
              match document.schema? operation.responseType with
              | none => .none none
              | some response =>
                  match firstPage? document response with
                  | none => .none (some .withoutItems)
                  | some page => .list (listOperation operation page)

/-- The list operation that an operation is. -/
def classify? (document : Document) (operation : Operation) : Option ListOperation :=
  match judge document operation with
  | .list list => some list
  | .none _ => none

/-- The event of judging an operation. -/
def event? (document : Document) (operation : Operation) : Option Event :=
  match judge document operation with
  | .list _ => none
  | .none report => report.map fun report => ⟨operation.path, report⟩

/-- The list operations among some operations. -/
def classify (document : Document) (operations : List Operation) : List ListOperation :=
  operations.filterMap (classify? document)

/-- The events of judging some operations. -/
def events (document : Document) (operations : List Operation) : List Event :=
  operations.filterMap (event? document)

end RpcStubs.Listing
