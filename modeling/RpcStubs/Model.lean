import RpcStubs.Configuration
import RpcStubs.Instant
import RpcStubs.Operation
import RpcStubs.Text.Pieces
namespace RpcStubs

/-!
# Models

Everything that generated files show, put together once for a run.
-/

/-- A type that fetches pages; list operations of one item type share it. -/
structure PageFetcher where
  name : String
  itemType : String
deriving Repr, DecidableEq

/-- The elements of a list, each key only where it first stands. -/
def distinctBy {α β : Type} [DecidableEq β] (key : α → β) : List α → List α
  | [] => []
  | first :: rest => first :: (distinctBy key rest).filter fun other => key other ≠ key first

/-- What generated files show. -/
structure Model where
  package : String
  packageImport : String
  protoImport : String
  protoPackage : String
  protoPath : String
  protoRoot : String
  modulePath : String
  outputRelative : String
  operations : List Operation
  lists : List ListOperation
  fetchers : List PageFetcher
  messages : List String
  generatedAt : String
  full : Bool
deriving Repr, DecidableEq

namespace Model

/-- The request and response names of some operations, each once, in first-seen order. -/
def messagesOf (operations : List Operation) : List String :=
  distinctBy id (operations.flatMap fun operation =>
    [operation.requestType, operation.responseType])

/-- The page fetchers of some list operations, each name once, in first-seen order. -/
def fetchersOf (lists : List ListOperation) : List PageFetcher :=
  distinctBy PageFetcher.name (lists.map fun list => ⟨list.fetcherName, list.itemType⟩)

/-- The first directory of a path, or `.` when it has none. -/
def firstDirectory (path : String) : String :=
  match Text.cutFirst '/' path.toList with
  | some (directory, _) => String.ofList directory
  | none => "."

/-- The model of a run. -/
def build (configuration : Configuration) (operations : List Operation)
    (lists : List ListOperation) (time : Instant) : Model :=
  { package := configuration.package
    packageImport := configuration.packageImport
    protoImport := configuration.protoImport
    protoPackage := configuration.protoPackage
    protoPath := configuration.protoPath
    protoRoot := firstDirectory configuration.protoPath
    modulePath := configuration.modulePath
    outputRelative :=
      if configuration.outputRelative = "" then "." else configuration.outputRelative
    operations := operations
    lists := lists
    fetchers := fetchersOf lists
    messages := messagesOf operations
    generatedAt := time.render
    full := configuration.full }

end Model

end RpcStubs
