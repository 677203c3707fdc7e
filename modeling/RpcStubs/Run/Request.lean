import RpcStubs.Configuration.Resolve
import RpcStubs.Convention
import RpcStubs.Document.Load
import RpcStubs.Run.Writing
import RpcStubs.Settings.Load
namespace RpcStubs

open Files

/-!
# Requests

What a user asks for, and how it is answered. Everything up to the plan only reads files;
only then are files written.
-/

/-- A request to generate. -/
structure Request where
  spec : String
  choices : Choices := {}
  fallbacks : Fallbacks := {}
  settings : Option String := none
  skipsValidation : Bool := false
  time : Instant
deriving Repr, DecidableEq

/-- Why a request is not carried out. -/
inductive Rejection
  | failed (failure : Failure)
  | violated (violations : List Violation)
deriving Repr, DecidableEq

/-- The rejection in words. -/
def Rejection.message : Rejection → String
  | .failed failure => failure.message
  | .violated violations =>
      s!"Specification violates the RPC convention ({violations.length} violations)"

/-- What was done for a request. -/
structure GenerationReport where
  output : String
  moduleRoot : String
  result : RunResult
deriving Repr, DecidableEq

namespace GenerationReport

/-- A text filled with blanks in front to a width. -/
def rightAligned (width : Nat) (text : String) : String :=
  String.ofList (List.replicate (width - text.length) ' ') ++ text

/-- The line of a file in a report. -/
def line (root : String) (written : Written) : String :=
  rightAligned 11 written.outcome.text ++ "  " ++
    (Path.remainder? root written.path).getD written.path ++ "\n"

/-- The report in words: a line per file, and a line of counts. -/
def text (report : GenerationReport) : String :=
  let result := report.result
  let created := result.count .created
  let overwritten := result.count .overwritten
  let skipped := result.count .skipped
  String.join (result.written.map (line report.moduleRoot)) ++
    s!"{result.operationCount} operations ({result.listCount} paginated): " ++
    s!"{result.writtenCount} written ({created} created, {overwritten} overwritten), " ++
    s!"{skipped} skipped"

end GenerationReport

namespace Request

variable {m : Type → Type} [Monad m] [Reads m]

/-- The settings for a request: those of the given file, or of the nearest one. -/
def findSettings (request : Request) : m (Except Failure Settings) := do
  match request.settings with
  | some path => Settings.load path
  | none =>
      let start := request.choices.output.getD request.fallbacks.output
      if ← Reads.isDirectory start then
        match ← Settings.discover start with
        | .error failure => return .error failure
        | .ok found => return .ok (found.getD {})
      else
        return .ok {}

/-- The configuration for a request. -/
def configure (request : Request) : m (Except Failure Configuration) := do
  match ← findSettings request with
  | .error failure => return .error failure
  | .ok settings =>
      Configuration.resolve (request.choices.orElse settings) request.fallbacks

/-- The document for a request, which must obey the convention unless that is waived. -/
def loadDocument (request : Request) : m (Except Rejection Document) := do
  match ← Document.load request.spec with
  | .error failure => return .error (.failed failure)
  | .ok document =>
      if request.skipsValidation || document.violations.isEmpty then
        return .ok document
      else
        return .error (.violated document.violations)

/-- The configuration and the plan for a request. -/
def prepare (formatter : Source.Formatter) (request : Request) :
    m (Except Rejection (Configuration × Plan)) := do
  match ← configure request with
  | .error failure => return .error (.failed failure)
  | .ok configuration =>
      match ← loadDocument request with
      | .error rejection => return .error rejection
      | .ok document =>
          match Plan.make formatter document configuration request.time with
          | .error failure => return .error (.failed failure)
          | .ok plan => return .ok (configuration, plan)

end Request

/-- Carry out what was prepared for a request. -/
def carryOut {m : Type → Type} [Monad m] (writer : Writer m)
    (prepared : Except Rejection (Configuration × Plan)) :
    m (Except Rejection GenerationReport) := do
  match prepared with
  | .error rejection => return .error rejection
  | .ok (configuration, plan) =>
      match ← Writer.carryOut writer plan with
      | .error failure => return .error (.failed failure)
      | .ok result =>
          return .ok
            { output := configuration.output
              moduleRoot := configuration.moduleRoot
              result := result }

namespace Files.Tree

/-- Answer a request on a tree: what was done, and the tree after it. -/
def generate (tree : Tree) (writer : Writer (StateM Tree)) (formatter : Source.Formatter)
    (request : Request) : Except Rejection GenerationReport × Tree :=
  let prepared : ReaderM Tree (Except Rejection (Configuration × Plan)) :=
    request.prepare formatter
  RpcStubs.carryOut writer (prepared.run tree) tree

end Files.Tree

/-- The violations of the document in a file. -/
def validateFile {m : Type → Type} [Monad m] [Reads m] (spec : String) :
    m (Except Failure (List Violation)) := do
  match ← Document.load spec with
  | .error failure => return .error failure
  | .ok document => return .ok document.violations

end RpcStubs
