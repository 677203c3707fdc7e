import RpcStubs.Files.Access
import RpcStubs.Run.Plan
namespace RpcStubs

open Files

/-!
# Writing drafts

Drafts are written one after the other; the first failure ends the writing and keeps what is
already written. A dry run only says what would happen.
-/

/-- What happens to a file. -/
inductive WriteOutcome
  | created
  | overwritten
  | skipped
deriving Repr, DecidableEq

/-- The outcome in words. -/
def WriteOutcome.text : WriteOutcome → String
  | .created => "created"
  | .overwritten => "overwritten"
  | .skipped => "skipped"

/-- What happened to the file of an artifact. -/
structure Written where
  name : String
  path : String
  outcome : WriteOutcome
deriving Repr, DecidableEq

/-- What a run comes to. -/
structure RunResult where
  written : List Written
  operationCount : Nat
  listCount : Nat
  generatedAt : String
deriving Repr, DecidableEq

/-- How many files an outcome has happened to. -/
def RunResult.count (result : RunResult) (outcome : WriteOutcome) : Nat :=
  result.written.countP fun written => written.outcome = outcome

/-- How many files were written. -/
def RunResult.writtenCount (result : RunResult) : Nat :=
  result.written.countP fun written => written.outcome ≠ .skipped

/-- A way to write a draft. -/
abbrev Writer (m : Type → Type) := Draft → m (Except Failure WriteOutcome)

/-- What happens to a file under a policy when it is there or not. -/
def outcomeOf (policy : WritePolicy) (present : Bool) : WriteOutcome :=
  match present, policy with
  | false, _ => .created
  | true, .skipIfExists => .skipped
  | true, .overwrite => .overwritten

namespace Writer

variable {m : Type → Type} [Monad m]

/-- Say what would happen to a file, and do nothing. -/
def dryAt [Reads m] (path : String) (policy : WritePolicy) : m WriteOutcome := do
  return outcomeOf policy (← Reads.isPresent path)

/-- Make the directory that holds a file. -/
def makeParent [Writes m] (path : String) : m (Except Fault Unit) :=
  match Path.parent? path with
  | some parent => Writes.makeDirectories parent
  | none => return .ok ()

/-- Write a file with its directories, unless its policy protects what is there. -/
def writeAt [Reads m] [Writes m] (path content : String) (policy : WritePolicy) :
    m (Except Failure WriteOutcome) := do
  let outcome ← dryAt path policy
  if outcome = .skipped then
    return .ok outcome
  else
    match ← makeParent path with
    | .error cause => return .error (.write path cause)
    | .ok () =>
        match ← Writes.writeFile path content.toUTF8 with
        | .error cause => return .error (.write path cause)
        | .ok () => return .ok outcome

/-- The writer that changes nothing. -/
def dry [Reads m] : Writer m := fun draft => do
  return .ok (← dryAt draft.path draft.artifact.policy)

/-- The writer that writes files. -/
def files [Reads m] [Writes m] : Writer m := fun draft =>
  writeAt draft.path draft.content draft.artifact.policy

/-- Write drafts one after the other. -/
def writeAll (writer : Writer m) : List Draft → m (Except Failure (List Written))
  | [] => return .ok []
  | draft :: rest => do
      match ← writer draft with
      | .error failure => return .error failure
      | .ok outcome =>
          match ← writeAll writer rest with
          | .error failure => return .error failure
          | .ok others => return .ok (⟨draft.artifact.name, draft.path, outcome⟩ :: others)

/-- Write everything that a plan holds. -/
def carryOut (writer : Writer m) (plan : Plan) : m (Except Failure RunResult) := do
  match ← writeAll writer plan.drafts with
  | .error failure => return .error failure
  | .ok written =>
      return .ok
        { written := written
          operationCount := plan.model.operations.length
          listCount := plan.model.lists.length
          generatedAt := plan.model.generatedAt }

end Writer

/-- The run over a document: its plan is made, and then carried out. -/
def runDocument {m : Type → Type} [Monad m] (writer : Writer m) (formatter : Source.Formatter)
    (document : Document) (configuration : Configuration) (time : Instant) :
    m (Except Failure RunResult) :=
  match Plan.make formatter document configuration time with
  | .error failure => return .error failure
  | .ok plan => Writer.carryOut writer plan

end RpcStubs
