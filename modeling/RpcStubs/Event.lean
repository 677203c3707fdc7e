import RpcStubs.Failure
import RpcStubs.Operation
namespace RpcStubs

/-!
# Events

What extraction and classification report about a path while they go, and the records that
these reports leave in the log.
-/

/-- How much an event matters. -/
inductive Level
  | warning
  | debug
deriving Repr, DecidableEq

/-- The level in words. -/
def Level.text : Level → String
  | .warning => "WARN"
  | .debug => "DEBUG"

/-- Why a path makes no operation. -/
inductive Skip
  | referenced (target : String)
  | withoutPost
  | malformed
  | taken (first method : String)
  | withoutRequest
  | withoutResponse
deriving Repr, DecidableEq

namespace Skip

/-- A path without a call is nothing to warn of; any other skip may be a mistake. -/
def level : Skip → Level
  | withoutPost => .debug
  | _ => .warning

/-- The reason in words. -/
def message : Skip → String
  | referenced _ => "Skipping referenced path item"
  | withoutPost => "No POST operation, skipping path"
  | malformed => "Skipping operation with malformed path"
  | taken _ _ => "Skipping operation whose identifier is already taken"
  | withoutRequest => "Skipping operation without a request body schema"
  | withoutResponse => "Skipping operation without a success response schema"

/-- What is named beside the path that is skipped. -/
def details (path : String) : Skip → List (String × String)
  | referenced target => [("reference", target)]
  | malformed => [("error", (Failure.route path).message)]
  | taken first method => [("first", first), ("method", method)]
  | withoutPost | withoutRequest | withoutResponse => []

end Skip

/-- What is reported about a path. -/
inductive Report
  | skipped (reason : Skip)
  | extracted (operation : Operation)
  | withoutOffset
  | withoutItems
deriving Repr, DecidableEq

namespace Report

/-- How much a report matters. -/
def level : Report → Level
  | skipped reason => reason.level
  | extracted _ | withoutOffset | withoutItems => .debug

/-- The report in words. -/
def message : Report → String
  | skipped reason => reason.message
  | extracted _ => "Extracted operation"
  | withoutOffset => "List-like method without offset, not paginated"
  | withoutItems => "List-like method without an item array, not paginated"

/-- What is named beside the path of a report. -/
def details (path : String) : Report → List (String × String)
  | skipped reason => reason.details path
  | extracted operation => [
      ("method", operation.methodName),
      ("request", operation.requestType),
      ("response", operation.responseType)]
  | withoutOffset | withoutItems => []

end Report

/-- A report about one path. -/
structure Event where
  path : String
  report : Report
deriving Repr, DecidableEq

/-- A record of the log: how much it matters, its message, and the values that it names. -/
structure LogRecord where
  level : Level
  message : String
  fields : List (String × String)
deriving Repr, DecidableEq

/-- The record of an event, which names the path before anything else. -/
def Event.record (event : Event) : LogRecord where
  level := event.report.level
  message := event.report.message
  fields := ("path", event.path) :: event.report.details event.path

end RpcStubs
