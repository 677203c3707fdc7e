import RpcStubs.Document.Lookup
import RpcStubs.Event
import RpcStubs.Failure
import RpcStubs.Route
import RpcStubs.Summary
namespace RpcStubs

/-!
# Extraction

The operations of a document. Paths are taken in declared order; each makes one operation,
or is passed over with a reason. A schema written in place where a named one is needed ends
the extraction.
-/

namespace Extraction

/-- The name of the schema that a first media type refers to; none when it has no schema. -/
def namedSchema (path : String) (side : Side) :
    Option (Option (Ref Schema)) → Except Failure (Option String)
  | some (some (.reference target)) => .ok (some (Ref.nameOf target))
  | some (some (.inline _)) => .error (.inlineSchema path side)
  | _ => .ok none

/-- The first media type of the request body of a call. -/
def requestMedia? (document : Document) (call : Call) : Option (Option (Ref Schema)) := do
  let body ← call.requestBody
  let payload ← document.requestBody? body
  payload.firstMedia?

/-- The summary of a call, or else its description, fit for a comment. -/
def summaryOf (call : Call) : String :=
  match call.summary <|> call.description with
  | some text => Summary.ofText text
  | none => ""

/-- What a declared path comes to, beside operations that are already there. -/
def judge (document : Document) (kept : List Operation) (path : String) :
    Ref PathItem → Except Failure Report
  | .reference target => .ok (.skipped (.referenced target))
  | .inline item =>
      match item.post with
      | none => .ok (.skipped .withoutPost)
      | some call =>
          match Route.parse? path with
          | none => .ok (.skipped .malformed)
          | some route =>
              match kept.find? fun operation => operation.methodName = route.methodName with
              | some first => .ok (.skipped (.taken first.path route.methodName))
              | none => do
                  match ← namedSchema path .request (requestMedia? document call) with
                  | none => return .skipped .withoutRequest
                  | some requestType =>
                      match ← namedSchema path .response (call.successMedia? document) with
                      | none => return .skipped .withoutResponse
                      | some responseType =>
                          return .extracted
                            { methodName := route.methodName
                              path := path
                              constantName := route.constantName
                              summary := summaryOf call
                              requestType := requestType
                              responseType := responseType }

/-- The operation that a report brings. -/
def operationOf? : Report → Option Operation
  | .extracted operation => some operation
  | _ => none

/-- The events of paths up to a failure, and the operations added to those already kept. -/
def walk (document : Document) (kept : List Operation) :
    List (String × Ref PathItem) → List Event × Except Failure (List Operation)
  | [] => ([], .ok kept)
  | (path, item) :: rest =>
      match judge document kept path item with
      | .error failure => ([], .error failure)
      | .ok report =>
          let (events, result) :=
            walk document (kept ++ (operationOf? report).toList) rest
          (⟨path, report⟩ :: events, result)

/-- The events of extracting a document, and its operations. -/
def run (document : Document) : List Event × Except Failure (List Operation) :=
  walk document [] document.paths.entries

end Extraction

/-- The operations of a document in declared order. -/
def Document.operations (document : Document) : Except Failure (List Operation) :=
  (Extraction.run document).2

/-- The events of extracting a document. -/
def Document.extractionEvents (document : Document) : List Event :=
  (Extraction.run document).1

/-- The log of extracting a document. -/
def Document.extractionLog (document : Document) : List LogRecord :=
  document.extractionEvents.map Event.record

end RpcStubs
