import RpcStubs.Proofs.Extraction.Kept
import RpcStubs.Run.Plan
namespace RpcStubs

/-!
# Texts of calls

The summaries and descriptions of calls come to the summaries of operations and to nothing
else.  Extraction, classification and the model commute with erasing them: what is made of a
document without texts is what is made of the document, with the summaries erased.
-/

/-! What is left when texts are erased. -/

/-- The call without its texts. -/
def Call.withoutTexts (call : Call) : Call :=
  { call with summary := none, description := none }

/-- What a path declares, its call without texts. -/
def PathItem.withoutTexts (item : PathItem) : PathItem :=
  { item with post := item.post.map Call.withoutTexts }

/-- A declared path without texts, if it is declared in place. -/
def Extraction.withoutTexts (declared : Ref PathItem) : Ref PathItem :=
  match declared with
  | .reference target => .reference target
  | .inline item => .inline item.withoutTexts

/-- The document without the texts of its calls. -/
def Document.withoutTexts (document : Document) : Document :=
  { document with
    paths := {
      entries := document.paths.entries.map fun entry =>
        (entry.1, Extraction.withoutTexts entry.2)
      distinct := by
        rw [List.map_map]
        exact document.paths.distinct } }

/-- The operation without its summary. -/
def Operation.withoutSummary (operation : Operation) : Operation :=
  { operation with summary := "" }

/-- The list operation without its summary. -/
def ListOperation.withoutSummary (list : ListOperation) : ListOperation :=
  { list with toOperation := list.toOperation.withoutSummary }

/-- The model without the summaries of its operations. -/
def Model.withoutSummaries (model : Model) : Model :=
  { model with
    operations := model.operations.map Operation.withoutSummary
    lists := model.lists.map ListOperation.withoutSummary }

/-- The report without the summary of the operation that it brings. -/
def Report.withoutSummary : Report → Report
  | .extracted operation => .extracted operation.withoutSummary
  | other => other

/-! Extraction. -/

namespace Extraction

variable (document : Document)

theorem requestMedia?_withoutTexts
    (call : Call) :
    requestMedia? document.withoutTexts call.withoutTexts = requestMedia? document call := rfl

theorem successMedia?_withoutTexts
    (call : Call) :
    call.withoutTexts.successMedia? document.withoutTexts = call.successMedia? document := rfl

theorem judgeCall_withoutTexts
    (path : String)
    (route : Route)
    (call : Call) :
    judgeCall document.withoutTexts path route call.withoutTexts =
      (judgeCall document path route call).map Report.withoutSummary := by
  unfold judgeCall
  rw [requestMedia?_withoutTexts, successMedia?_withoutTexts]
  cases namedSchema path .request (requestMedia? document call) with
  | error failure =>
      rfl
  | ok requestName =>
      cases requestName with
      | none =>
          rfl
      | some requestType =>
          cases namedSchema path .response (call.successMedia? document) with
          | error failure =>
              rfl
          | ok responseName =>
              cases responseName <;> rfl

/-- The operation of a method is found without its summary among those without summaries. -/
theorem find?_methodName_withoutSummary
    (kept : List Operation)
    (methodName : String) :
    (kept.map Operation.withoutSummary).find? (fun operation => operation.methodName = methodName) =
      (kept.find? fun operation => operation.methodName = methodName).map
        Operation.withoutSummary :=
  List.find?_map ..

/-- Judging a path commutes with erasing texts. -/
theorem judge_withoutTexts
    (kept : List Operation)
    (path : String)
    (declared : Ref PathItem) :
    judge document.withoutTexts (kept.map Operation.withoutSummary) path
        (withoutTexts declared) =
      (judge document kept path declared).map Report.withoutSummary := by
  cases declared with
  | reference target =>
      rfl
  | inline item =>
      obtain ⟨post, others⟩ := item
      cases post with
      | none =>
          rfl
      | some call =>
          cases parsed : Route.parse? path with
          | none =>
              simp only [judge, withoutTexts, PathItem.withoutTexts, Option.map_some, parsed]
              rfl
          | some route =>
              simp only [judge, withoutTexts, PathItem.withoutTexts, Option.map_some, parsed,
                find?_methodName_withoutSummary]
              cases kept.find? fun operation => operation.methodName = route.methodName with
              | some first =>
                  rfl
              | none =>
                  exact judgeCall_withoutTexts document path route call

/-- Going over the paths commutes with erasing texts. -/
theorem walk_withoutTexts
    (kept : List Operation)
    (entries : List Declared) :
    (walk document.withoutTexts (kept.map Operation.withoutSummary)
        (entries.map fun entry => (entry.1, withoutTexts entry.2))).2 =
      (walk document kept entries).2.map (List.map Operation.withoutSummary) := by
  induction entries generalizing kept with
  | nil =>
      rfl
  | cons entry rest inductionHypothesis =>
      have judged := judge_withoutTexts document kept entry.1 entry.2
      cases result : judge document kept entry.1 entry.2 with
      | error failure =>
          rw [result] at judged
          simp only [List.map_cons, walk, judged, result, Except.map]
      | ok report =>
          rw [result] at judged
          have brought :
              kept.map Operation.withoutSummary ++
                  (operationOf? report.withoutSummary).toList =
                (kept ++ (operationOf? report).toList).map Operation.withoutSummary := by
            cases report <;> simp [operationOf?, Report.withoutSummary]
          simp only [List.map_cons, walk, judged, result, Except.map]
          rw [brought]
          exact inductionHypothesis _

end Extraction

/-- The operations of a document without texts are its operations without summaries. -/
theorem Document.operations_withoutTexts
    (document : Document) :
    document.withoutTexts.operations =
      document.operations.map (List.map Operation.withoutSummary) :=
  Extraction.walk_withoutTexts document [] document.paths.entries

/-! Classification. -/

theorem Document.schemaWithin?_withoutTexts
    (document : Document)
    (budget : Nat)
    (name : String) :
    document.withoutTexts.schemaWithin? budget name = document.schemaWithin? budget name := by
  induction budget generalizing name with
  | zero =>
      rw [schemaWithin?.eq_def, schemaWithin?.eq_def document]
      rfl
  | succ budget inductionHypothesis =>
      rw [schemaWithin?.eq_def, schemaWithin?.eq_def document]
      simp only [inductionHypothesis]
      rfl

namespace Listing

variable (document : Document)

theorem firstPage?_withoutTexts
    (response : Schema) :
    firstPage? document.withoutTexts response = firstPage? document response := by
  have samePage : pageOf? document.withoutTexts = pageOf? document := by
    funext property
    have resolves : document.withoutTexts.resolve? property.2 = document.resolve? property.2 := by
      cases property.2 with
      | inline schema =>
          rfl
      | reference target =>
          exact document.schemaWithin?_withoutTexts _ _
    rw [pageOf?, pageOf?, resolves]
  rw [firstPage?, firstPage?, samePage]

/-- Whether an operation lists does not depend on texts. -/
theorem classify?_withoutTexts
    (operation : Operation) :
    classify? document.withoutTexts operation.withoutSummary =
      (classify? document operation).map ListOperation.withoutSummary := by
  have sameSchema (name : String) :
      document.withoutTexts.schema? name = document.schema? name :=
    document.schemaWithin?_withoutTexts _ _
  unfold classify? judge
  simp only [Operation.withoutSummary, sameSchema, firstPage?_withoutTexts]
  cases Route.parse? operation.path with
  | none =>
      rfl
  | some route =>
      cases mentions : route.mentionsList with
      | false =>
          simp [mentions]
      | true =>
          cases document.schema? operation.requestType with
          | none =>
              simp [mentions]
          | some request =>
              cases offset : hasOffset request with
              | false =>
                  simp [mentions, offset]
              | true =>
                  cases document.schema? operation.responseType with
                  | none =>
                      simp [mentions, offset]
                  | some response =>
                      cases shown : firstPage? document response with
                      | none =>
                          simp [mentions, offset, shown]
                      | some page =>
                          simp only [mentions, offset, shown, Bool.not_true, Bool.false_eq_true,
                            ↓reduceIte, Option.map_some]
                          rfl

theorem classify_withoutTexts
    (operations : List Operation) :
    classify document.withoutTexts (operations.map Operation.withoutSummary) =
      (classify document operations).map ListOperation.withoutSummary := by
  rw [classify, classify, List.filterMap_map, List.map_filterMap]
  exact congrArg (fun f => operations.filterMap f)
    (funext fun operation => classify?_withoutTexts document operation)

end Listing

/-! Models. -/

/-- A model is built without summaries from what has none. -/
theorem Model.build_withoutSummaries
    (configuration : Configuration)
    (operations : List Operation)
    (lists : List ListOperation)
    (time : Instant) :
    build configuration (operations.map Operation.withoutSummary)
        (lists.map ListOperation.withoutSummary) time =
      (build configuration operations lists time).withoutSummaries := by
  have messages : messagesOf (operations.map Operation.withoutSummary) = messagesOf operations := by
    rw [messagesOf, List.flatMap_map]
    rfl
  have fetchers : fetchersOf (lists.map ListOperation.withoutSummary) = fetchersOf lists := by
    rw [fetchersOf, List.map_map]
    rfl
  rw [build, messages, fetchers]
  rfl

/-- The model of a document without texts is its model without summaries. -/
theorem Plan.modelOf_withoutTexts
    (document : Document)
    (configuration : Configuration)
    (time : Instant) :
    modelOf document.withoutTexts configuration time =
      (modelOf document configuration time).map Model.withoutSummaries := by
  unfold modelOf
  rw [document.operations_withoutTexts]
  cases document.operations with
  | error failure =>
      rfl
  | ok operations =>
      simp only [Except.map, bind, Except.bind, pure, Except.pure]
      rw [Listing.classify_withoutTexts, Model.build_withoutSummaries]

end RpcStubs
