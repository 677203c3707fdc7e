import RpcStubs.Convention
import RpcStubs.Proofs.Extraction.Kept
namespace RpcStubs.Convention

open Extraction (Declared Candidate)

/-!
# What the checks demand

Each check of the convention is silent exactly on what it demands of a path, a call or the
schemas that the call selects.  Together the checks of a path demand a candidate whose request
names a declared schema, and whose response names a declared schema if it has one.
-/

variable {document : Document} {path : String} {item : PathItem} {call : Call}

theorem checkPath_eq_none_iff :
    checkPath document path item = none ↔ ∃ route, Route.parse? path = some route := by
  simp [checkPath, Option.isSome_iff_exists]

theorem checkVerbs_eq_none_iff :
    checkVerbs document path item = none ↔
      (∃ call, item.post = some call) ∧ item.others = [] := by
  unfold checkVerbs
  cases item.post with
  | none =>
      simp
  | some call =>
      by_cases alone : item.others = []
      · simp [alone]
      · simp [alone]

theorem checkBody_eq_none_iff
    (posted : item.post = some call) :
    checkBody document path item = none ↔ ∃ body, call.requestBody = some body := by
  cases written : call.requestBody with
  | none =>
      simp [checkBody, posted, written]
  | some body =>
      simp [checkBody, posted, written]

/-- The check of the request body is silent when the body selects a schema. -/
theorem checkRequestSchema_eq_none_iff
    (posted : item.post = some call)
    {body : Ref Payload}
    (written : call.requestBody = some body) :
    checkRequestSchema document path item = none ↔
      ∃ schema, call.RequestSchema document schema := by
  have selected :
      (∃ schema, call.RequestSchema document schema) ↔
        ∃ schema, Extraction.requestMedia? document call = some (some schema) :=
    exists_congr fun _ => Extraction.requestMedia?_eq_some_iff.symm
  rw [selected]
  simp only [checkRequestSchema, Extraction.requestMedia?, posted, written, bind,
    Option.bind_some]
  cases found : document.requestBody? body with
  | none =>
      simp
  | some payload =>
      cases shown : payload.firstMedia? with
      | none =>
          simp [shown]
      | some media =>
          cases media with
          | none =>
              simp [shown]
          | some schema =>
              simp [shown]

/-- The check of success is silent when some success has content. -/
theorem checkSuccess_eq_none_iff
    (posted : item.post = some call) :
    checkSuccess document path item = none ↔
      ∃ media, call.successMedia? document = some media := by
  have filled (payload : Payload) :
      payload.firstMedia?.isSome = !payload.content.entries.isEmpty := by
    simp only [Payload.firstMedia?, Catalog.values]
    cases payload.content.entries <;> rfl
  have shown :
      (∃ media, call.successMedia? document = some media) ↔
        ((call.successes document).any fun payload => !payload.content.entries.isEmpty) =
          true := by
    rw [← Option.isSome_iff_exists, Call.successMedia?, List.isSome_findSome?]
    simp only [filled]
  rw [shown]
  simp only [checkSuccess, posted]
  split <;> simp_all

theorem requestSchema?_eq_some_iff
    (posted : item.post = some call)
    {schema : Ref Schema} :
    requestSchema? document item = some schema ↔ call.RequestSchema document schema := by
  simp only [requestSchema?, Document.requestBody?, Call.RequestSchema, posted, bind,
    Option.bind_eq_some_iff, Option.some.injEq, exists_eq_left', Document.payload?_eq_some_iff,
    ← Payload.firstMedia?_eq_some_iff]
  constructor
  · rintro ⟨body, written, payload, stands, media, first, rfl⟩
    exact ⟨body, payload, written, stands, first⟩
  · rintro ⟨body, payload, written, stands, first⟩
    exact ⟨body, written, payload, stands, some schema, first, rfl⟩

theorem responseSchema?_eq_some_iff
    (posted : item.post = some call)
    {schema : Ref Schema} :
    responseSchema? document item = some schema ↔ call.ResponseSchema document schema := by
  rw [← Call.successMedia?_eq_some_iff, Call.successMedia?]
  simp only [responseSchema?, posted, bind, Option.bind_some]
  cases (call.successes document).findSome? Payload.firstMedia? <;> simp

/-- A selected schema breaches nothing when it is a reference. -/
theorem bind_inlineBreach?_eq_none_iff
    {side : Side}
    {selected : Option (Ref Schema)} :
    selected.bind (inlineBreach? side) = none ↔
      ∀ schema, selected = some schema → ∃ target, schema = .reference target := by
  rcases selected with _ | (target | written)
  · simp
  · simp [inlineBreach?]
  · simp [inlineBreach?]

theorem checkNamedRequest_eq_none_iff
    (posted : item.post = some call) :
    checkNamedRequest document path item = none ↔
      ∀ schema, call.RequestSchema document schema → ∃ target, schema = .reference target := by
  unfold checkNamedRequest
  rw [bind_inlineBreach?_eq_none_iff]
  simp only [requestSchema?_eq_some_iff posted]

theorem checkNamedResponse_eq_none_iff
    (posted : item.post = some call) :
    checkNamedResponse document path item = none ↔
      ∀ schema, call.ResponseSchema document schema → ∃ target, schema = .reference target := by
  unfold checkNamedResponse
  rw [bind_inlineBreach?_eq_none_iff]
  simp only [responseSchema?_eq_some_iff posted]

/-- The check of declarations is silent when both selected references are declared. -/
theorem checkDeclared_eq_none_iff
    (posted : item.post = some call) :
    checkDeclared document path item = none ↔
      ∀ target,
        call.RequestSchema document (.reference target) ∨
            call.ResponseSchema document (.reference target) →
          document.declaresSchema target = true := by
  simp only [← requestSchema?_eq_some_iff posted, ← responseSchema?_eq_some_iff posted]
  have quiet :
      checkDeclared document path item = none ↔
        ((requestSchema? document item).toList ++
            (responseSchema? document item).toList).filterMap (dangling? document) = [] := by
    simp only [checkDeclared]
    split
    · rename_i empty
      simp [empty]
    · rename_i targets nonempty
      simpa using nonempty
  rw [quiet, List.filterMap_eq_nil_iff]
  simp only [List.mem_append, Option.mem_toList]
  constructor
  · intro silent target selected
    have fine := silent (.reference target) selected
    simpa [dangling?] using fine
  · rintro declared (target | written) selected
    · simpa [dangling?] using declared target selected
    · rfl

end RpcStubs.Convention
