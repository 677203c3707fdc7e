import RpcStubs.Extraction
import RpcStubs.Proofs.Text.Pieces
namespace RpcStubs

/-!
# The schemas that a call selects

Which schema of a request and which schema of a response stand for a call, said on the
document alone: references, resolved components, media types and responses as they are
declared.  The functions that look for these schemas find exactly them.
-/

/-- A reference ends in a name: the whole text, or what follows its last slash. -/
def Ref.EndsIn (target name : String) : Prop :=
  '/' ∉ name.toList ∧ (target = name ∨ ∃ before, target = before ++ "/" ++ name)

/-- The name of a reference is the one it ends in. -/
theorem Ref.nameOf_eq_iff
    {target name : String} :
    Ref.nameOf target = name ↔ Ref.EndsIn target name := by
  have asText :
      Ref.nameOf target = name ↔
        Text.afterLast '/' target.toList = name.toList := by
    unfold Ref.nameOf
    constructor
    · rintro rfl
      simp
    · intro same
      simp [same]
  rw [asText, Text.afterLast_eq_iff, Ref.EndsIn, String.toList_inj]
  refine and_congr_right fun _ => or_congr_right ?_
  constructor
  · rintro ⟨before, shape⟩
    refine ⟨String.ofList before, ?_⟩
    apply String.toList_inj.mp
    simp [shape]
  · rintro ⟨before, rfl⟩
    exact ⟨before.toList, by simp⟩

/--
A payload stands where it is written, or under the name that a reference ends in.

A component that is itself a reference stands for nothing.
-/
inductive Payload.Stands (named : Catalog String (Ref Payload)) :
    Ref Payload → Payload → Prop
  | inline (payload : Payload) :
      Stands named (.inline payload) payload
  | named {target name : String} {payload : Payload} :
      Ref.EndsIn target name →
      (name, .inline payload) ∈ named.entries →
      Stands named (.reference target) payload

/-- Looking up a payload finds the one that stands there. -/
theorem Document.payload?_eq_some_iff
    {named : Catalog String (Ref Payload)}
    {reference : Ref Payload}
    {payload : Payload} :
    Document.payload? named reference = some payload ↔
      Payload.Stands named reference payload := by
  cases reference with
  | inline written =>
      constructor
      · intro found
        simp only [Document.payload?, Option.some.injEq] at found
        subst found
        exact .inline written
      · intro stands
        cases stands
        rfl
  | reference target =>
      constructor
      · intro found
        simp only [Document.payload?] at found
        split at found
        · rename_i component declared
          cases found
          exact .named (Ref.nameOf_eq_iff.mp rfl) (Catalog.get?_eq_some_iff.mp declared)
        · simp at found
      · intro stands
        cases stands with
        | named ends member =>
            simp only [Document.payload?]
            rw [Ref.nameOf_eq_iff.mpr ends, Catalog.get?_eq_some_iff.mpr member]

/-- The first media type of a payload has a schema. -/
def Payload.FirstSchema (payload : Payload) (schema : Ref Schema) : Prop :=
  ∃ media rest, payload.content.entries = (media, some schema) :: rest

/-- A payload shows a schema when its first media type has it. -/
theorem Payload.firstMedia?_eq_some_iff
    {payload : Payload}
    {schema : Ref Schema} :
    payload.firstMedia? = some (some schema) ↔ payload.FirstSchema schema := by
  unfold Payload.firstMedia? Payload.FirstSchema Catalog.values
  cases payload.content.entries with
  | nil =>
      simp
  | cons entry rest =>
      obtain ⟨media, first⟩ := entry
      simp

/-- A payload without media types shows nothing. -/
theorem Payload.firstMedia?_eq_none_iff
    {payload : Payload} :
    payload.firstMedia? = none ↔ payload.content.entries = [] := by
  simp [Payload.firstMedia?, Catalog.values]

/-- The schema in the first media type of the request body of a call. -/
def Call.RequestSchema (document : Document) (call : Call) (schema : Ref Schema) : Prop :=
  ∃ body payload,
    call.requestBody = some body ∧
      Payload.Stands document.components.requestBodies body payload ∧
      payload.FirstSchema schema

/-- Extraction takes the schema of the request from the first media type of the body. -/
theorem Extraction.requestMedia?_eq_some_iff
    {document : Document}
    {call : Call}
    {schema : Ref Schema} :
    Extraction.requestMedia? document call = some (some schema) ↔
      call.RequestSchema document schema := by
  unfold Extraction.requestMedia? Call.RequestSchema Document.requestBody?
  simp only [bind, Option.bind_eq_some_iff, Document.payload?_eq_some_iff,
    Payload.firstMedia?_eq_some_iff]
  constructor
  · rintro ⟨body, written, payload, stands, first⟩
    exact ⟨body, payload, written, stands, first⟩
  · rintro ⟨body, payload, written, stands, first⟩
    exact ⟨body, written, payload, stands, first⟩

/--
The schema in the first media type of the first response that stands for success, can be
found and has a media type.
-/
def Call.ResponseSchema (document : Document) (call : Call) (schema : Ref Schema) : Prop :=
  ∃ earlier status response later payload,
    call.responses.entries = earlier ++ (status, response) :: later ∧
      status.isSuccess = true ∧
      Payload.Stands document.components.responses response payload ∧
      payload.FirstSchema schema ∧
      ∀ other ∈ earlier, other.1.isSuccess = true →
        ∀ passed, Payload.Stands document.components.responses other.2 passed →
          passed.content.entries = []

/-- What one declared response shows of success: nothing unless it stands for success. -/
def Call.shownBy? (document : Document) (entry : Status × Ref Payload) :
    Option (Option (Ref Schema)) :=
  if entry.1.isSuccess then
    (document.response? entry.2).bind Payload.firstMedia?
  else
    none

/-- The media type of success is the first that a declared response shows. -/
theorem Call.successMedia?_eq_findSome?
    (document : Document)
    (call : Call) :
    call.successMedia? document =
      call.responses.entries.findSome? (Call.shownBy? document) := by
  unfold Call.successMedia? Call.successes
  induction call.responses.entries with
  | nil =>
      rfl
  | cons entry rest inductionHypothesis =>
      by_cases success : entry.1.isSuccess = true
      · cases found : document.response? entry.2 with
        | none =>
            simpa [Call.shownBy?, success, found] using inductionHypothesis
        | some payload =>
            simp only [List.filter_cons, success, ↓reduceIte, List.filterMap_cons, found,
              List.findSome?_cons, Call.shownBy?, Option.bind_some]
            rw [← inductionHypothesis]
      · simpa [Call.shownBy?, success] using inductionHypothesis

/-- A declared response shows nothing when every payload that it stands for is empty. -/
theorem Call.shownBy?_eq_none_iff
    {document : Document}
    {entry : Status × Ref Payload} :
    Call.shownBy? document entry = none ↔
      (entry.1.isSuccess = true →
        ∀ passed, Payload.Stands document.components.responses entry.2 passed →
          passed.content.entries = []) := by
  unfold Call.shownBy? Document.response?
  by_cases success : entry.1.isSuccess = true
  · simp only [success, ↓reduceIte, Option.bind_eq_none_iff, true_implies,
      Document.payload?_eq_some_iff, Payload.firstMedia?_eq_none_iff]
  · simp [success]

/-- Extraction takes the schema of the response from the first success that has content. -/
theorem Call.successMedia?_eq_some_iff
    {document : Document}
    {call : Call}
    {schema : Ref Schema} :
    call.successMedia? document = some (some schema) ↔
      call.ResponseSchema document schema := by
  rw [Call.successMedia?_eq_findSome?, List.findSome?_eq_some_iff]
  constructor
  · rintro ⟨earlier, ⟨status, response⟩, later, shape, shown, hidden⟩
    unfold Call.shownBy? at shown
    split at shown
    · rename_i success
      obtain ⟨payload, found, first⟩ := Option.bind_eq_some_iff.mp shown
      exact ⟨earlier, status, response, later, payload, shape, success,
        Document.payload?_eq_some_iff.mp found, Payload.firstMedia?_eq_some_iff.mp first,
        fun other member => Call.shownBy?_eq_none_iff.mp (hidden other member)⟩
    · simp at shown
  · rintro ⟨earlier, status, response, later, payload, shape, success, stands, first, hidden⟩
    refine ⟨earlier, (status, response), later, shape, ?_,
      fun other member => Call.shownBy?_eq_none_iff.mpr (hidden other member)⟩
    have found : document.response? response = some payload :=
      Document.payload?_eq_some_iff.mpr stands
    simp [Call.shownBy?, success, found, Payload.firstMedia?_eq_some_iff.mpr first]

/-- A call writes a schema in place where it needs a named one, on this side. -/
inductive Call.Unnamed (document : Document) (call : Call) : Side → Prop
  | request {schema : Schema} :
      call.RequestSchema document (.inline schema) →
      Call.Unnamed document call .request
  | response {target : String} {schema : Schema} :
      call.RequestSchema document (.reference target) →
      call.ResponseSchema document (.inline schema) →
      Call.Unnamed document call .response

/-- A call has at most one schema of the request. -/
theorem Call.RequestSchema.unique
    {document : Document}
    {call : Call}
    {first second : Ref Schema}
    (firstSchema : call.RequestSchema document first)
    (secondSchema : call.RequestSchema document second) :
    first = second := by
  rw [← Extraction.requestMedia?_eq_some_iff] at firstSchema secondSchema
  simpa [firstSchema] using secondSchema

/-- A call has at most one schema of the response. -/
theorem Call.ResponseSchema.unique
    {document : Document}
    {call : Call}
    {first second : Ref Schema}
    (firstSchema : call.ResponseSchema document first)
    (secondSchema : call.ResponseSchema document second) :
    first = second := by
  rw [← Call.successMedia?_eq_some_iff] at firstSchema secondSchema
  simpa [firstSchema] using secondSchema

/-- A call lacks a name on one side at most. -/
theorem Call.Unnamed.unique
    {document : Document}
    {call : Call}
    {first second : Side}
    (firstSide : Call.Unnamed document call first)
    (secondSide : Call.Unnamed document call second) :
    first = second := by
  cases firstSide with
  | request written =>
      cases secondSide with
      | request =>
          rfl
      | response referred =>
          cases written.unique referred
  | response referred =>
      cases secondSide with
      | request written =>
          cases written.unique referred
      | response =>
          rfl

/-- A reference ends in one name only. -/
theorem Ref.EndsIn.unique
    {target first second : String}
    (firstEnd : Ref.EndsIn target first)
    (secondEnd : Ref.EndsIn target second) :
    first = second := by
  rw [← Ref.nameOf_eq_iff] at firstEnd secondEnd
  exact firstEnd.symm.trans secondEnd

end RpcStubs
