import RpcStubs.Proofs.Convention.Accepted
import RpcStubs.Proofs.Convention.References
namespace RpcStubs

/-!
# Followed references

Which references extraction follows from the calls of a document, and what they reach.  In an
accepted document each of them reaches a component of the section that it is looked up in, but
only its last segment takes part in that.  So a reference into another file, into another section
or below a component reaches the component of that name all the same; a followed reference spells
the component that it reaches exactly when no further slash stands behind its section.
-/

/-- The sections of the components that calls refer to. -/
inductive Section
  | requestBodies
  | responses
  | schemas
deriving Repr, DecidableEq

namespace Section

/-- The name of a section. -/
def text : Section → String
  | requestBodies => "requestBodies"
  | responses => "responses"
  | schemas => "schemas"

/-- What a reference into a section starts with. -/
def start (part : Section) : String :=
  "#/components/" ++ part.text ++ "/"

/-- The names of the components that a document declares in a section. -/
def names (document : Document) : Section → List String
  | requestBodies => document.components.requestBodies.names
  | responses => document.components.responses.names
  | schemas => document.components.schemas.names

/-- A reference is looked up under a name that its section declares. -/
def Finds (document : Document) (part : Section) (target name : String) : Prop :=
  Ref.EndsIn target name ∧ name ∈ part.names document

/-- Behind the start of a section, a text without slashes is what a reference ends in. -/
theorem endsIn_start
    (part : Section)
    {name : String}
    (plain : '/' ∉ name.toList) :
    Ref.EndsIn (part.start ++ name) name :=
  ⟨plain, .inr ⟨"#/components/" ++ part.text, rfl⟩⟩

end Section

namespace Call

/-- A response stands for the success of a call: the first that can be found with content. -/
def Chosen (document : Document) (call : Call) (response : Ref Payload) (payload : Payload) :
    Prop :=
  ∃ earlier status later,
    call.responses.entries = earlier ++ (status, response) :: later ∧
      status.isSuccess = true ∧
      Payload.Stands document.components.responses response payload ∧
      payload.content.entries ≠ [] ∧
      ∀ other ∈ earlier, Call.shownBy? document other = none

/-- The media type of success is the first one of the response that stands for success. -/
theorem successMedia?_eq_some_iff_chosen
    {document : Document}
    {call : Call}
    {media : Option (Ref Schema)} :
    call.successMedia? document = some media ↔
      ∃ response payload,
        call.Chosen document response payload ∧ payload.firstMedia? = some media := by
  rw [successMedia?_eq_findSome?, List.findSome?_eq_some_iff]
  constructor
  · rintro ⟨earlier, ⟨status, response⟩, later, shape, shown, hidden⟩
    unfold shownBy? at shown
    split at shown
    · rename_i success
      obtain ⟨payload, found, first⟩ := Option.bind_eq_some_iff.mp shown
      refine ⟨response, payload, ⟨earlier, status, later, shape, success,
        Document.payload?_eq_some_iff.mp found, ?_, hidden⟩, first⟩
      intro empty
      rw [Payload.firstMedia?_eq_none_iff.mpr empty] at first
      cases first
    · cases shown
  · rintro ⟨response, payload, chosen, first⟩
    obtain ⟨earlier, status, later, shape, success, stands, _, hidden⟩ := chosen
    have found : document.response? response = some payload :=
      Document.payload?_eq_some_iff.mpr stands
    refine ⟨earlier, (status, response), later, shape, ?_, hidden⟩
    simp [shownBy?, success, found, first]

/-- A call has a reference that extraction follows, and looks up in this section. -/
inductive Follows (document : Document) (call : Call) : Section → String → Prop
  | body {target : String} :
      call.requestBody = some (.reference target) →
      Follows document call .requestBodies target
  | response {target : String} {payload : Payload} :
      call.Chosen document (.reference target) payload →
      Follows document call .responses target
  | requestSchema {target : String} :
      call.RequestSchema document (.reference target) →
      Follows document call .schemas target
  | responseSchema {target : String} :
      call.ResponseSchema document (.reference target) →
      Follows document call .schemas target

end Call

/-- A payload that a reference stands for is declared under what the reference ends in. -/
theorem Payload.Stands.exists_name
    {named : Catalog String (Ref Payload)}
    {target : String}
    {payload : Payload}
    (stands : Payload.Stands named (.reference target) payload) :
    ∃ name, Ref.EndsIn target name ∧ name ∈ named.names := by
  cases stands with
  | named ends member =>
      exact ⟨_, ends, List.mem_map_of_mem member⟩

namespace Convention.Conforms

variable {document : Document} {entry : Extraction.Declared} {route : Route} {call : Call}

/-- A schema that a conforming call refers to is declared. -/
theorem declares_schema
    (conforms : Conforms document entry route call)
    {target : String}
    (followed : call.Follows document .schemas target) :
    document.Declares target := by
  cases followed with
  | requestSchema referred =>
      obtain ⟨other, otherReferred, declared⟩ := conforms.request
      cases referred.unique otherReferred
      exact Document.declaresSchema_iff.mp declared
  | responseSchema answered =>
      obtain ⟨other, same, declared⟩ := conforms.response _ answered
      cases same
      exact Document.declaresSchema_iff.mp declared

/-- Every reference that is followed from a conforming call reaches a component. -/
theorem exists_finds
    (conforms : Conforms document entry route call)
    {part : Section}
    {target : String}
    (followed : call.Follows document part target) :
    ∃ name, part.Finds document target name := by
  cases part with
  | requestBodies =>
      cases followed with
      | body written =>
          obtain ⟨_, ⟨body, payload, otherWritten, stands, _⟩, _⟩ := conforms.request
          cases written.symm.trans otherWritten
          exact stands.exists_name
  | responses =>
      cases followed with
      | response chosen =>
          obtain ⟨_, _, _, _, _, stands, _⟩ := chosen
          exact stands.exists_name
  | schemas =>
      obtain ⟨_, name, named, ends⟩ := conforms.declares_schema followed
      exact ⟨name, ends, named⟩

end Convention.Conforms

namespace Document

/-- Some path of a document has a call with a reference that extraction follows. -/
def Follows (document : Document) (part : Section) (target : String) : Prop :=
  ∃ path item call,
    (path, .inline item) ∈ document.paths.entries ∧
      item.post = some call ∧ call.Follows document part target

/-- Every followed reference spells the component that it reaches. -/
def FollowsExactly (document : Document) : Prop :=
  ∀ part target,
    document.Follows part target →
      ∃ name, part.Finds document target name ∧ target = part.start ++ name

/-- What is followed in an accepted document is followed from a conforming call. -/
theorem exists_conforms_of_follows
    {document : Document}
    (accepted : document.violations = [])
    {part : Section}
    {target : String}
    (follows : document.Follows part target) :
    ∃ entry route call,
      Convention.Conforms document entry route call ∧ call.Follows document part target := by
  obtain ⟨path, item, call, member, posted, followed⟩ := follows
  obtain ⟨route, other, conforms⟩ :=
    (Convention.conform_of_violations_eq_nil accepted).1 _ member
  obtain ⟨_, otherItem, sameItem, otherPosted⟩ := conforms.candidate
  cases sameItem
  cases posted.symm.trans otherPosted
  exact ⟨_, route, call, conforms, followed⟩

/--
In an accepted document every followed reference reaches a component of its own section.

A reference to a schema also points into the schemas.  Nothing else of a reference is compared
with the component, so all of them spell what they reach exactly when each has no slash behind
the start of its section.
-/
theorem follows_within_sections
    {document : Document}
    (accepted : document.violations = []) :
    (∀ part target,
        document.Follows part target →
          (∃ name, part.Finds document target name) ∧
            (part = .schemas → ∃ rest, target = part.start ++ rest)) ∧
      (document.FollowsExactly ↔
        ∀ part target,
          document.Follows part target →
            ∃ rest, '/' ∉ rest.toList ∧ target = part.start ++ rest) := by
  have reaches (part : Section) (target : String) (follows : document.Follows part target) :
      ∃ name, part.Finds document target name := by
    obtain ⟨entry, route, call, conforms, followed⟩ :=
      exists_conforms_of_follows accepted follows
    exact conforms.exists_finds followed
  refine ⟨?_, ?_, ?_⟩
  · intro part target follows
    refine ⟨reaches part target follows, ?_⟩
    rintro rfl
    obtain ⟨entry, route, call, conforms, followed⟩ :=
      exists_conforms_of_follows accepted follows
    exact (conforms.declares_schema followed).1
  · intro exactly part target follows
    obtain ⟨name, ⟨⟨plain, _⟩, _⟩, spelled⟩ := exactly part target follows
    exact ⟨name, plain, spelled⟩
  · intro spelled part target follows
    obtain ⟨rest, plain, rfl⟩ := spelled part target follows
    obtain ⟨name, ends, declared⟩ := reaches part _ follows
    cases ends.unique (part.endsIn_start plain)
    exact ⟨rest, ⟨ends, declared⟩, rfl⟩

/-- The content of one media type with a reference to a schema. -/
def referringPayload (schema : String) : Ref Payload :=
  .inline { content := Catalog.ofList [("application/json", some (.reference schema))] }

/-- A document with one call, which refers to a body and an answer of one schema. -/
def sharedDocument (body response schema : String) : Document where
  openapi := "3.0.3"
  title := "Users"
  version := "1.0.0"
  paths := Catalog.ofList [
    ("/v1/users.create", .inline { post := some {
      requestBody := some (.reference body)
      responses := Catalog.ofList [(.code 200, .reference response)] } })]
  components := {
    schemas := Catalog.ofList [("User", .inline (.object [] none))]
    requestBodies := Catalog.ofList [("User", referringPayload schema)]
    responses := Catalog.ofList [("User", referringPayload schema)] }

/-- Spelled in full, the references of the document are the components that they reach. -/
theorem sharedDocument_followsExactly :
    let document :=
      sharedDocument "#/components/requestBodies/User" "#/components/responses/User"
        "#/components/schemas/User"
    document.violations = [] ∧ document.FollowsExactly := by
  intro document
  have accepted : document.violations = [] := by
    decide +kernel
  refine ⟨accepted, (follows_within_sections accepted).2.mpr ?_⟩
  rintro part target ⟨path, item, call, member, posted, followed⟩
  cases List.mem_singleton.mp member
  cases posted
  refine ⟨"User", by decide, ?_⟩
  cases followed with
  | body written =>
      cases written
      rfl
  | response chosen =>
      obtain ⟨earlier, status, later, shape, _⟩ := chosen
      cases (List.append_eq_cons_iff.mp shape.symm) with
      | inl first =>
          cases first.2
          rfl
      | inr below =>
          obtain ⟨_, _, impossible⟩ := below
          simp at impossible
  | requestSchema referred =>
      cases Extraction.requestMedia?_eq_some_iff.mpr referred
      rfl
  | responseSchema answered =>
      cases Call.successMedia?_eq_some_iff.mpr answered
      rfl

/-- References into a file, into another section and below a schema reach the same components. -/
theorem sharedDocument_follows_last_segment :
    let document :=
      sharedDocument "bodies.yaml#/User" "#/components/requestBodies/User"
        "#/components/schemas/Group/User"
    document.violations = [] ∧
      document.Follows .requestBodies "bodies.yaml#/User" ∧
      document.Follows .responses "#/components/requestBodies/User" ∧
      document.Follows .schemas "#/components/schemas/Group/User" ∧
      ¬document.FollowsExactly := by
  intro document
  have ofBody : document.Follows .requestBodies "bodies.yaml#/User" :=
    ⟨_, _, _, List.mem_singleton.mpr rfl, rfl, .body rfl⟩
  refine ⟨by decide +kernel, ofBody, ?_, ?_, ?_⟩
  · exact ⟨_, _, _, List.mem_singleton.mpr rfl, rfl, .response
      ⟨[], .code 200, [], rfl, rfl, Document.payload?_eq_some_iff.mp rfl, List.cons_ne_nil _ _,
        by simp⟩⟩
  · exact ⟨_, _, _, List.mem_singleton.mpr rfl, rfl,
      .requestSchema (Extraction.requestMedia?_eq_some_iff.mp rfl)⟩
  · intro exactly
    obtain ⟨name, _, spelled⟩ := exactly _ _ ofBody
    have sameFirst := congrArg (fun text => text.toList.head?) spelled
    rw [String.toList_append] at sameFirst
    cases sameFirst

end Document

end RpcStubs
