import RpcStubs.Proofs.Convention.Checks
import RpcStubs.Proofs.Extraction.Outcome
namespace RpcStubs.Convention

open Extraction (Declared Candidate Kept Brings)

/-!
# Accepted documents

What extraction makes of a document without violations.  Every path of such a document is an
unshadowed candidate whose request names a declared schema; nothing offends.  One gap is left
by the checks: the content of a success may have no schema, and its path then makes no
operation.
-/

/-- A declared path that breaches nothing, with its route and its call. -/
structure Conforms (document : Document) (entry : Declared) (route : Route) (call : Call) :
    Prop where
  candidate : Candidate entry route call
  request :
    ∃ target,
      call.RequestSchema document (.reference target) ∧
        document.declaresSchema target = true
  response :
    ∀ schema,
      call.ResponseSchema document schema →
        ∃ target, schema = .reference target ∧ document.declaresSchema target = true

/-- A path without violations conforms. -/
theorem conforms_of_pathViolations_eq_nil
    {document : Document}
    {entry : Declared}
    (quiet : pathViolations document entry.1 entry.2 = []) :
    ∃ route call, Conforms document entry route call := by
  obtain ⟨path, declared⟩ := entry
  cases declared with
  | reference target =>
      simp [pathViolations] at quiet
  | inline item =>
      simp only [pathViolations, List.map_eq_nil_iff, List.filterMap_eq_nil_iff, checks,
        List.forall_mem_cons] at quiet
      obtain ⟨onPath, onVerbs, onBody, onRequest, _, onNamedRequest, onNamedResponse,
        onDeclared, _⟩ := quiet
      obtain ⟨route, parsed⟩ := checkPath_eq_none_iff.mp onPath
      obtain ⟨⟨call, posted⟩, _⟩ := checkVerbs_eq_none_iff.mp onVerbs
      obtain ⟨body, written⟩ := (checkBody_eq_none_iff posted).mp onBody
      obtain ⟨schema, selected⟩ := (checkRequestSchema_eq_none_iff posted written).mp onRequest
      obtain ⟨target, rfl⟩ :=
        (checkNamedRequest_eq_none_iff posted).mp onNamedRequest schema selected
      have declared := (checkDeclared_eq_none_iff posted).mp onDeclared
      refine ⟨route, call, ⟨parsed, item, rfl, posted⟩,
        ⟨target, selected, declared target (.inl selected)⟩, ?_⟩
      intro answer answered
      obtain ⟨answerTarget, rfl⟩ :=
        (checkNamedResponse_eq_none_iff posted).mp onNamedResponse answer answered
      exact ⟨answerTarget, rfl, declared answerTarget (.inr answered)⟩

/-- The methods that some paths derive, in the order of the paths. -/
def derivedMethods (paths : List String) : List String :=
  paths.filterMap fun path => (Route.parse? path).map Route.methodName

/-- Without collisions, the methods are new and pairwise different. -/
theorem derivedMethods_of_collisions_eq_nil
    {seen : List (String × String)}
    {paths : List String}
    (quiet : collisions seen paths = []) :
    (derivedMethods paths).Nodup ∧
      ∀ method ∈ derivedMethods paths, seen.lookup method = none := by
  induction paths generalizing seen with
  | nil =>
      simp [derivedMethods]
  | cons path rest inductionHypothesis =>
      unfold collisions at quiet
      cases parsed : Route.parse? path with
      | none =>
          simp only [parsed] at quiet
          simpa [derivedMethods, parsed] using inductionHypothesis quiet
      | some route =>
          cases found : seen.lookup route.methodName with
          | some first =>
              simp [parsed, found] at quiet
          | none =>
              simp only [parsed, found] at quiet
              obtain ⟨noDuplicates, fresh⟩ := inductionHypothesis quiet
              have methods :
                  derivedMethods (path :: rest) =
                    route.methodName :: derivedMethods rest := by
                simp [derivedMethods, parsed]
              have apart :
                  ∀ method ∈ derivedMethods rest,
                    seen.lookup method = none ∧ method ≠ route.methodName := by
                intro method member
                have unseen := fresh method member
                rw [List.lookup_append, Option.or_eq_none_iff, List.lookup_singleton] at unseen
                refine ⟨unseen.1, ?_⟩
                intro same
                simp [same] at unseen
              rw [methods]
              constructor
              · refine List.nodup_cons.mpr ⟨?_, noDuplicates⟩
                intro member
                exact (apart _ member).2 rfl
              · rintro method member
                rcases List.mem_cons.mp member with rfl | later
                · exact found
                · exact (apart method later).1

/-- The methods of kept operations are derived from the paths, in order. -/
theorem methodNames_sublist
    {document : Document}
    {entries : List Declared}
    {kept : List Operation}
    (keptSoFar : Kept document entries kept) :
    (kept.map Operation.methodName).Sublist (derivedMethods (entries.map Prod.fst)) := by
  induction keptSoFar with
  | start =>
      exact .slnil
  | @keep entries kept entry operation _ brought inductionHypothesis =>
      obtain ⟨route, call, ⟨parsed, _⟩, _, describes⟩ := brought
      have derived : derivedMethods [entry.1] = [route.methodName] := by
        simp [derivedMethods, parsed]
      rw [List.map_append, List.map_append, derivedMethods, List.filterMap_append]
      refine inductionHypothesis.append ?_
      simp only [List.map_cons, List.map_nil, describes.methodName]
      exact derived ▸ List.Sublist.refl _
  | @pass entries kept entry _ _ inductionHypothesis =>
      rw [List.map_append, derivedMethods, List.filterMap_append]
      exact inductionHypothesis.trans (List.sublist_append_left _ _)

/-- Whether the content that stands for the success of a path has a schema. -/
def answers (document : Document) : Declared → Bool
  | (_, .inline item) => (responseSchema? document item).isSome
  | (_, .reference _) => false

theorem answers_iff
    {document : Document}
    {entry : Declared}
    {route : Route}
    {call : Call}
    (candidate : Candidate entry route call) :
    answers document entry = true ↔ ∃ schema, call.ResponseSchema document schema := by
  obtain ⟨path, declared⟩ := entry
  obtain ⟨_, item, rfl, posted⟩ := candidate
  simp [answers, Option.isSome_iff_exists, responseSchema?_eq_some_iff posted]

/-- A conforming path does not offend, whatever is kept before it. -/
theorem Conforms.not_offends
    {document : Document}
    {entry : Declared}
    {route : Route}
    {call : Call}
    (conforms : Conforms document entry route call)
    (kept : List Operation)
    (side : Side) :
    ¬Extraction.Offends document kept entry side := by
  rintro ⟨otherRoute, otherCall, other, _, unnamed⟩
  obtain ⟨_, rfl⟩ := conforms.candidate.unique other
  cases unnamed with
  | request written =>
      obtain ⟨target, referred, _⟩ := conforms.request
      cases referred.unique written
  | response _ written =>
      obtain ⟨target, impossible, _⟩ := conforms.response _ written
      cases impossible

/-- A conforming path that answers brings an operation, unless it is shadowed. -/
theorem Conforms.brings
    {document : Document}
    {entry : Declared}
    {route : Route}
    {call : Call}
    (conforms : Conforms document entry route call)
    {kept : List Operation}
    (unshadowed : Extraction.Unshadowed kept route)
    (answered : answers document entry = true) :
    ∃ operation, Brings document kept entry operation := by
  obtain ⟨target, referred, _⟩ := conforms.request
  obtain ⟨schema, selected⟩ := (answers_iff conforms.candidate).mp answered
  obtain ⟨answerTarget, rfl, _⟩ := conforms.response schema selected
  exact conforms.candidate.brings unshadowed referred selected

/-- An operation that a conforming path brings has declared message names. -/
theorem Conforms.declares
    {document : Document}
    {entry : Declared}
    {route : Route}
    {call : Call}
    (conforms : Conforms document entry route call)
    {kept : List Operation}
    {operation : Operation}
    (brought : Brings document kept entry operation) :
    document.components.schemas.contains operation.requestType = true ∧
      document.components.schemas.contains operation.responseType = true := by
  have named {target name : String}
      (declared : document.declaresSchema target = true)
      (ends : Ref.EndsIn target name) :
      document.components.schemas.contains name = true := by
    rw [Document.declaresSchema, Bool.and_eq_true, Ref.nameOf_eq_iff.mpr ends] at declared
    exact declared.2
  obtain ⟨otherRoute, otherCall, other, _, describes⟩ := brought
  obtain ⟨_, rfl⟩ := conforms.candidate.unique other
  constructor
  · obtain ⟨target, referred, ends⟩ := describes.request
    obtain ⟨otherTarget, otherReferred, declared⟩ := conforms.request
    cases referred.unique otherReferred
    exact named declared ends
  · obtain ⟨target, answered, ends⟩ := describes.response
    obtain ⟨otherTarget, same, declared⟩ := conforms.response _ answered
    cases same
    exact named declared ends

/-- Among conforming paths with different methods, those that answer are kept. -/
theorem paths_of_kept
    {document : Document}
    {entries : List Declared}
    {kept : List Operation}
    (keptSoFar : Kept document entries kept)
    (conform : ∀ entry ∈ entries, ∃ route call, Conforms document entry route call)
    (apart : (derivedMethods (entries.map Prod.fst)).Nodup) :
    kept.map Operation.path = (entries.filter (answers document)).map Prod.fst ∧
      ∀ operation ∈ kept,
        document.components.schemas.contains operation.requestType = true ∧
          document.components.schemas.contains operation.responseType = true := by
  induction keptSoFar with
  | start =>
      simp
  | @keep entries kept entry operation earlier brought inductionHypothesis =>
      obtain ⟨route, call, conforms⟩ := conform entry (by simp)
      have apartBefore : (derivedMethods (entries.map Prod.fst)).Nodup := by
        rw [List.map_append, derivedMethods, List.filterMap_append] at apart
        exact (List.nodup_append.mp apart).1
      obtain ⟨samePaths, declared⟩ :=
        inductionHypothesis (fun other member => conform other (by simp [member])) apartBefore
      have answered : answers document entry = true := by
        obtain ⟨_, otherCall, candidate, _, describes⟩ := brought
        obtain ⟨target, selected, _⟩ := describes.response
        exact (answers_iff candidate).mpr ⟨_, selected⟩
      have samePath : operation.path = entry.1 := by
        obtain ⟨_, _, _, _, describes⟩ := brought
        exact describes.path
      constructor
      · simp [samePaths, samePath, answered]
      · intro other member
        rcases List.mem_append.mp member with inEarlier | isLast
        · exact declared other inEarlier
        · cases List.mem_singleton.mp isLast
          exact conforms.declares brought
  | @pass entries kept entry earlier passed inductionHypothesis =>
      obtain ⟨route, call, conforms⟩ := conform entry (by simp)
      have methods :
          derivedMethods ((entries ++ [entry]).map Prod.fst) =
            derivedMethods (entries.map Prod.fst) ++ [route.methodName] := by
        simp [derivedMethods, conforms.candidate.1]
      rw [methods, List.nodup_append] at apart
      obtain ⟨samePaths, declared⟩ :=
        inductionHypothesis (fun other member => conform other (by simp [member])) apart.1
      have silent : answers document entry = false := by
        cases answered : answers document entry with
        | false =>
            rfl
        | true =>
            have unshadowed : Extraction.Unshadowed kept route := by
              intro operation member
              exact apart.2.2 operation.methodName
                ((methodNames_sublist earlier).subset (List.mem_map_of_mem member))
                route.methodName (by simp)
            obtain ⟨operation, brought⟩ := conforms.brings unshadowed answered
            exact (passed operation brought).elim
      exact ⟨by simp [samePaths, silent], declared⟩

/-- What an accepted document demands of its paths, one by one and together. -/
theorem conform_of_violations_eq_nil
    {document : Document}
    (accepted : document.violations = []) :
    (∀ entry ∈ document.paths.entries, ∃ route call, Conforms document entry route call) ∧
      (derivedMethods document.paths.names).Nodup := by
  simp only [Document.violations, List.append_eq_nil_iff, List.flatMap_eq_nil_iff] at accepted
  obtain ⟨⟨quietPaths, quietMethods⟩, _⟩ := accepted
  exact ⟨fun entry member => conforms_of_pathViolations_eq_nil (quietPaths entry member),
    (derivedMethods_of_collisions_eq_nil quietMethods).1⟩

/-- Extraction keeps from an accepted document exactly the paths that answer. -/
theorem operations_of_violations_eq_nil
    {document : Document}
    (accepted : document.violations = []) :
    ∃ operations,
      document.operations = .ok operations ∧
        operations.map Operation.path =
          (document.paths.entries.filter (answers document)).map Prod.fst ∧
        ∀ operation ∈ operations,
          document.components.schemas.contains operation.requestType = true ∧
            document.components.schemas.contains operation.responseType = true := by
  obtain ⟨conform, apart⟩ := conform_of_violations_eq_nil accepted
  cases result : document.operations with
  | ok operations =>
      obtain ⟨_, keptAll⟩ := Extraction.operations_eq_ok_iff.mp result
      exact ⟨operations, rfl, paths_of_kept keptAll conform apart⟩
  | error failure =>
      obtain ⟨path, side, _, earlier, item, later, shape, ⟨kept, _, offends⟩, _⟩ :=
        Extraction.operations_eq_error_iff.mp result
      obtain ⟨route, call, conforms⟩ := conform (path, item) (by simp [shape])
      exact (conforms.not_offends kept side offends).elim

/-- Extraction makes one operation of every path, in order, with declared message names. -/
def KeepsEveryPath (document : Document) : Prop :=
  ∃ operations,
    document.operations = .ok operations ∧
      operations.map Operation.path = document.paths.names ∧
      ∀ operation ∈ operations,
        document.components.schemas.contains operation.requestType = true ∧
          document.components.schemas.contains operation.responseType = true

/--
An accepted document keeps every path exactly when every path answers.

Whatever it loses are the paths whose first success with content has a media type without a
schema; the checks demand a schema of the request only.
-/
theorem keepsEveryPath_iff_of_accepted
    {document : Document}
    (accepted : document.violations = []) :
    KeepsEveryPath document ↔
      ∀ entry ∈ document.paths.entries, answers document entry = true := by
  obtain ⟨operations, extracted, paths, declared⟩ := operations_of_violations_eq_nil accepted
  constructor
  · rintro ⟨others, otherExtracted, allPaths, _⟩
    rw [extracted] at otherExtracted
    cases otherExtracted
    have lengths := congrArg List.length (paths.symm.trans allPaths)
    rw [Catalog.names, List.length_map, List.length_map] at lengths
    exact List.length_filter_eq_length_iff.mp lengths
  · intro answered
    refine ⟨operations, extracted, ?_, declared⟩
    rw [paths, List.filter_eq_self.mpr answered]
    rfl

/-- A call that takes a user, and answers with one media type after two empty answers. -/
def userCall (media : Option (Ref Schema)) : Call where
  requestBody := some (.reference "#/components/requestBodies/User")
  responses := { entries := [
    (.code 404, .inline {}),
    (.code 204, .inline {}),
    (.range 2, .inline { content := { entries := [("application/json", media)] } })] }

/-- A document with two calls, the second of which answers with a given media type. -/
def userDocument (media : Option (Ref Schema)) : Document where
  openapi := "3.0.3"
  title := "Users"
  version := "1.0.0"
  paths := { entries := [
    ("/v1/users.create",
      .inline { post := some (userCall (some (.reference "#/components/schemas/User"))) }),
    ("/v1/users.update", .inline { post := some (userCall media) })] }
  components := {
    schemas := { entries := [("User", .inline (.object [] none))] }
    requestBodies := { entries := [("User", .inline
      { content := { entries := [("application/json",
          some (.reference "#/components/schemas/User"))] } })] } }

/-- The document keeps both paths when its second call answers with a user. -/
theorem userDocument_keepsEveryPath :
    (userDocument (some (.reference "#/components/schemas/User"))).violations = [] ∧
      KeepsEveryPath (userDocument (some (.reference "#/components/schemas/User"))) := by
  have accepted :
      (userDocument (some (.reference "#/components/schemas/User"))).violations = [] := by
    decide +kernel
  exact ⟨accepted, (keepsEveryPath_iff_of_accepted accepted).mpr (by decide +kernel)⟩

/-- The document is accepted and loses a path when its second answer has no schema. -/
theorem userDocument_loses_path :
    (userDocument none).violations = [] ∧ ¬KeepsEveryPath (userDocument none) := by
  refine ⟨by decide +kernel, ?_⟩
  rintro ⟨operations, extracted, paths, _⟩
  have kept :
      (userDocument none).operations.map (List.map Operation.path) =
        .ok ["/v1/users.create"] := by
    rfl
  rw [extracted, Except.map, paths] at kept
  simp [userDocument, Catalog.names] at kept

end RpcStubs.Convention
