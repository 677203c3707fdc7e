import RpcStubs.Proofs.Convention.Checks
import RpcStubs.Proofs.Convention.References
import RpcStubs.Proofs.Extraction.Outcome
namespace RpcStubs

/-!
# Schemas written in place

The convention and extraction judge the same schemas.  The rules for named schemas are broken
exactly at the calls that select a schema written in place, on the side where they do; and
extraction only ever fails at such a call.  So a document that breaks neither rule is
extracted.
-/

/-- The schema that a call selects on a side. -/
def Call.Selects (document : Document) (call : Call) : Side → Ref Schema → Prop
  | .request => call.RequestSchema document
  | .response => call.ResponseSchema document

/-- A call that lacks a name on a side selects a schema there that is written in place. -/
theorem Call.Unnamed.selects
    {document : Document}
    {call : Call}
    {side : Side}
    (unnamed : Call.Unnamed document call side) :
    ∃ schema, call.Selects document side (.inline schema) := by
  cases unnamed with
  | request written =>
      exact ⟨_, written⟩
  | response _ written =>
      exact ⟨_, written⟩

namespace Convention

variable {document : Document} {path : String} {item : PathItem} {side : Side}

/-- The rule that the schema of a side must be a named one. -/
def namedRule : Side → String
  | .request => "named-request"
  | .response => "named-response"

/-- The rule is broken by schemas written in place, and by nothing else. -/
theorem rule_eq_namedRule_iff
    {breach : Breach} :
    breach.rule = namedRule side ↔ breach = .schemaInline side := by
  cases breach with
  | schemaInline other =>
      cases other <;> cases side <;> decide
  | pathReferenced | pathMalformed _ | postMissing | verbsBesides _ | bodyMissing
  | bodyUnresolved | requestSchemaMissing | requestContentMissing | successContentMissing
  | schemaUnresolved _ | methodTaken _ _ =>
      cases side <;> simp [Breach.rule, namedRule]

/-- A selected schema breaks the rule of its side when it is written in place. -/
theorem bind_inlineBreach?_eq_some_iff
    {own : Side}
    {selected : Option (Ref Schema)} :
    selected.bind (inlineBreach? own) = some (.schemaInline side) ↔
      own = side ∧ ∃ schema, selected = some (.inline schema) := by
  rcases selected with _ | (target | schema)
  · simp
  · simp [inlineBreach?]
  · simp [inlineBreach?]

/--
A check that looks at one schema of the call breaks the rule of its side when the call selects
one there that is written in place.
-/
theorem bind_inlineBreach?_of_selected
    {own : Side}
    {found : Option (Ref Schema)}
    (withoutCall : item.post = none → found = none)
    (selected : ∀ call, item.post = some call →
      ∀ schema, found = some schema ↔ call.Selects document own schema) :
    found.bind (inlineBreach? own) = some (.schemaInline side) ↔
      own = side ∧
        ∃ call schema,
          item.post = some call ∧ call.Selects document own (.inline schema) := by
  rw [bind_inlineBreach?_eq_some_iff]
  refine and_congr_right fun _ => ?_
  cases posted : item.post with
  | none =>
      simp [withoutCall posted]
  | some call =>
      simp [selected call posted]

theorem checkNamedRequest_eq_some_iff :
    checkNamedRequest document path item = some (.schemaInline side) ↔
      .request = side ∧
        ∃ call schema,
          item.post = some call ∧ call.RequestSchema document (.inline schema) :=
  bind_inlineBreach?_of_selected (fun posted => by simp [requestSchema?, posted])
    fun _ posted _ => requestSchema?_eq_some_iff posted

theorem checkNamedResponse_eq_some_iff :
    checkNamedResponse document path item = some (.schemaInline side) ↔
      .response = side ∧
        ∃ call schema,
          item.post = some call ∧ call.ResponseSchema document (.inline schema) :=
  bind_inlineBreach?_of_selected (fun posted => by simp [responseSchema?, posted])
    fun _ posted _ => responseSchema?_eq_some_iff posted

theorem checkRequestSchema_ne_inline :
    checkRequestSchema document path item ≠ some (.schemaInline side) := by
  cases posted : item.post with
  | none =>
      simp [checkRequestSchema, posted]
  | some call =>
      cases written : call.requestBody with
      | none =>
          simp [checkRequestSchema, posted, written]
      | some body =>
          simp only [checkRequestSchema, posted, written, bind, Option.bind_some]
          repeat' split
          all_goals simp

/-- The other checks of a path do not look for schemas written in place. -/
theorem named_of_inline
    {check : Check}
    (member : check ∈ checks)
    (broken : check document path item = some (.schemaInline side)) :
    check = checkNamedRequest ∨ check = checkNamedResponse := by
  simp only [checks, List.mem_cons, List.not_mem_nil, or_false] at member
  rcases member with rfl | rfl | rfl | rfl | rfl | rfl | rfl | rfl
  · unfold checkPath at broken
    split at broken <;> simp at broken
  · unfold checkVerbs at broken
    repeat' split at broken
    all_goals simp at broken
  · unfold checkBody at broken
    repeat' split at broken
    all_goals simp at broken
  · exact (checkRequestSchema_ne_inline broken).elim
  · unfold checkSuccess at broken
    repeat' split at broken
    all_goals simp at broken
  · exact Or.inl rfl
  · exact Or.inr rfl
  · simp only [checkDeclared] at broken
    split at broken <;> simp at broken

/-- The checks of a path find the schemas written in place that its call selects. -/
theorem exists_check_inline_iff :
    (∃ check ∈ checks, check document path item = some (.schemaInline side)) ↔
      ∃ call schema, item.post = some call ∧ call.Selects document side (.inline schema) := by
  constructor
  · rintro ⟨check, member, broken⟩
    rcases named_of_inline member broken with rfl | rfl
    · obtain ⟨rfl, written⟩ := checkNamedRequest_eq_some_iff.mp broken
      exact written
    · obtain ⟨rfl, written⟩ := checkNamedResponse_eq_some_iff.mp broken
      exact written
  · intro written
    cases side with
    | request =>
        exact ⟨checkNamedRequest, by simp [checks],
          checkNamedRequest_eq_some_iff.mpr ⟨rfl, written⟩⟩
    | response =>
        exact ⟨checkNamedResponse, by simp [checks],
          checkNamedResponse_eq_some_iff.mpr ⟨rfl, written⟩⟩

/-- A path item breaks the rule of a side when its call selects a schema written in place. -/
theorem mem_pathViolations_inline_iff
    {declared : Ref PathItem}
    {place : String} :
    ⟨place, .schemaInline side⟩ ∈ pathViolations document path declared ↔
      place = path ∧
        ∃ item call schema,
          declared = .inline item ∧ item.post = some call ∧
            call.Selects document side (.inline schema) := by
  cases declared with
  | reference target =>
      simp [pathViolations]
  | inline item =>
      simp only [pathViolations, List.mem_map, List.mem_filterMap, Violation.mk.injEq,
        Ref.inline.injEq]
      rw [eq_comm (a := place)]
      constructor
      · rintro ⟨_, broken, rfl, rfl⟩
        obtain ⟨call, schema, selected⟩ := exists_check_inline_iff.mp broken
        exact ⟨rfl, item, call, schema, rfl, selected⟩
      · rintro ⟨rfl, _, call, schema, rfl, selected⟩
        exact ⟨_, exists_check_inline_iff.mpr ⟨call, schema, selected⟩, rfl, rfl⟩

/-- The rules for named schemas are broken exactly where a call selects one written in place. -/
theorem mem_violations_inline_iff :
    ⟨path, .schemaInline side⟩ ∈ document.violations ↔
      ∃ item call schema,
        (path, .inline item) ∈ document.paths.entries ∧ item.post = some call ∧
          call.Selects document side (.inline schema) := by
  rw [mem_violations_iff]
  constructor
  · rintro (⟨other, declared, member, violates⟩ | taken | ⟨name, schema, member, violates⟩)
    · obtain ⟨rfl, item, call, schema, rfl, selected⟩ :=
        mem_pathViolations_inline_iff.mp violates
      exact ⟨item, call, schema, member, selected⟩
    · obtain ⟨_, _, impossible⟩ := breach_of_mem_collisions taken
      cases impossible
    · obtain ⟨_, impossible, _⟩ := mem_componentViolations_iff.mp violates
      cases impossible
  · rintro ⟨item, call, schema, member, selected⟩
    exact Or.inl ⟨path, .inline item, member,
      mem_pathViolations_inline_iff.mpr ⟨rfl, item, call, schema, rfl, selected⟩⟩

/-- Extraction fails only at a path that breaks the rule of the side that it names. -/
theorem mem_violations_of_operations_eq_error
    (failed : document.operations = .error (.inlineSchema path side)) :
    ⟨path, .schemaInline side⟩ ∈ document.violations := by
  obtain ⟨_, _, named, earlier, _, later, shape, ⟨_, _, route, call, candidate, _, unnamed⟩, _⟩ :=
    Extraction.operations_eq_error_iff.mp failed
  cases named
  obtain ⟨_, item, rfl, posted⟩ := candidate
  obtain ⟨schema, selected⟩ := unnamed.selects
  exact mem_violations_inline_iff.mpr ⟨item, call, schema, by simp [shape], posted, selected⟩

end Convention

/--
The convention and extraction agree on schemas written in place.

When extraction fails, the path it names breaks the rule of the side it names; and a document
without a violation of the two rules is extracted.
-/
theorem Document.operations_agree_with_violations
    (document : Document) :
    (∀ path side,
        document.operations = .error (.inlineSchema path side) →
          ∃ violation ∈ document.violations,
            violation.path = path ∧
              violation.breach.rule = Convention.namedRule side) ∧
      ((∀ violation ∈ document.violations,
          ∀ side, violation.breach.rule ≠ Convention.namedRule side) →
        ∃ operations, document.operations = .ok operations) := by
  constructor
  · intro path side failed
    exact ⟨_, Convention.mem_violations_of_operations_eq_error failed, rfl,
      Convention.rule_eq_namedRule_iff.mpr rfl⟩
  · intro quiet
    cases result : document.operations with
    | ok operations =>
        exact ⟨operations, rfl⟩
    | error failure =>
        obtain ⟨path, side, rfl, _⟩ := Extraction.operations_eq_error_iff.mp result
        have violates := Convention.mem_violations_of_operations_eq_error result
        exact (quiet _ violates side (Convention.rule_eq_namedRule_iff.mpr rfl)).elim

end RpcStubs
