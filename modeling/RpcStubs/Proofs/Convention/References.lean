import RpcStubs.Convention
import RpcStubs.Proofs.Document.Selection
namespace RpcStubs

/-!
# References inside components

Which references a component schema holds, at any depth, and which of them the convention
checks.  It follows the properties of objects and the items of arrays, through any nesting of
schemas that are written in place, and reports exactly the dangling references that it reaches
there.  It does not look into additional properties, combinations and negations, so a dangling
reference there goes unreported.
-/

namespace Schema

/-- A schema stands in another one as a property or as the items. -/
inductive Field : Schema → Ref Schema → Prop
  | property {properties : List (String × Ref Schema)} {additional : Option (Ref Schema)}
      {name : String} {child : Ref Schema} :
      (name, child) ∈ properties →
      Field (.object properties additional) child
  | items {child : Ref Schema} :
      Field (.array (some child)) child
  | anyProperty {type : Option String} {properties : List (String × Ref Schema)}
      {items : Option (Ref Schema)} {others : List (Ref Schema)} {name : String}
      {child : Ref Schema} :
      (name, child) ∈ properties →
      Field (.any type properties items others) child
  | anyItems {type : Option String} {properties : List (String × Ref Schema)}
      {others : List (Ref Schema)} {child : Ref Schema} :
      Field (.any type properties (some child) others) child

/-- A schema stands directly in another one, wherever a schema can. -/
inductive Child : Schema → Ref Schema → Prop
  | field {schema : Schema} {child : Ref Schema} :
      Field schema child →
      Child schema child
  | additional {properties : List (String × Ref Schema)} {child : Ref Schema} :
      Child (.object properties (some child)) child
  | member {how : Combination} {members : List (Ref Schema)} {child : Ref Schema} :
      child ∈ members →
      Child (.combination how members) child
  | negated {child : Ref Schema} :
      Child (.negation child) child
  | other {type : Option String} {properties : List (String × Ref Schema)}
      {items : Option (Ref Schema)} {others : List (Ref Schema)} {child : Ref Schema} :
      child ∈ others →
      Child (.any type properties items others) child

end Schema

/-- A reference to a target stands at some depth, in schemas that stand in one another. -/
inductive Ref.Holds (standsIn : Schema → Ref Schema → Prop) (target : String) :
    Ref Schema → Prop
  | here :
      Holds standsIn target (.reference target)
  | inside {schema : Schema} {child : Ref Schema} :
      standsIn schema child →
      Holds standsIn target child →
      Holds standsIn target (.inline schema)

/-- What is held through some of the schemas is held through all of them. -/
theorem Ref.Holds.mono
    {narrow wide : Schema → Ref Schema → Prop}
    {target : String}
    {schema : Ref Schema}
    (widens : ∀ parent child, narrow parent child → wide parent child)
    (held : Ref.Holds narrow target schema) :
    Ref.Holds wide target schema := by
  induction held with
  | here =>
      exact .here
  | inside stands _ inductionHypothesis =>
      exact .inside (widens _ _ stands) inductionHypothesis

/-- A reference points at the component schemas, and the name it ends in is declared. -/
def Document.Declares (document : Document) (target : String) : Prop :=
  (∃ rest, target = "#/components/schemas/" ++ rest) ∧
    ∃ name ∈ document.components.schemas.names, Ref.EndsIn target name

theorem Document.declaresSchema_iff
    {document : Document}
    {target : String} :
    document.declaresSchema target = true ↔ document.Declares target := by
  have pointsThere :
      "#/components/schemas/".toList.isPrefixOf target.toList = true ↔
        ∃ rest, target = "#/components/schemas/" ++ rest := by
    rw [List.isPrefixOf_iff_prefix]
    constructor
    · rintro ⟨rest, shape⟩
      refine ⟨String.ofList rest, String.toList_inj.mp ?_⟩
      simpa using shape.symm
    · rintro ⟨rest, rfl⟩
      exact ⟨rest.toList, String.toList_append.symm⟩
  have endsDeclared :
      document.components.schemas.contains (Ref.nameOf target) = true ↔
        ∃ name ∈ document.components.schemas.names, Ref.EndsIn target name := by
    rw [Catalog.contains, List.contains_iff_mem]
    constructor
    · intro member
      exact ⟨_, member, Ref.nameOf_eq_iff.mp rfl⟩
    · rintro ⟨name, member, ends⟩
      rwa [Ref.nameOf_eq_iff.mpr ends]
  rw [Document.declaresSchema, Bool.and_eq_true, pointsThere, endsDeclared]
  rfl

namespace Convention

variable {target : String}

theorem mem_targetsOfProperties
    {properties : List (String × Ref Schema)}
    {property : String × Ref Schema}
    (declared : property ∈ properties)
    (refers : target ∈ targetsOf property.2) :
    target ∈ targetsOfProperties properties := by
  induction properties with
  | nil =>
      cases declared
  | cons first others inductionHypothesis =>
      rw [targetsOfProperties, List.mem_append]
      rcases List.mem_cons.mp declared with rfl | later
      · exact Or.inl refers
      · exact Or.inr (inductionHypothesis later)

/-- What is checked in a property or in the items of a schema is checked in the schema. -/
theorem mem_targetsIn_of_field
    {schema : Schema}
    {child : Ref Schema}
    (field : schema.Field child)
    (refers : target ∈ targetsOf child) :
    target ∈ targetsIn schema := by
  cases field with
  | property declared =>
      rw [targetsIn]
      exact mem_targetsOfProperties declared refers
  | items =>
      rwa [targetsIn, targetsOfItems]
  | anyProperty declared =>
      rw [targetsIn, List.mem_append]
      exact Or.inl (mem_targetsOfProperties declared refers)
  | anyItems =>
      rw [targetsIn, List.mem_append, targetsOfItems]
      exact Or.inr refers

mutual

/-- What is checked in a schema is held by one of its properties or by its items. -/
theorem exists_field_of_mem_targetsIn :
    (schema : Schema) →
      target ∈ targetsIn schema →
        ∃ child, schema.Field child ∧ Ref.Holds Schema.Field target child
  | .object properties _, refers => by
      rw [targetsIn] at refers
      obtain ⟨name, child, declared, held⟩ := exists_property_of_mem_targets properties refers
      exact ⟨child, .property declared, held⟩
  | .array (some child), refers => by
      rw [targetsIn, targetsOfItems] at refers
      exact ⟨child, .items, holds_of_mem_targetsOf child refers⟩
  | .any _ properties items _, refers => by
      rw [targetsIn, List.mem_append] at refers
      rcases refers with inProperties | inItems
      · obtain ⟨name, child, declared, held⟩ :=
          exists_property_of_mem_targets properties inProperties
        exact ⟨child, .anyProperty declared, held⟩
      · cases items with
        | none =>
            simp [targetsOfItems] at inItems
        | some child =>
            rw [targetsOfItems] at inItems
            exact ⟨child, .anyItems, holds_of_mem_targetsOf child inItems⟩
  | .array none, refers => by
      simp [targetsIn, targetsOfItems] at refers
  | .value _, refers | .combination _ _, refers | .negation _, refers => by
      simp [targetsIn] at refers

/-- What is checked in properties is held by one of them. -/
theorem exists_property_of_mem_targets :
    (properties : List (String × Ref Schema)) →
      target ∈ targetsOfProperties properties →
        ∃ name child,
          (name, child) ∈ properties ∧ Ref.Holds Schema.Field target child
  | [], refers => by
      simp [targetsOfProperties] at refers
  | (name, child) :: others, refers => by
      rw [targetsOfProperties, List.mem_append] at refers
      rcases refers with here | later
      · exact ⟨name, child, by simp, holds_of_mem_targetsOf child here⟩
      · obtain ⟨otherName, other, declared, held⟩ :=
          exists_property_of_mem_targets others later
        exact ⟨otherName, other, List.mem_cons_of_mem _ declared, held⟩

/-- What is checked is held. -/
theorem holds_of_mem_targetsOf :
    (schema : Ref Schema) →
      target ∈ targetsOf schema → Ref.Holds Schema.Field target schema
  | .reference _, refers => by
      rw [targetsOf, List.mem_singleton] at refers
      exact refers ▸ .here
  | .inline schema, refers => by
      rw [targetsOf] at refers
      obtain ⟨child, field, held⟩ := exists_field_of_mem_targetsIn schema refers
      exact .inside field held

end

/-- The references that are checked are those held through properties and items. -/
theorem mem_targetsOf_iff
    {schema : Ref Schema} :
    target ∈ targetsOf schema ↔ Ref.Holds Schema.Field target schema := by
  refine ⟨holds_of_mem_targetsOf schema, fun held => ?_⟩
  induction held with
  | here =>
      simp [targetsOf]
  | inside field _ inductionHypothesis =>
      rw [targetsOf]
      exact mem_targetsIn_of_field field inductionHypothesis

/-- Where a component schema is declared. -/
def componentPath (name : String) : String :=
  "#/components/schemas/" ++ name

/-- The violation of a component schema that refers to nothing declared. -/
def danglingIn (name target : String) : Violation :=
  ⟨componentPath name, .schemaUnresolved [target]⟩

/-- The violation tells the component schema and the reference. -/
theorem danglingIn_inj
    {name other target otherTarget : String}
    (same : danglingIn name target = danglingIn other otherTarget) :
    name = other ∧ target = otherTarget := by
  obtain ⟨samePath, sameBreach⟩ := Violation.mk.inj same
  exact ⟨(String.append_right_inj _).mp samePath, by simpa using sameBreach⟩

theorem mem_componentViolations_iff
    {document : Document}
    {name : String}
    {schema : Ref Schema}
    {violation : Violation} :
    violation ∈ componentViolations document name schema ↔
      ∃ target,
        violation = danglingIn name target ∧
          Ref.Holds Schema.Field target schema ∧ ¬document.Declares target := by
  simp only [componentViolations, List.mem_map, List.mem_filter, mem_targetsOf_iff,
    Bool.not_eq_true', ← Bool.not_eq_true, Document.declaresSchema_iff]
  constructor
  · rintro ⟨target, dangles, rfl⟩
    exact ⟨target, rfl, dangles⟩
  · rintro ⟨target, rfl, dangles⟩
    exact ⟨target, dangles, rfl⟩

/-- A violation of a document is one of a path, of two paths together or of a component. -/
theorem mem_violations_iff
    {document : Document}
    {violation : Violation} :
    violation ∈ document.violations ↔
      (∃ path item,
          (path, item) ∈ document.paths.entries ∧
            violation ∈ pathViolations document path item) ∨
        violation ∈ collisions [] document.paths.names ∨
        ∃ name schema,
          (name, schema) ∈ document.components.schemas.entries ∧
            violation ∈ componentViolations document name schema := by
  simp only [Document.violations, List.mem_append, List.mem_flatMap, Prod.exists, or_assoc]

/-- Every checked reference in the component schemas of an accepted document is declared. -/
theorem declaresSchema_of_violations_eq_nil
    {document : Document}
    (accepted : document.violations = [])
    {component : String × Ref Schema}
    (declared : component ∈ document.components.schemas.entries)
    (refers : target ∈ targetsOf component.2) :
    document.declaresSchema target = true := by
  simp only [Document.violations, List.append_eq_nil_iff, List.flatMap_eq_nil_iff] at accepted
  have quiet := accepted.2 component declared
  simp only [componentViolations, List.map_eq_nil_iff, List.filter_eq_nil_iff] at quiet
  simpa using quiet target refers

/-- The violations of a path stand at the path. -/
theorem path_of_mem_pathViolations
    {document : Document}
    {path : String}
    {item : Ref PathItem}
    {violation : Violation}
    (member : violation ∈ pathViolations document path item) :
    violation.path = path := by
  cases item with
  | reference _ =>
      cases List.mem_singleton.mp member
      rfl
  | inline item =>
      obtain ⟨breach, _, rfl⟩ := List.mem_map.mp member
      rfl

/-- Collisions are told as methods that are taken. -/
theorem breach_of_mem_collisions
    {seen : List (String × String)}
    {paths : List String}
    {violation : Violation}
    (member : violation ∈ collisions seen paths) :
    ∃ method first, violation.breach = .methodTaken method first := by
  induction paths generalizing seen with
  | nil =>
      cases member
  | cons path rest inductionHypothesis =>
      rw [collisions] at member
      split at member
      · exact inductionHypothesis member
      · rename_i route _
        split at member
        · rename_i first _
          rcases List.mem_cons.mp member with rfl | later
          · exact ⟨route.methodName, first, rfl⟩
          · exact inductionHypothesis later
        · exact inductionHypothesis member

end Convention

namespace Document

open Convention (componentPath danglingIn)

/--
Every reference that a component schema holds and that points at nothing declared is reported
for the component, as far as schemas stand in one another in a given way.
-/
def ReportsDangling (document : Document) (standsIn : Schema → Ref Schema → Prop) : Prop :=
  ∀ name schema target,
    (name, schema) ∈ document.components.schemas.entries →
      Ref.Holds standsIn target schema →
      ¬document.Declares target →
      danglingIn name target ∈ document.violations

/--
Every dangling reference that a component schema holds through properties and items is
reported.

Nothing else is reported for a component, unless a path is declared where the component
stands; and in an accepted document no such reference dangles.
-/
theorem reportsDangling_fields
    (document : Document) :
    document.ReportsDangling Schema.Field ∧
      (∀ name target,
        danglingIn name target ∈ document.violations →
          componentPath name ∉ document.paths.names →
          ∃ schema,
            (name, schema) ∈ document.components.schemas.entries ∧
              Ref.Holds Schema.Field target schema ∧ ¬document.Declares target) ∧
      (document.violations = [] →
        ∀ name schema target,
          (name, schema) ∈ document.components.schemas.entries →
            Ref.Holds Schema.Field target schema →
            document.Declares target) := by
  have reports : document.ReportsDangling Schema.Field := by
    intro name schema target declared held dangles
    refine Convention.mem_violations_iff.mpr (Or.inr (Or.inr ⟨name, schema, declared, ?_⟩))
    exact Convention.mem_componentViolations_iff.mpr ⟨target, rfl, held, dangles⟩
  refine ⟨reports, ?_, ?_⟩
  · intro name target reported apart
    rcases Convention.mem_violations_iff.mp reported with
      ⟨path, item, member, violates⟩ | ofMethods | ⟨other, schema, member, violates⟩
    · cases Convention.path_of_mem_pathViolations violates
      exact (apart (List.mem_map_of_mem member)).elim
    · obtain ⟨_, _, taken⟩ := Convention.breach_of_mem_collisions ofMethods
      cases taken
    · obtain ⟨otherTarget, same, dangles⟩ :=
        Convention.mem_componentViolations_iff.mp violates
      obtain ⟨rfl, rfl⟩ := Convention.danglingIn_inj same
      exact ⟨schema, member, dangles⟩
  · intro accepted name schema target declared held
    exact declaresSchema_iff.mp (Convention.declaresSchema_of_violations_eq_nil accepted
      declared (Convention.mem_targetsOf_iff.mpr held))

end Document

namespace Convention

/-- A reference to a schema that is not declared. -/
def missingSchema : Ref Schema :=
  .reference "#/components/schemas/Missing"

/-- A document whose components refer to a missing schema outside properties and items. -/
def combinedDocument : Document where
  openapi := "3.0.3"
  title := "Users"
  version := "1.0.0"
  components := {
    schemas := { entries := [
      ("Union", .inline (.combination .oneOf [missingSchema])),
      ("Whole", .inline (.combination .allOf [missingSchema])),
      ("Choice", .inline (.combination .anyOf [missingSchema])),
      ("Other", .inline (.negation missingSchema)),
      ("Labels", .inline (.object [] (some missingSchema)))] }
    requestBodies := .empty
    responses := .empty }

/-- The document is accepted, and none of its dangling references is reported. -/
theorem combinedDocument_accepted :
    combinedDocument.violations = [] ∧
      ¬combinedDocument.ReportsDangling Schema.Child := by
  have accepted : combinedDocument.violations = [] := by
    decide +kernel
  refine ⟨accepted, fun reports => ?_⟩
  have reported :
      danglingIn "Union" "#/components/schemas/Missing" ∈ combinedDocument.violations := by
    refine reports "Union" (.inline (.combination .oneOf [missingSchema])) _
      (by simp [combinedDocument]) ?_ ?_
    · exact .inside (.member (List.mem_singleton.mpr rfl)) .here
    · rw [← Document.declaresSchema_iff]
      decide +kernel
  rw [accepted] at reported
  cases reported

end Convention

end RpcStubs
