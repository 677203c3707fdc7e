import RpcStubs.Listing
import RpcStubs.Proofs.Convention.Accepted
import RpcStubs.Proofs.Convention.References
namespace RpcStubs

open Extraction (Declared Candidate Kept Describes)

/-!
# Plain names

Names of letters, digits, points, underscores and hyphens can stand anywhere in generated
code.  An accepted document that declares its schemas and their properties under plain names
uses plain names only: every reference that generation follows points at a declared schema.
-/

/-- Whether a character may stand in a plain name. -/
def isNameCharacter (character : Char) : Bool :=
  character.isAlphanum || character == '.' || character == '_' || character == '-'

/-- Whether a name has only letters, digits, points, underscores and hyphens. -/
def IsPlainName (name : String) : Prop :=
  ∀ character ∈ name.toList, isNameCharacter character = true

instance (name : String) : Decidable (IsPlainName name) :=
  decidable_of_iff (name.toList.all isNameCharacter = true) List.all_eq_true

namespace Document

/-- A declared path asks for the schema of a reference. -/
def Asks (document : Document) (target : String) : Prop :=
  ∃ entry ∈ document.paths.entries, ∃ route call,
    Candidate entry route call ∧ call.RequestSchema document (.reference target)

/-- A declared path answers with the schema of a reference. -/
def Answers (document : Document) (target : String) : Prop :=
  ∃ entry ∈ document.paths.entries, ∃ route call,
    Candidate entry route call ∧ call.ResponseSchema document (.reference target)

/--
The names that generation takes from a document, besides those of its routes.

They are what the references of requests, responses and pages of items end in, and the names
of the properties of responses.
-/
inductive UsesName (document : Document) : String → Prop
  | request {target : String} :
      document.Asks target →
      document.UsesName (Ref.nameOf target)
  | response {target : String} :
      document.Answers target →
      document.UsesName (Ref.nameOf target)
  | field {target : String} {response : Schema} {property : String × Ref Schema} :
      document.Answers target →
      document.schema? (Ref.nameOf target) = some response →
      property ∈ response.properties →
      document.UsesName property.1
  | item {target itemTarget : String} {response page : Schema}
      {property : String × Ref Schema} :
      document.Answers target →
      document.schema? (Ref.nameOf target) = some response →
      property ∈ response.properties →
      document.resolve? property.2 = some page →
      page.items? = some (.reference itemTarget) →
      document.UsesName (Ref.nameOf itemTarget)

/-- Every name that generation takes from a document is plain. -/
def UsesPlainNames (document : Document) : Prop :=
  ∀ name, document.UsesName name → IsPlainName name

/-- The properties that a component schema declares in place. -/
def declaredProperties : Ref Schema → List (String × Ref Schema)
  | .reference _ => []
  | .inline schema => schema.properties

/-- The names of the component schemas, and of their properties, are plain. -/
structure DeclaresPlainNames (document : Document) : Prop where
  schemas : ∀ name ∈ document.components.schemas.names, IsPlainName name
  properties : ∀ component ∈ document.components.schemas.entries,
    ∀ property ∈ declaredProperties component.2, IsPlainName property.1

/-! What a look-up finds is declared. -/

/-- A schema that is found by name is declared in place, under the last of its aliases. -/
theorem exists_of_schemaWithin?
    {document : Document}
    {budget : Nat}
    {name : String}
    {schema : Schema}
    (found : document.schemaWithin? budget name = some schema) :
    ∃ declared, (declared, .inline schema) ∈ document.components.schemas.entries := by
  induction budget generalizing name with
  | zero =>
      unfold schemaWithin? at found
      split at found
      · cases found
      · rename_i entry
        cases found
        exact ⟨name, Catalog.get?_eq_some_iff.mp entry⟩
      · cases found
  | succ budget inductionHypothesis =>
      unfold schemaWithin? at found
      split at found
      · cases found
      · rename_i entry
        cases found
        exact ⟨name, Catalog.get?_eq_some_iff.mp entry⟩
      · exact inductionHypothesis found

theorem exists_of_schema?
    {document : Document}
    {name : String}
    {schema : Schema}
    (found : document.schema? name = some schema) :
    ∃ declared, (declared, .inline schema) ∈ document.components.schemas.entries :=
  exists_of_schemaWithin? found

end Document

namespace Convention

variable {schema : Schema} {target : String}

/-- What the items of an array refer to is checked. -/
theorem mem_targetsIn_of_items
    (items : schema.items? = some (.reference target)) :
    target ∈ targetsIn schema := by
  have refers : target ∈ targetsOf (.reference target) := by
    simp [targetsOf]
  unfold Schema.items? at items
  split at items
  · cases items
    exact mem_targetsIn_of_field .items refers
  · cases items
    exact mem_targetsIn_of_field .anyItems refers
  · cases items

/-- What the properties of a schema refer to is checked. -/
theorem mem_targetsIn_of_property
    {property : String × Ref Schema}
    (declared : property ∈ schema.properties)
    (refers : target ∈ targetsOf property.2) :
    target ∈ targetsIn schema := by
  unfold Schema.properties at declared
  split at declared
  · exact mem_targetsIn_of_field (.property declared) refers
  · exact mem_targetsIn_of_field (.anyProperty declared) refers
  · cases declared

end Convention

namespace Document

variable {document : Document}

theorem mem_names_of_declaresSchema
    {target : String}
    (declared : document.declaresSchema target = true) :
    Ref.nameOf target ∈ document.components.schemas.names := by
  rw [declaresSchema, Bool.and_eq_true] at declared
  exact List.contains_iff_mem.mp declared.2

/-- The requests and responses of an accepted document are declared. -/
theorem mem_names_of_violations_eq_nil
    (accepted : document.violations = [])
    {target : String}
    (refers : document.Asks target ∨ document.Answers target) :
    Ref.nameOf target ∈ document.components.schemas.names := by
  obtain ⟨conform, _⟩ := Convention.conform_of_violations_eq_nil accepted
  rcases refers with ⟨entry, member, route, call, candidate, asks⟩ |
    ⟨entry, member, route, call, candidate, answers⟩
  · obtain ⟨_, _, conforms⟩ := conform entry member
    obtain ⟨_, rfl⟩ := conforms.candidate.unique candidate
    obtain ⟨other, otherAsks, declared⟩ := conforms.request
    cases asks.unique otherAsks
    exact mem_names_of_declaresSchema declared
  · obtain ⟨_, _, conforms⟩ := conform entry member
    obtain ⟨_, rfl⟩ := conforms.candidate.unique candidate
    obtain ⟨other, same, declared⟩ := conforms.response _ answers
    cases same
    exact mem_names_of_declaresSchema declared

/-- The items of the pages that an accepted document declares are declared. -/
theorem mem_names_of_items
    (accepted : document.violations = [])
    {declared : String}
    {response page : Schema}
    {property : String × Ref Schema}
    {itemTarget : String}
    (component : (declared, .inline response) ∈ document.components.schemas.entries)
    (member : property ∈ response.properties)
    (resolved : document.resolve? property.2 = some page)
    (items : page.items? = some (.reference itemTarget)) :
    Ref.nameOf itemTarget ∈ document.components.schemas.names := by
  have inPage := Convention.mem_targetsIn_of_items items
  apply mem_names_of_declaresSchema
  obtain ⟨name, target | schema⟩ := property
  · obtain ⟨other, otherComponent⟩ := exists_of_schema? resolved
    exact Convention.declaresSchema_of_violations_eq_nil accepted otherComponent
      (by simpa [Convention.targetsOf] using inPage)
  · cases resolved
    refine Convention.declaresSchema_of_violations_eq_nil accepted component ?_
    rw [Convention.targetsOf]
    exact Convention.mem_targetsIn_of_property member (by simpa [Convention.targetsOf] using inPage)

/-- An accepted document that declares plain names uses plain names. -/
theorem usesPlainNames_of_accepted
    (accepted : document.violations = [])
    (plain : document.DeclaresPlainNames) :
    document.UsesPlainNames := by
  intro name used
  cases used with
  | request asks =>
      exact plain.schemas _ (mem_names_of_violations_eq_nil accepted (Or.inl asks))
  | response answers =>
      exact plain.schemas _ (mem_names_of_violations_eq_nil accepted (Or.inr answers))
  | field answers found member =>
      obtain ⟨_, component⟩ := exists_of_schema? found
      exact plain.properties _ component _ member
  | item answers found member resolved items =>
      obtain ⟨_, component⟩ := exists_of_schema? found
      exact plain.schemas _ (mem_names_of_items accepted component member resolved items)

end Document

end RpcStubs
