import RpcStubs.Proofs.Document.Selection
namespace RpcStubs

/-!
# Aliases of schemas

A component schema that is a reference is an alias of the name that the reference ends in.  A
look-up finds the schema that is declared in place at the end of the aliases, as long as there
are no more than `Document.aliasLimit` of them.
-/

namespace Document

/-- A name leads to a schema that is declared in place, through so many aliases. -/
inductive LeadsTo (document : Document) : Nat → String → Schema → Prop
  | inPlace {name : String} {schema : Schema} :
      (name, .inline schema) ∈ document.components.schemas.entries →
      LeadsTo document 0 name schema
  | through {aliases : Nat} {name target next : String} {schema : Schema} :
      (name, .reference target) ∈ document.components.schemas.entries →
      Ref.EndsIn target next →
      LeadsTo document aliases next schema →
      LeadsTo document (aliases + 1) name schema

/-- A name stands for a schema to which few enough aliases lead. -/
def Names (document : Document) (name : String) (schema : Schema) : Prop :=
  ∃ aliases ≤ aliasLimit, document.LeadsTo aliases name schema

variable {document : Document} {name : String} {schema : Schema}

/-- A bounded look-up finds the schema to which so many aliases lead at most. -/
theorem schemaWithin?_eq_some_iff
    {budget : Nat} :
    document.schemaWithin? budget name = some schema ↔
      ∃ aliases ≤ budget, document.LeadsTo aliases name schema := by
  constructor
  · intro found
    induction budget generalizing name with
    | zero =>
        unfold schemaWithin? at found
        split at found
        · cases found
        · rename_i declared
          cases found
          exact ⟨0, Nat.le_refl _, .inPlace (Catalog.get?_eq_some_iff.mp declared)⟩
        · cases found
    | succ budget inductionHypothesis =>
        unfold schemaWithin? at found
        split at found
        · cases found
        · rename_i declared
          cases found
          exact ⟨0, Nat.zero_le _, .inPlace (Catalog.get?_eq_some_iff.mp declared)⟩
        · rename_i target declared
          obtain ⟨aliases, few, leads⟩ := inductionHypothesis found
          exact ⟨aliases + 1, Nat.succ_le_succ few,
            .through (Catalog.get?_eq_some_iff.mp declared) (Ref.nameOf_eq_iff.mp rfl) leads⟩
  · rintro ⟨aliases, few, leads⟩
    induction leads generalizing budget with
    | inPlace declared =>
        unfold schemaWithin?
        rw [Catalog.get?_eq_some_iff.mpr declared]
    | through declared ends _ inductionHypothesis =>
        obtain ⟨rest, rfl⟩ := Nat.exists_eq_succ_of_ne_zero (Nat.ne_zero_of_lt few)
        unfold schemaWithin?
        rw [Catalog.get?_eq_some_iff.mpr declared]
        simp only [Ref.nameOf_eq_iff.mpr ends]
        exact inductionHypothesis (Nat.le_of_succ_le_succ few)

/-- Looking up a name finds the schema that it stands for. -/
theorem schema?_eq_some_iff :
    document.schema? name = some schema ↔ document.Names name schema :=
  schemaWithin?_eq_some_iff

end Document

/-- A schema stands where it is written, or for the name that a reference ends in. -/
inductive Schema.Stands (document : Document) : Ref Schema → Schema → Prop
  | inline (schema : Schema) :
      Stands document (.inline schema) schema
  | named {target name : String} {schema : Schema} :
      Ref.EndsIn target name →
      document.Names name schema →
      Stands document (.reference target) schema

/-- Resolving a property or an item finds the schema that stands there. -/
theorem Document.resolve?_eq_some_iff
    {document : Document}
    {reference : Ref Schema}
    {schema : Schema} :
    document.resolve? reference = some schema ↔ Schema.Stands document reference schema := by
  cases reference with
  | inline written =>
      constructor
      · intro found
        cases found
        exact .inline schema
      · rintro ⟨⟩
        rfl
  | reference target =>
      constructor
      · intro found
        exact .named (Ref.nameOf_eq_iff.mp rfl) (Document.schema?_eq_some_iff.mp found)
      · intro stands
        cases stands with
        | named ends names =>
            rw [Document.resolve?, Ref.nameOf_eq_iff.mpr ends]
            exact Document.schema?_eq_some_iff.mpr names

end RpcStubs
