import Mathlib.Data.Finset.Card
import Mathlib.Data.Finset.Range
import RpcStubs.Proofs.Document.Aliases
namespace RpcStubs

/-!
# Chains of aliases

Following an alias from name to name has one outcome: the chain ends at a schema that is
declared in place, at a name that is not declared, or not at all because it comes back to a name.
A look-up follows sixteen aliases.  With no more than seventeen declared schemas a chain that is
longer comes back to a name, and the bound makes no difference.
-/

namespace Document

variable {document : Document}

/-- A name is an alias of the name that its declared reference ends in. -/
def Aliases (document : Document) (name next : String) : Prop :=
  ∃ target,
    (name, .reference target) ∈ document.components.schemas.entries ∧
      Ref.EndsIn target next

/-- Following so many aliases leads from a name to another one. -/
inductive Reaches (document : Document) : Nat → String → String → Prop
  | here (name : String) :
      Reaches document 0 name name
  | through {steps : Nat} {name next last : String} :
      document.Aliases name next →
      Reaches document steps next last →
      Reaches document (steps + 1) name last

/-- The aliases of a name lead to a name that is not declared. -/
def Dangles (document : Document) (name : String) : Prop :=
  ∃ steps last,
    document.Reaches steps name last ∧
      last ∉ document.components.schemas.names

/-- The aliases of a name lead to a name from which they come back to it. -/
def Cycles (document : Document) (name : String) : Prop :=
  ∃ steps entry period,
    document.Reaches steps name entry ∧
      document.Reaches (period + 1) entry entry

/-- A name is an alias of one name at most. -/
theorem Aliases.unique
    {name first second : String}
    (isFirst : document.Aliases name first)
    (isSecond : document.Aliases name second) :
    first = second := by
  obtain ⟨target, declared, ends⟩ := isFirst
  obtain ⟨other, otherDeclared, otherEnds⟩ := isSecond
  have same := Catalog.get?_eq_some_iff.mpr declared
  rw [Catalog.get?_eq_some_iff.mpr otherDeclared] at same
  cases same
  exact ends.unique otherEnds

/-- An alias is not declared in place. -/
theorem Aliases.not_inPlace
    {name next : String}
    {schema : Schema}
    (isAlias : document.Aliases name next) :
    (name, .inline schema) ∉ document.components.schemas.entries := by
  intro inPlace
  obtain ⟨target, declared, _⟩ := isAlias
  have same := Catalog.get?_eq_some_iff.mpr declared
  rw [Catalog.get?_eq_some_iff.mpr inPlace] at same
  cases same

/-- So many aliases lead from a name to one name at most. -/
theorem Reaches.unique
    {steps : Nat}
    {name first second : String}
    (toFirst : document.Reaches steps name first)
    (toSecond : document.Reaches steps name second) :
    first = second := by
  induction toFirst with
  | here =>
      cases toSecond
      rfl
  | through isAlias _ inductionHypothesis =>
      cases toSecond with
      | through isOther later =>
          apply inductionHypothesis
          rw [isAlias.unique isOther]
          exact later

/-- A chain can be left after any number of its aliases, and taken up again there. -/
theorem Reaches.split
    {first second : Nat}
    {name last : String}
    (reaches : document.Reaches (first + second) name last) :
    ∃ middle,
      document.Reaches first name middle ∧
        document.Reaches second middle last := by
  induction first generalizing name with
  | zero =>
      rw [Nat.zero_add] at reaches
      exact ⟨name, .here name, reaches⟩
  | succ first inductionHypothesis =>
      rw [Nat.succ_add] at reaches
      cases reaches with
      | through isAlias later =>
          obtain ⟨middle, toMiddle, fromMiddle⟩ := inductionHypothesis later
          exact ⟨middle, .through isAlias toMiddle, fromMiddle⟩

/-- What a name leads to is declared in place where its chain of aliases ends. -/
theorem leadsTo_iff_reaches
    {steps : Nat}
    {name : String}
    {schema : Schema} :
    document.LeadsTo steps name schema ↔
      ∃ last,
        document.Reaches steps name last ∧
          (last, .inline schema) ∈ document.components.schemas.entries := by
  constructor
  · intro leads
    induction leads with
    | inPlace declared =>
        exact ⟨_, .here _, declared⟩
    | through declared ends _ inductionHypothesis =>
        obtain ⟨last, reaches, inPlace⟩ := inductionHypothesis
        exact ⟨last, .through ⟨_, declared, ends⟩ reaches, inPlace⟩
  · rintro ⟨last, reaches, inPlace⟩
    induction reaches with
    | here =>
        exact .inPlace inPlace
    | through isAlias _ inductionHypothesis =>
        obtain ⟨target, declared, ends⟩ := isAlias
        exact .through declared ends (inductionHypothesis inPlace)

/-- A chain that ends in place goes through every name that its aliases lead to. -/
theorem LeadsTo.exists_left
    {total steps : Nat}
    {name last : String}
    {schema : Schema}
    (leads : document.LeadsTo total name schema)
    (reaches : document.Reaches steps name last) :
    ∃ left, total = steps + left ∧ document.LeadsTo left last schema := by
  induction reaches generalizing total with
  | here =>
      exact ⟨total, (Nat.zero_add total).symm, leads⟩
  | through isAlias _ inductionHypothesis =>
      cases leads with
      | inPlace inPlace =>
          exact (isAlias.not_inPlace inPlace).elim
      | through declared ends later =>
          cases isAlias.unique ⟨_, declared, ends⟩
          obtain ⟨left, isTotal, leadsOn⟩ := inductionHypothesis later
          exact ⟨left, by omega, leadsOn⟩

/-- A chain that ends in place does so after one number of aliases. -/
theorem LeadsTo.steps_unique
    {first second : Nat}
    {name : String}
    {schema : Schema}
    (isFirst : document.LeadsTo first name schema)
    (isSecond : document.LeadsTo second name schema) :
    first = second := by
  obtain ⟨_, firstReaches, _⟩ := leadsTo_iff_reaches.mp isFirst
  obtain ⟨_, secondReaches, _⟩ := leadsTo_iff_reaches.mp isSecond
  obtain ⟨_, secondLonger, _⟩ := isSecond.exists_left firstReaches
  obtain ⟨_, firstLonger, _⟩ := isFirst.exists_left secondReaches
  omega

/-- Where a chain ends in place, every name on it is declared. -/
theorem LeadsTo.mem_names
    {steps : Nat}
    {name : String}
    {schema : Schema}
    (leads : document.LeadsTo steps name schema) :
    name ∈ document.components.schemas.names := by
  cases leads with
  | inPlace declared =>
      exact List.mem_map_of_mem declared
  | through declared _ _ =>
      exact List.mem_map_of_mem declared

theorem LeadsTo.not_dangles
    {steps : Nat}
    {name : String}
    {schema : Schema}
    (leads : document.LeadsTo steps name schema) :
    ¬document.Dangles name := by
  rintro ⟨_, _, reaches, missing⟩
  obtain ⟨_, _, leadsOn⟩ := leads.exists_left reaches
  exact missing leadsOn.mem_names

theorem LeadsTo.not_cycles
    {steps : Nat}
    {name : String}
    {schema : Schema}
    (leads : document.LeadsTo steps name schema) :
    ¬document.Cycles name := by
  rintro ⟨_, entry, period, reaches, comesBack⟩
  obtain ⟨left, _, leadsOn⟩ := leads.exists_left reaches
  obtain ⟨later, isLeft, leadsAgain⟩ := leadsOn.exists_left comesBack
  have same := leadsOn.steps_unique leadsAgain
  omega

/-- A name is not declared, is declared in place, or is an alias. -/
theorem missing_or_inPlace_or_alias
    (document : Document)
    (name : String) :
    name ∉ document.components.schemas.names ∨
      (∃ schema, (name, .inline schema) ∈ document.components.schemas.entries) ∨
      ∃ next, document.Aliases name next := by
  by_cases declared : name ∈ document.components.schemas.names
  · right
    obtain ⟨⟨_, entry⟩, member, rfl⟩ := List.mem_map.mp declared
    cases entry with
    | inline schema =>
        exact .inl ⟨schema, member⟩
    | reference target =>
        exact .inr ⟨Ref.nameOf target, target, member, Ref.nameOf_eq_iff.mp rfl⟩
  · exact .inl declared

/-- A chain has come to an end after fewer aliases, or so many aliases can be followed. -/
theorem ends_or_reaches
    (document : Document)
    (steps : Nat)
    (name : String) :
    document.Dangles name ∨
      (∃ taken < steps, ∃ schema, document.LeadsTo taken name schema) ∨
      ∃ last, document.Reaches steps name last := by
  induction steps generalizing name with
  | zero =>
      exact .inr (.inr ⟨name, .here name⟩)
  | succ steps inductionHypothesis =>
      rcases document.missing_or_inPlace_or_alias name with missing | ⟨schema, inPlace⟩ |
        ⟨next, isAlias⟩
      · exact .inl ⟨0, name, .here name, missing⟩
      · exact .inr (.inl ⟨0, Nat.succ_pos steps, schema, .inPlace inPlace⟩)
      · rcases inductionHypothesis next with ⟨more, last, reaches, missing⟩ |
          ⟨taken, fewer, schema, leads⟩ | ⟨last, reaches⟩
        · exact .inl ⟨more + 1, last, .through isAlias reaches, missing⟩
        · obtain ⟨target, declared, ends⟩ := isAlias
          exact .inr (.inl ⟨taken + 1, Nat.succ_lt_succ fewer, schema,
            .through declared ends leads⟩)
        · exact .inr (.inr ⟨last, .through isAlias reaches⟩)

/-- A chain that comes to a name twice goes round from there. -/
theorem Reaches.cycles_of_again
    {first second : Nat}
    {name middle : String}
    (reaches : document.Reaches first name middle)
    (again : document.Reaches second name middle)
    (later : first < second) :
    document.Cycles name := by
  obtain ⟨period, rfl⟩ := Nat.exists_eq_add_of_lt later
  rw [Nat.add_assoc] at again
  obtain ⟨entry, toEntry, fromEntry⟩ := again.split
  cases reaches.unique toEntry
  exact ⟨first, middle, period, reaches, fromEntry⟩

/-- A chain with as many aliases as there are schemas comes back to a name, or dangles. -/
theorem Reaches.cycles
    {steps : Nat}
    {name last : String}
    (reaches : document.Reaches steps name last)
    (enough : document.components.schemas.names.length ≤ steps)
    (declared : ¬document.Dangles name) :
    document.Cycles name := by
  have passes (index : Nat) (early : index ≤ steps) :
      ∃ middle, document.Reaches index name middle := by
    rw [← Nat.add_sub_cancel' early] at reaches
    obtain ⟨middle, toMiddle, _⟩ := reaches.split
    exact ⟨middle, toMiddle⟩
  choose! visited isVisited using passes
  have isDeclared :
      ∀ index ∈ Finset.range (steps + 1),
        visited index ∈ document.components.schemas.names.toFinset := by
    intro index member
    have early := Nat.lt_succ_iff.mp (Finset.mem_range.mp member)
    rw [List.mem_toFinset]
    by_contra missing
    exact declared ⟨index, visited index, isVisited index early, missing⟩
  have crowded :
      document.components.schemas.names.toFinset.card < (Finset.range (steps + 1)).card := by
    have few := List.toFinset_card_le document.components.schemas.names
    rw [Finset.card_range]
    omega
  -- There are more places on the chain than names, so that two places have the same name.
  obtain ⟨first, firstMember, second, secondMember, differ, same⟩ :=
    Finset.exists_ne_map_eq_of_card_lt_of_maps_to crowded isDeclared
  have toFirst := isVisited first (Nat.lt_succ_iff.mp (Finset.mem_range.mp firstMember))
  have toSecond := isVisited second (Nat.lt_succ_iff.mp (Finset.mem_range.mp secondMember))
  rw [← same] at toSecond
  rcases Nat.lt_or_gt_of_ne differ with inOrder | inOrder
  · exact toFirst.cycles_of_again toSecond inOrder
  · exact toSecond.cycles_of_again toFirst inOrder

/-- A look-up finds nothing when a chain dangles, cycles or is longer than it follows. -/
theorem schema?_eq_none_iff
    {name : String} :
    document.schema? name = none ↔
      document.Dangles name ∨
        document.Cycles name ∨
        ∃ steps > aliasLimit, ∃ last, document.Reaches steps name last := by
  rw [Option.eq_none_iff_forall_ne_some]
  simp only [ne_eq, schema?_eq_some_iff]
  constructor
  · intro notFound
    rcases document.ends_or_reaches (aliasLimit + 1) name with dangles |
      ⟨taken, few, schema, leads⟩ | ⟨last, reaches⟩
    · exact .inl dangles
    · exact (notFound schema ⟨taken, Nat.lt_succ_iff.mp few, leads⟩).elim
    · exact .inr (.inr ⟨aliasLimit + 1, Nat.lt_succ_self _, last, reaches⟩)
  · rintro fails schema ⟨taken, few, leads⟩
    rcases fails with dangles | cycles | ⟨steps, many, last, reaches⟩
    · exact leads.not_dangles dangles
    · exact leads.not_cycles cycles
    · obtain ⟨left, isTaken, _⟩ := leads.exists_left reaches
      omega

/--
A look-up is exact and bounded.

It finds the schema that is declared in place at the end of a chain of sixteen aliases or fewer,
and nothing when the chain dangles, cycles, or has seventeen aliases or more.  Where no more than
seventeen schemas are declared, it finds nothing only for chains that dangle or cycle.
-/
theorem schema?_exact
    (document : Document) :
    (∀ name schema,
        document.schema? name = some schema ↔
          ∃ steps ≤ 16, ∃ last,
            document.Reaches steps name last ∧
              (last, .inline schema) ∈ document.components.schemas.entries) ∧
      (∀ name,
        document.schema? name = none ↔
          document.Dangles name ∨
            document.Cycles name ∨
            ∃ steps ≥ 17, ∃ last, document.Reaches steps name last) ∧
      (document.components.schemas.names.length ≤ 17 →
        ∀ name,
          document.schema? name = none ↔ document.Dangles name ∨ document.Cycles name) := by
  refine ⟨?_, fun name => schema?_eq_none_iff, ?_⟩
  · intro name schema
    rw [schema?_eq_some_iff, Names]
    simp only [leadsTo_iff_reaches]
    rfl
  · intro few name
    rw [schema?_eq_none_iff]
    constructor
    · rintro (dangles | cycles | ⟨steps, many, last, reaches⟩)
      · exact .inl dangles
      · exact .inr cycles
      · by_cases dangles : document.Dangles name
        · exact .inl dangles
        · exact .inr (reaches.cycles (Nat.le_trans few many) dangles)
    · rintro (dangles | cycles)
      · exact .inl dangles
      · exact .inr (.inl cycles)

/-! The bound is sharp. -/

/-- The names of a chain: one more letter for every alias. -/
def chainName (steps : Nat) : String :=
  String.ofList (List.replicate (steps + 1) 'S')

theorem chainName_injective {first second : Nat} (same : chainName first = chainName second) :
    first = second := by
  have lengths := congrArg String.length same
  simpa [chainName] using lengths

/-- What the name of so many aliases is declared as. -/
def chainEntry : Nat → Ref Schema
  | 0 => .inline (.value .string)
  | steps + 1 => .reference ("#/components/schemas/" ++ chainName steps)

/-- The schemas of a chain of so many aliases. -/
def chainEntries (length : Nat) : List (String × Ref Schema) :=
  (List.range (length + 1)).map fun steps => (chainName steps, chainEntry steps)

theorem chainEntries_distinct
    (length : Nat) :
    ((chainEntries length).map (·.1)).Nodup := by
  rw [chainEntries, List.map_map]
  exact List.nodup_range.map fun _ _ same => chainName_injective same

/-- A document whose schemas are a chain of so many aliases. -/
def chainDocument (length : Nat) : Document where
  openapi := "3.0.3"
  title := "Chain"
  version := "1.0.0"
  paths := .empty
  components := {
    schemas := { entries := chainEntries length, distinct := chainEntries_distinct length }
    requestBodies := .empty
    responses := .empty }

/-- Every name of the chain leads to its end. -/
theorem chainDocument_leadsTo
    {length steps : Nat}
    (early : steps ≤ length) :
    (chainDocument length).LeadsTo steps (chainName steps) (.value .string) := by
  have declared (steps : Nat) (early : steps ≤ length) :
      (chainName steps, chainEntry steps) ∈ (chainDocument length).components.schemas.entries :=
    List.mem_map_of_mem (List.mem_range.mpr (Nat.lt_succ_of_le early))
  induction steps with
  | zero =>
      exact .inPlace (declared 0 early)
  | succ steps inductionHypothesis =>
      have ends : Ref.EndsIn ("#/components/schemas/" ++ chainName steps) (chainName steps) := by
        refine ⟨by simp [chainName], .inr ⟨"#/components/schemas", ?_⟩⟩
        rw [← String.toList_inj]
        simp
      exact .through (declared (steps + 1) early) ends (inductionHypothesis (by omega))

/-- The whole chain is followed up to the bound, although it ends in place at any length. -/
theorem chainDocument_found_iff
    (length : Nat) :
    (chainDocument length).schema? (chainName length) = some (.value .string) ↔
      length ≤ aliasLimit := by
  have leads := chainDocument_leadsTo (Nat.le_refl length)
  rw [schema?_eq_some_iff]
  constructor
  · rintro ⟨steps, few, alsoLeads⟩
    rw [leads.steps_unique alsoLeads]
    exact few
  · intro few
    exact ⟨length, few, leads⟩

/-- Sixteen aliases among seventeen schemas are found, so that they neither dangle nor cycle. -/
theorem chainDocument_sixteen :
    (chainDocument 16).components.schemas.names.length ≤ 17 ∧
      (chainDocument 16).schema? (chainName 16) = some (.value .string) ∧
      ¬(chainDocument 16).Dangles (chainName 16) ∧
      ¬(chainDocument 16).Cycles (chainName 16) := by
  have few : (chainDocument 16).components.schemas.names.length ≤ 17 := by
    decide
  have found := (chainDocument_found_iff 16).mpr (Nat.le_refl 16)
  have fails := ((schema?_exact (chainDocument 16)).2.2 few (chainName 16)).mpr
  rw [found] at fails
  exact ⟨few, found, fun dangles => Option.some_ne_none _ (fails (.inl dangles)),
    fun cycles => Option.some_ne_none _ (fails (.inr cycles))⟩

end Document

end RpcStubs
