namespace RpcStubs

/-!
# Catalogs

A catalog holds named entries in the order of their declaration. Declaring a name again
replaces its entry in place. Main statement: no name stands twice.
-/

/-- Names with their entries, no name twice. -/
structure Catalog (Name : Type) (Entry : Type) where
  entries : List (Name × Entry) := []
  distinct : (entries.map (·.1)).Nodup := by simp

namespace Catalog

variable {Name Entry : Type}

/-- The catalog without entries. -/
def empty : Catalog Name Entry := {}

/-- The names in order. -/
def names (catalog : Catalog Name Entry) : List Name :=
  catalog.entries.map (·.1)

/-- The entries in order, without their names. -/
def values (catalog : Catalog Name Entry) : List Entry :=
  catalog.entries.map (·.2)

/-- No name stands twice. -/
theorem names_nodup (catalog : Catalog Name Entry) : catalog.names.Nodup :=
  catalog.distinct

variable [DecidableEq Name]

/-- The entry of a name. -/
def get? (catalog : Catalog Name Entry) (name : Name) : Option Entry :=
  catalog.entries.lookup name

/-- Whether a name is declared. -/
def contains (catalog : Catalog Name Entry) (name : Name) : Bool :=
  catalog.names.contains name

/-- A name has the entry with which it is declared, and no other one. -/
theorem get?_eq_some_iff {catalog : Catalog Name Entry} {name : Name} {entry : Entry} :
    catalog.get? name = some entry ↔ (name, entry) ∈ catalog.entries := by
  unfold get?
  constructor
  · intro found
    obtain ⟨earlier, later, shape, _⟩ := List.lookup_eq_some_iff.mp found
    simp [shape]
  · intro member
    obtain ⟨earlier, later, shape⟩ := List.mem_iff_append.mp member
    refine List.lookup_eq_some_iff.mpr ⟨earlier, later, shape, ?_⟩
    intro pair pairMember
    have noDuplicates := catalog.distinct
    rw [shape, List.map_append, List.nodup_append] at noDuplicates
    have differs :=
      noDuplicates.2.2 pair.1 (List.mem_map_of_mem pairMember) name (by simp)
    simpa using differs.symm

/-- Catalogs with the same names in order, and the same entry for each, are the same. -/
theorem eq_of_get? {first second : Catalog Name Entry} (sameNames : first.names = second.names)
    (same : ∀ name, first.get? name = second.get? name) : first = second := by
  have pairs (catalog : Catalog Name Entry) :
      catalog.entries.map (fun pair => (pair.1, some pair.2)) =
        catalog.names.map fun name => (name, catalog.get? name) := by
    rw [names, List.map_map]
    refine List.map_congr_left fun pair member => ?_
    simp [get?_eq_some_iff.mpr member]
  have samePairs :
      first.entries.map (fun pair => (pair.1, some pair.2)) =
        second.entries.map fun pair => (pair.1, some pair.2) := by
    rw [pairs, pairs, sameNames]
    exact List.map_congr_left fun name _ => by rw [same]
  have sameEntries : first.entries = second.entries := by
    refine (List.map_inj_right ?_).mp samePairs
    rintro ⟨name, entry⟩ ⟨other, otherEntry⟩ equal
    simpa using equal
  cases first
  cases second
  cases sameEntries
  rfl

/-- Pairs with the entry of one name replaced, or a new pair at the end. -/
def declareIn (name : Name) (entry : Entry) : List (Name × Entry) → List (Name × Entry)
  | [] => [(name, entry)]
  | (other, kept) :: rest =>
      if other = name then
        (name, entry) :: rest
      else
        (other, kept) :: declareIn name entry rest

/-- A declaration adds its name at the end, unless it is there. -/
theorem map_declareIn (name : Name) (entry : Entry) (pairs : List (Name × Entry)) :
    (declareIn name entry pairs).map (·.1) =
      if name ∈ pairs.map (·.1) then pairs.map (·.1) else pairs.map (·.1) ++ [name] := by
  induction pairs with
  | nil =>
      simp [declareIn]
  | cons pair rest inductive_step =>
      obtain ⟨other, kept⟩ := pair
      by_cases same : other = name
      · simp [declareIn, same]
      · have differs : ¬name = other := fun equal => same equal.symm
        simp only [declareIn, if_neg same, List.map_cons, inductive_step, List.mem_cons,
          differs, false_or]
        split <;> rfl

/-- The catalog with one name declared. -/
def declare (catalog : Catalog Name Entry) (name : Name) (entry : Entry) :
    Catalog Name Entry where
  entries := declareIn name entry catalog.entries
  distinct := by
    rw [map_declareIn]
    split
    · exact catalog.distinct
    · rename_i fresh
      rw [List.nodup_append]
      refine ⟨catalog.distinct, by simp, ?_⟩
      intro left leftMember right rightMember equal
      simp only [List.mem_singleton] at rightMember
      exact fresh (rightMember ▸ equal ▸ leftMember)

theorem lookup_declareIn (name : Name) (entry : Entry) (pairs : List (Name × Entry))
    (other : Name) :
    (declareIn name entry pairs).lookup other =
      if other = name then some entry else pairs.lookup other := by
  have lookup_pair (first : Name) (kept : Entry) (rest : List (Name × Entry)) :
      ((first, kept) :: rest).lookup other =
        if other = first then some kept else rest.lookup other := by
    by_cases here : other = first
    · simp [here]
    · rw [List.lookup_cons, beq_eq_false_iff_ne.mpr here, if_neg here]
  induction pairs with
  | nil =>
      exact lookup_pair name entry []
  | cons pair rest inductive_step =>
      obtain ⟨first, kept⟩ := pair
      rw [declareIn, lookup_pair]
      split
      · rename_i same
        rw [lookup_pair, same]
        split <;> rfl
      · rename_i differs
        rw [lookup_pair, inductive_step]
        split
        · rename_i here
          rw [if_neg (here ▸ differs)]
        · rfl

/-- A declaration gives its name its entry, and changes no other name. -/
theorem get?_declare (catalog : Catalog Name Entry) (name : Name) (entry : Entry)
    (other : Name) :
    (catalog.declare name entry).get? other =
      if other = name then some entry else catalog.get? other :=
  lookup_declareIn name entry catalog.entries other

/-- The catalog of declarations made one after the other. -/
def ofList (pairs : List (Name × Entry)) : Catalog Name Entry :=
  pairs.foldl (fun catalog pair => catalog.declare pair.1 pair.2) empty

end Catalog

end RpcStubs
