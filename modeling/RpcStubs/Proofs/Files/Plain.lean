import RpcStubs.Files.Access
import RpcStubs.Proofs.Files.Names
namespace RpcStubs.Files

open Files.Path

/-!
# Plain trees

A plain tree has no links, and everything in it lies in a directory.  A straight path then
names what stands under its names, and a change through it changes what stands there.
-/

/-- Whether an entry is a link. -/
def Entry.isLink : Entry → Bool
  | .link _ => true
  | _ => false

namespace Tree

/-- A file tree, maybe with links: proper names, each in a directory. -/
structure IsSound (tree : Tree) : Prop where
  named : ∀ names entry, tree.entry? names = some entry → ∀ name ∈ names, IsName name
  closed : ∀ names name entry,
    tree.entry? (names ++ [name]) = some entry → tree.entry? names = some .directory
  anchored : tree.workplace.lost = 0 → tree.entry? tree.workplace.names = some .directory

/-- A file tree without links: proper names, each in a directory. -/
structure IsPlain (tree : Tree) : Prop where
  linkFree : ∀ names target, tree.entry? names ≠ some (.link target)
  named : ∀ names entry, tree.entry? names = some entry → ∀ name ∈ names, IsName name
  closed : ∀ names name entry,
    tree.entry? (names ++ [name]) = some entry → tree.entry? names = some .directory
  anchored : tree.workplace.lost = 0 → tree.entry? tree.workplace.names = some .directory

@[simp] theorem entry?_nil
    (tree : Tree) :
    tree.entry? [] = some .directory := rfl

/-- What is put under some names stands there, and nothing else is changed. -/
theorem entry?_place
    (tree : Tree)
    {names : List String}
    (nonempty : names ≠ [])
    (entry : Entry)
    (other : List String) :
    entry? (tree.place names entry) other =
      if other = names then some entry else tree.entry? other := by
  by_cases top : other = []
  · subst top
    simp [ entry?, nonempty.symm]
  · simp only [ entry?, if_neg top, place]
    exact tree.entries.get?_declare names entry other

/-- What stands in a tree is its top, or it is listed. -/
theorem listed_of_entry?
    {tree : Tree}
    {names : List String}
    {entry : Entry}
    (stands : tree.entry? names = some entry) :
    (names = [] ∧ entry = .directory) ∨ (names, entry) ∈ tree.entries.entries := by
  unfold entry? at stands
  split at stands
  · rename_i top
    exact Or.inl ⟨top, (Option.some.inj stands).symm⟩
  · exact Or.inr (Catalog.get?_eq_some_iff.mp stands)

/-- It is enough to look at what is listed. -/
theorem isSound_of_entries
    {tree : Tree}
    (named : ∀ listed ∈ tree.entries.entries, ∀ name ∈ listed.1, IsName name)
    (closed : ∀ listed ∈ tree.entries.entries,
      tree.entry? listed.1.dropLast = some .directory)
    (anchored : tree.workplace.lost = 0 →
      tree.entry? tree.workplace.names = some .directory) :
    tree.IsSound := by
  constructor
  · intro names entry stands name member
    rcases listed_of_entry? stands with ⟨rfl, _⟩ | listed
    · simp at member
    · exact named _ listed name member
  · intro names name entry stands
    rcases listed_of_entry? stands with ⟨top, _⟩ | listed
    · simp at top
    · simpa using closed _ listed
  · exact anchored

/-- It is enough to look at what is listed, for links as well. -/
theorem isPlain_of_entries
    {tree : Tree}
    (named : ∀ listed ∈ tree.entries.entries, ∀ name ∈ listed.1, IsName name)
    (closed : ∀ listed ∈ tree.entries.entries,
      tree.entry? listed.1.dropLast = some .directory)
    (linkFree : ∀ listed ∈ tree.entries.entries, listed.2.isLink = false)
    (anchored : tree.workplace.lost = 0 →
      tree.entry? tree.workplace.names = some .directory) :
    tree.IsPlain := by
  have sound := isSound_of_entries named closed anchored
  refine ⟨?_, sound.named, sound.closed, sound.anchored⟩
  intro names target stands
  rcases listed_of_entry? stands with ⟨_, same⟩ | listed
  · cases same
  · cases linkFree _ listed

/-- Above everything that stands somewhere is a directory. -/
theorem IsSound.directory_above
    {tree : Tree}
    (sound : tree.IsSound)
    {upper rest : List String}
    {name : String}
    {entry : Entry}
    (stands : tree.entry? (upper ++ name :: rest) = some entry) :
    tree.entry? upper = some .directory := by
  induction rest generalizing upper name with
  | nil =>
      exact sound.closed upper name entry stands
  | cons next later inductionHypothesis =>
      have below : tree.entry? (upper ++ [name]) = some .directory :=
        inductionHypothesis (by simpa using stands)
      exact sound.closed upper name .directory below

namespace IsPlain

variable {tree : Tree}

theorem isSound
    (plain : tree.IsPlain) :
    tree.IsSound :=
  ⟨plain.named, plain.closed, plain.anchored⟩

theorem directory_above
    (plain : tree.IsPlain)
    {upper rest : List String}
    {name : String}
    {entry : Entry}
    (stands : tree.entry? (upper ++ name :: rest) = some entry) :
    tree.entry? upper = some .directory :=
  plain.isSound.directory_above stands

/-- A plain tree stays plain when a directory or a file is put into a directory. -/
theorem place
    (plain : tree.IsPlain)
    {upper : List String}
    {name : String}
    {entry : Entry}
    (isName : IsName name)
    (inDirectory : tree.entry? upper = some .directory)
    (linkFree : ∀ target, entry ≠ .link target)
    (free : tree.entry? (upper ++ [name]) = some .directory → entry = .directory) :
    (tree.place (upper ++ [name]) entry).IsPlain := by
  have nonempty : upper ++ [name] ≠ [] := by
    simp
  have after := tree.entry?_place nonempty entry
  have staysDirectory {names : List String}
      (directory : tree.entry? names = some .directory) :
      entry? (tree.place (upper ++ [name]) entry) names = some .directory := by
    rw [after]
    split
    · rename_i same
      rw [free (same ▸ directory)]
    · exact directory
  constructor
  · intro names target stands
    rw [after] at stands
    split at stands
    · exact linkFree target (Option.some.inj stands)
    · exact plain.linkFree names target stands
  · intro names other stands piece member
    rw [after] at stands
    split at stands
    · rename_i same
      rw [same, List.mem_append, List.mem_singleton] at member
      rcases member with above | rfl
      · exact plain.named upper _ inDirectory piece above
      · exact isName
    · exact plain.named names other stands piece member
  · intro names last other stands
    rw [after] at stands
    split at stands
    · rename_i same
      obtain ⟨rfl, -⟩ := List.append_inj' same rfl
      exact staysDirectory inDirectory
    · exact staysDirectory (plain.closed names last other stands)
  · intro kept
    exact staysDirectory (plain.anchored kept)

end IsPlain

/-! Walking along pieces without `..`. -/

theorem endsInDirectory_cons_cons
    (piece next : String)
    (rest : List String) :
    endsInDirectory (piece :: next :: rest) = endsInDirectory (next :: rest) := by
  simp [endsInDirectory, List.getLast?_cons_cons]

theorem endsInDirectory_of_cons
    {piece : String}
    {rest : List String}
    (ends : endsInDirectory (piece :: rest) = true) :
    endsInDirectory rest = true := by
  cases rest with
  | nil =>
      rfl
  | cons next later =>
      rwa [endsInDirectory_cons_cons] at ends

/-- Pieces without a step end where only a directory can be. -/
theorem endsInDirectory_of_steps_eq_nil
    {pieces : List String}
    (noSteps : steps pieces = []) :
    endsInDirectory pieces = true := by
  unfold endsInDirectory
  split
  · rename_i piece last
    have idle : isIdle piece = true := by
      rw [steps, List.filter_eq_nil_iff] at noSteps
      simpa using noSteps piece (List.mem_of_getLast? last)
    simp [idle]
  · rfl

/-- A name leads to what stands under it in the directory. -/
theorem walkFrom_name
    (tree : Tree)
    (followsLast : Bool)
    (jump : Place → List String → Except Fault Spot)
    {here rest : List String}
    {piece : String}
    (step : isIdle piece = false)
    (notUp : piece ≠ "..") :
    tree.walkFrom followsLast jump { names := here } (piece :: rest) =
      match tree.entry? (here ++ [piece]) with
      | none => if rest = [] then .ok (.absent here piece) else .error .notFound
      | some .directory =>
          tree.walkFrom followsLast jump { names := here ++ [piece] } rest
      | some (.file content) =>
          if rest = [] then
            .ok (.found { names := here ++ [piece] } (.file content))
          else
            .error .notDirectory
      | some (.link target) =>
          if rest = [] && !followsLast then
            .ok (.found { names := here ++ [piece] } (.link target))
          else
            jump (if isAbsolute target then { names := [] } else { names := here })
              (piecesOf target ++ rest) := by
  have notIdle : ¬isIdle piece = true := by
    simp [step]
  have notLost : ¬(0 : Nat) ≠ 0 := by
    simp
  exact (if_neg notIdle).trans ((if_neg notUp).trans (if_neg notLost))

/-- A walk ends at what stands under the names, or just misses it. -/
theorem IsPlain.walk_eq_ok
    {tree : Tree}
    (plain : tree.IsPlain)
    {followsLast : Bool}
    {budget : Nat}
    {pieces here : List String}
    {spot : Spot}
    (noUp : ".." ∉ pieces)
    (directory : tree.entry? here = some .directory)
    (walked : tree.walk followsLast budget { names := here } pieces = .ok spot) :
    (∃ entry,
      spot = .found { names := here ++ steps pieces } entry ∧
        tree.entry? (here ++ steps pieces) = some entry ∧
        (endsInDirectory pieces = true → entry = .directory)) ∨
      ∃ upper name,
        steps pieces = upper ++ [name] ∧
          spot = .absent (here ++ upper) name ∧
          tree.entry? (here ++ upper) = some .directory ∧
          tree.entry? (here ++ steps pieces) = none := by
  obtain ⟨jump, shape⟩ := tree.exists_walkFrom followsLast budget
  rw [shape] at walked
  clear shape
  induction pieces generalizing here with
  | nil =>
      rw [walkFrom] at walked
      cases walked
      exact Or.inl ⟨.directory, by simp, by simpa using directory, fun _ => rfl⟩
  | cons piece rest inductionHypothesis =>
      simp only [List.mem_cons, not_or] at noUp
      obtain ⟨notUp, restNoUp⟩ := noUp
      cases idle : isIdle piece with
      | true =>
          rw [walkFrom, if_pos idle] at walked
          rw [steps_cons_of_idle idle]
          rcases inductionHypothesis restNoUp directory walked with
            ⟨entry, shape, stands, onlyDirectory⟩ | missed
          · refine Or.inl ⟨entry, shape, stands, ?_⟩
            exact fun ends => onlyDirectory (endsInDirectory_of_cons ends)
          · exact Or.inr missed
      | false =>
          have placed : here ++ steps (piece :: rest) = here ++ [piece] ++ steps rest := by
            rw [steps_cons_of_not_idle idle]
            simp
          rw [walkFrom_name tree followsLast jump idle (Ne.symm notUp)] at walked
          split at walked
          · rename_i missing
            split at walked
            · rename_i last
              cases walked
              subst last
              refine Or.inr ⟨[], piece, ?_, by simp, by simpa using directory, ?_⟩
              · rw [steps_cons_of_not_idle idle]
                rfl
              · rw [placed]
                simpa using missing
            · cases walked
          · rename_i below
            rw [placed]
            rcases inductionHypothesis restNoUp below walked with
              ⟨entry, shape, stands, onlyDirectory⟩ |
                ⟨upper, name, ending, shape, stands, missing⟩
            · refine Or.inl ⟨entry, shape, stands, ?_⟩
              exact fun ends => onlyDirectory (endsInDirectory_of_cons ends)
            · refine Or.inr ⟨piece :: upper, name, ?_, ?_, ?_, missing⟩
              · rw [steps_cons_of_not_idle idle, ending]
                rfl
              · simpa using shape
              · simpa using stands
          · rename_i content found
            split at walked
            · rename_i last
              cases walked
              subst last
              refine Or.inl ⟨.file content, by rw [placed]; simp, ?_, ?_⟩
              · rw [placed]
                simpa using found
              · intro ends
                have notUpwards : ¬piece = ".." := fun same => notUp same.symm
                simp [endsInDirectory, idle, notUpwards] at ends
            · cases walked
          · rename_i target found
            exact (plain.linkFree _ _ found).elim

/-- The same for a walk from the top. -/
theorem IsPlain.walk_from_top
    {tree : Tree}
    (plain : tree.IsPlain)
    {followsLast : Bool}
    {budget : Nat}
    {pieces : List String}
    {spot : Spot}
    (noUp : ".." ∉ pieces)
    (walked : tree.walk followsLast budget { names := [] } pieces = .ok spot) :
    (∃ entry,
      spot = .found { names := steps pieces } entry ∧
        tree.entry? (steps pieces) = some entry ∧
        (endsInDirectory pieces = true → entry = .directory)) ∨
      ∃ upper name,
        steps pieces = upper ++ [name] ∧
          spot = .absent upper name ∧
          tree.entry? upper = some .directory ∧
          tree.entry? (steps pieces) = none := by
  have outcome := plain.walk_eq_ok noUp tree.entry?_nil walked
  simpa only [List.nil_append] using outcome

/-- A walk reaches what stands under the names. -/
theorem IsPlain.walk_found
    {tree : Tree}
    (plain : tree.IsPlain)
    (followsLast : Bool)
    (budget : Nat)
    {pieces here : List String}
    {entry : Entry}
    (noUp : ".." ∉ pieces)
    (directory : tree.entry? here = some .directory)
    (stands : tree.entry? (here ++ steps pieces) = some entry)
    (onlyDirectory : endsInDirectory pieces = true → entry = .directory) :
    tree.walk followsLast budget { names := here } pieces =
      .ok (.found { names := here ++ steps pieces } entry) := by
  obtain ⟨jump, shape⟩ := tree.exists_walkFrom followsLast budget
  rw [shape]
  clear shape
  induction pieces generalizing here with
  | nil =>
      rw [walkFrom, onlyDirectory rfl]
      simp
  | cons piece rest inductionHypothesis =>
      simp only [List.mem_cons, not_or] at noUp
      obtain ⟨notUp, restNoUp⟩ := noUp
      have restOnlyDirectory (next : endsInDirectory rest = true)
          (orEmpty : rest = [] → isIdle piece = true ∨ entry = .directory) :
          entry = .directory := by
        cases rest with
        | nil =>
            rcases orEmpty rfl with idle | same
            · exact onlyDirectory (by simp [endsInDirectory, idle])
            · exact same
        | cons other later =>
            exact onlyDirectory (by rwa [endsInDirectory_cons_cons])
      cases idle : isIdle piece with
      | true =>
          rw [steps_cons_of_idle idle] at stands ⊢
          rw [walkFrom, if_pos idle]
          exact inductionHypothesis restNoUp directory stands fun next =>
            restOnlyDirectory next fun _ => Or.inl idle
      | false =>
          have placed : here ++ steps (piece :: rest) = here ++ [piece] ++ steps rest := by
            rw [steps_cons_of_not_idle idle]
            simp
          rw [placed] at stands ⊢
          have inDirectory (more : steps rest ≠ []) :
              tree.entry? (here ++ [piece]) = some .directory := by
            obtain ⟨next, later, shape⟩ := List.exists_cons_of_ne_nil more
            exact plain.directory_above (shape ▸ stands)
          rw [walkFrom_name tree followsLast jump idle (Ne.symm notUp)]
          split
          · rename_i missing
            by_cases last : steps rest = []
            · rw [last, List.append_nil, missing] at stands
              cases stands
            · rw [inDirectory last] at missing
              cases missing
          · rename_i below
            refine inductionHypothesis restNoUp below stands fun next =>
              restOnlyDirectory next fun empty => Or.inr ?_
            subst empty
            simp only [steps_nil, List.append_nil, below, Option.some.injEq] at stands
            exact stands.symm
          · rename_i content found
            by_cases last : steps rest = []
            · rw [last, List.append_nil] at stands ⊢
              rw [found] at stands
              cases stands
              by_cases empty : rest = []
              · rw [if_pos empty]
              · have wrong := restOnlyDirectory (endsInDirectory_of_steps_eq_nil last)
                  fun isEmpty => (empty isEmpty).elim
                cases wrong
            · rw [inDirectory last] at found
              cases found
          · rename_i target found
            exact (plain.linkFree _ _ found).elim

end Tree

end RpcStubs.Files
