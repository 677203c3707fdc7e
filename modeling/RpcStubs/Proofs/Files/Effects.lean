import RpcStubs.Proofs.Files.Plain
namespace RpcStubs.Files.Tree

open Files.Path

/-!
# Looking and changing through straight paths

What a straight path shows in a plain tree, and what the changes through it do: making
directories only adds directories that were missing, and writing a file puts it into a
directory that is there.
-/

variable {tree : Tree} {path : String}

theorem start_of_straight
    (straight : IsStraight path) :
    tree.start path = { names := [] } := by
  rw [start, if_pos straight.absolute]

/-- A straight path leads to what stands under its names; a file needs a name at the end. -/
theorem IsPlain.look_eq_ok_iff
    (plain : tree.IsPlain)
    (straight : IsStraight path)
    {place : Place}
    {entry : Entry} :
    tree.look path = .ok (place, entry) ↔
      place = { names := names path } ∧
        tree.entry? (names path) = some entry ∧
        (endsInDirectory (piecesOf path) = true → entry = .directory) := by
  rw [look, if_neg straight.ne_empty, start_of_straight straight]
  constructor
  · intro looked
    split at looked
    · cases looked
    · cases looked
    · rename_i found stands walked
      cases looked
      rcases plain.walk_from_top straight.noUp walked with
        ⟨other, shape, standsThere, onlyDirectory⟩ | ⟨_, _, _, shape, _⟩
      · cases shape
        exact ⟨rfl, standsThere, onlyDirectory⟩
      · cases shape
  · rintro ⟨rfl, stands, onlyDirectory⟩
    have walked : tree.walk true linkLimit { names := [] } (piecesOf path) =
        .ok (.found { names := names path } entry) :=
      plain.walk_found true linkLimit straight.noUp tree.entry?_nil stands onlyDirectory
    rw [walked]

theorem IsPlain.isPresent_iff
    (plain : tree.IsPlain)
    (straight : IsStraight path) :
    tree.isPresent path = true ↔
      ∃ entry,
        tree.entry? (names path) = some entry ∧
          (endsInDirectory (piecesOf path) = true → entry = .directory) := by
  rw [isPresent]
  constructor
  · intro present
    split at present
    · rename_i looked
      exact ⟨_, ((plain.look_eq_ok_iff straight).mp looked).2⟩
    · cases present
  · rintro ⟨entry, stands⟩
    rw [(plain.look_eq_ok_iff straight).mpr ⟨rfl, stands⟩]

/-- Reading gives the content of the file under the names. -/
theorem IsPlain.read_eq_ok_iff
    (plain : tree.IsPlain)
    (straight : IsStraight path)
    {content : ByteArray} :
    tree.read path = .ok content ↔
      tree.entry? (names path) = some (.file content) ∧
        endsInDirectory (piecesOf path) = false := by
  rw [read]
  constructor
  · intro shown
    split at shown
    · cases shown
    · rename_i found looked
      cases shown
      obtain ⟨-, stands, onlyDirectory⟩ := (plain.look_eq_ok_iff straight).mp looked
      refine ⟨stands, ?_⟩
      cases ends : endsInDirectory (piecesOf path) with
      | true =>
          cases onlyDirectory ends
      | false =>
          rfl
    · cases shown
  · rintro ⟨stands, ends⟩
    rw [(plain.look_eq_ok_iff straight).mpr ⟨rfl, stands, fun other => by
      rw [ends] at other
      cases other⟩]

/-- The empty pieces at the end are idle. -/
theorem steps_withoutTail
    (pieces : List String) :
    steps (withoutTail pieces) = steps pieces := by
  have onlyIdle (piece : String) (empty : decide (piece = "") = true) :
      isIdle piece = true := by
    simp [isIdle, of_decide_eq_true empty]
  rw [withoutTail, steps_reverse_dropWhile onlyIdle, List.reverse_reverse]

theorem subset_withoutTail
    {pieces : List String}
    {piece : String}
    (member : piece ∈ withoutTail pieces) :
    piece ∈ pieces := by
  rw [withoutTail, List.mem_reverse] at member
  exact List.mem_reverse.mp ((List.dropWhile_suffix _).subset member)

/-- The pieces of a path are those without the empty ones at the end, and these. -/
theorem exists_withoutTail
    (pieces : List String) :
    ∃ count, pieces = withoutTail pieces ++ List.replicate count "" := by
  have allEmpty : ∀ piece ∈ (pieces.reverse.takeWhile (· = "")).reverse, piece = "" := by
    intro piece member
    exact of_decide_eq_true
      (List.all_eq_true.mp List.all_takeWhile piece (List.mem_reverse.mp member))
  refine ⟨(pieces.reverse.takeWhile (· = "")).reverse.length, ?_⟩
  rw [← List.eq_replicate_of_mem allEmpty, withoutTail, ← List.reverse_append,
    List.takeWhile_append_dropWhile, List.reverse_reverse]

theorem getLast?_withoutTail
    (pieces : List String) :
    (withoutTail pieces).getLast? ≠ some "" := by
  rw [withoutTail, List.getLast?_reverse]
  intro empty
  have kept := List.head?_dropWhile_not (fun piece : String => decide (piece = "")) pieces.reverse
  rw [empty] at kept
  simp at kept

/-- Pieces that do not end in an empty one are left when empty ones behind them are dropped. -/
theorem withoutTail_append_replicate
    {pieces : List String}
    (solid : pieces.getLast? ≠ some "")
    (count : Nat) :
    withoutTail (pieces ++ List.replicate count "") = pieces := by
  have ending : pieces.reverse.dropWhile (· = "") = pieces.reverse := by
    rw [← List.head?_reverse] at solid
    cases shape : pieces.reverse with
    | nil =>
        rfl
    | cons last others =>
        rw [List.dropWhile_cons_of_neg]
        simpa [shape] using solid
  rw [withoutTail, List.reverse_append, List.reverse_replicate, List.dropWhile_append_of_pos,
    ending, List.reverse_reverse]
  intro piece member
  simp [List.eq_of_mem_replicate member]

/-- A directory is made where nothing stands, in a directory. -/
theorem IsPlain.makeDirectory_eq_ok
    (plain : tree.IsPlain)
    (straight : IsStraight path)
    {made : Tree}
    (isMade : tree.makeDirectory path = .ok made) :
    tree.entry? (names path) = none ∧
      made = tree.place (names path) .directory ∧
      made.IsPlain := by
  rw [makeDirectory, if_neg straight.ne_empty,
    start_of_straight straight] at isMade
  split at isMade
  · cases isMade
  · cases isMade
  · rename_i directory name walked
    cases isMade
    have noUp : ".." ∉ withoutTail (piecesOf path) :=
      fun up => straight.noUp (subset_withoutTail up)
    rcases plain.walk_from_top noUp walked with
      ⟨_, shape, _⟩ | ⟨upper, last, ending, shape, inDirectory, missing⟩
    · cases shape
    · cases shape
      rw [steps_withoutTail] at ending missing
      change names path = directory ++ [name] at ending
      change tree.entry? (names path) = none at missing
      have isName : IsName name :=
        straight.isName_of_mem_names (by simp [ending])
      rw [ending] at missing ⊢
      refine ⟨missing, rfl, ?_⟩
      apply plain.place isName inDirectory
      · intro target same
        cases same
      · intro
        rfl

/-- A file is written into a directory, where no directory stands. -/
theorem IsPlain.writeFile_cases
    (plain : tree.IsPlain)
    (straight : IsStraight path)
    {content : ByteArray}
    {written : Tree}
    (isWritten : tree.writeFile path content = .ok written) :
    endsInDirectory (piecesOf path) = false ∧
      written = tree.place (names path) (.file content) ∧
      tree.entry? (names path) ≠ some .directory ∧
      ∃ upper name,
        names path = upper ++ [name] ∧ tree.entry? upper = some .directory := by
  simp only [writeFile, if_neg straight.ne_empty,
    start_of_straight straight] at isWritten
  cases ends : endsInDirectory (piecesOf path) with
  | true =>
      rw [ends, if_pos rfl] at isWritten
      split at isWritten
      · cases isWritten
      · cases isWritten
  | false =>
      simp only [ends, Bool.false_eq_true, ↓reduceIte] at isWritten
      split at isWritten
      · cases isWritten
      · rename_i place old walked
        cases isWritten
        rcases plain.walk_from_top straight.noUp walked with
          ⟨_, shape, stands, _⟩ | ⟨_, _, _, shape, _⟩
        · cases shape
          have notTop : names path ≠ [] := by
            intro top
            rw [endsInDirectory_of_steps_eq_nil top] at ends
            cases ends
          have ending := (List.dropLast_concat_getLast notTop).symm
          refine ⟨rfl, rfl, ?_, _, _, ending, ?_⟩
          · change tree.entry? (names path) = _ at stands
            rw [stands]
            intro same
            cases same
          · change tree.entry? (names path) = _ at stands
            rw [ending] at stands
            exact plain.closed _ _ _ stands
        · cases shape
      · cases isWritten
      · rename_i directory last walked
        cases isWritten
        rcases plain.walk_from_top straight.noUp walked with
          ⟨_, shape, _⟩ | ⟨upper, name, ending, shape, inDirectory, missing⟩
        · cases shape
        · cases shape
          change names path = directory ++ [last] at ending
          change tree.entry? (names path) = none at missing
          refine ⟨rfl, by rw [ending], ?_, directory, last, ending, inDirectory⟩
          rw [missing]
          intro impossible
          cases impossible

/-- After a file is written through a straight path, it stands under the names. -/
theorem IsPlain.writeFile_eq_ok
    (plain : tree.IsPlain)
    (straight : IsStraight path)
    {content : ByteArray}
    {written : Tree}
    (isWritten : tree.writeFile path content = .ok written) :
    names path ≠ [] ∧
      written = tree.place (names path) (.file content) ∧
      written.IsPlain ∧
      endsInDirectory (piecesOf path) = false := by
  obtain ⟨ends, rfl, noDirectory, upper, name, ending, inDirectory⟩ :=
    plain.writeFile_cases straight isWritten
  have isName : IsName name :=
    straight.isName_of_mem_names (by simp [ending])
  rw [ending] at noDirectory ⊢
  refine ⟨by simp, rfl, ?_, ends⟩
  apply plain.place isName inDirectory
  · intro target same
    cases same
  · intro directory
    exact (noDirectory directory).elim

/-- One tree becomes another one by directories made where some names allow it. -/
structure Grows (allowed : List String → Prop) (before after : Tree) : Prop where
  plain : after.IsPlain
  workplace : after.workplace = before.workplace
  kept : ∀ names,
    after.entry? names = before.entry? names ∨
      allowed names ∧ before.entry? names = none ∧ after.entry? names = some .directory

namespace Grows

variable {allowed : List String → Prop}

theorem refl
    (plain : tree.IsPlain) :
    Grows allowed tree tree :=
  ⟨plain, rfl, fun _ => Or.inl rfl⟩

theorem trans
    {first second third : Tree}
    (earlier : Grows allowed first second)
    (later : Grows allowed second third) :
    Grows allowed first third where
  plain := later.plain
  workplace := later.workplace.trans earlier.workplace
  kept names := by
    rcases later.kept names with same | ⟨allows, missing, made⟩
    · rw [same]
      exact earlier.kept names
    · rcases earlier.kept names with same | ⟨_, _, there⟩
      · exact Or.inr ⟨allows, same ▸ missing, made⟩
      · rw [missing] at there
        cases there

theorem mono
    {wider : List String → Prop}
    {before after : Tree}
    (grows : Grows allowed before after)
    (widens : ∀ names, allowed names → wider names) :
    Grows wider before after where
  plain := grows.plain
  workplace := grows.workplace
  kept names := (grows.kept names).imp_right fun ⟨allows, rest⟩ => ⟨widens names allows, rest⟩

theorem of_makeDirectory
    (plain : tree.IsPlain)
    (straight : IsStraight path)
    (allows : allowed (names path))
    {made : Tree}
    (isMade : tree.makeDirectory path = .ok made) :
    Grows allowed tree made := by
  obtain ⟨missing, rfl, madePlain⟩ := plain.makeDirectory_eq_ok straight isMade
  have notTop : names path ≠ [] := by
    intro top
    simp [top] at missing
  refine ⟨madePlain, rfl, fun others => ?_⟩
  rw [tree.entry?_place notTop]
  split
  · rename_i same
    subst same
    exact Or.inr ⟨allows, missing, rfl⟩
  · exact Or.inl rfl

end Grows

/-- Making a chain of directories, also one that fails, only adds directories. -/
theorem IsPlain.makeChain_grows
    {allowed : List String → Prop}
    (plain : tree.IsPlain)
    {paths : List String}
    (straight : ∀ path ∈ paths, IsStraight path ∧ allowed (names path)) :
    Grows allowed tree (tree.makeChain paths).2 := by
  induction paths with
  | nil =>
      exact .refl plain
  | cons path above inductionHypothesis =>
      obtain ⟨pathStraight, allows⟩ := straight path (by simp)
      have aboveGrows : Grows allowed tree (tree.makeChain above).2 :=
        inductionHypothesis fun other member => straight other (by simp [member])
      rw [makeChain, if_neg pathStraight.ne_empty]
      split
      · rename_i made isMade
        exact .of_makeDirectory plain pathStraight allows isMade
      · split
        · rename_i fault made chained
          exact chained ▸ aboveGrows
        · rename_i made chained
          rw [chained] at aboveGrows
          split
          · rename_i finished isFinished
            exact aboveGrows.trans
              (.of_makeDirectory aboveGrows.plain pathStraight allows isFinished)
          · split
            · exact aboveGrows
            · exact aboveGrows
      · split
        · exact .refl plain
        · exact .refl plain

/-- Making the directory above a straight path only adds directories above it. -/
theorem IsPlain.makeDirectories_grows
    (plain : tree.IsPlain)
    {parent : String}
    (straight : IsStraight path)
    (isParent : parent ∈ parents path) :
    Grows (Above · (names path)) tree (tree.makeDirectories parent).2 := by
  obtain ⟨parentStraight, parentAbove⟩ := straight.of_mem_parents isParent
  apply plain.makeChain_grows
  intro other member
  rcases List.mem_cons.mp member with rfl | further
  · exact ⟨parentStraight, parentAbove⟩
  · obtain ⟨otherStraight, otherAbove⟩ := parentStraight.of_mem_parents further
    exact ⟨otherStraight, otherAbove.trans parentAbove⟩

end RpcStubs.Files.Tree
