import RpcStubs.Proofs.Configuration.Geometry
import RpcStubs.Proofs.Text.Stripped
namespace RpcStubs

/-!
# Joined import paths

Joining takes the elements that count, without the slashes at their ends.  What is joined has no
slash at its ends either, so that it counts as one element when it is joined again: it does not
matter in how many steps a path is put together.  The two import paths of a configuration, which
are put together apart from each other, fit for that reason.
-/

namespace Text

/-- The segments of a text that have a slash on both sides. -/
def innerSegments (text : String) : List String :=
  (segments '/' text).tail.dropLast

/-- A text without slashes at its ends has no empty segment there. -/
theorem empty_mem_segments_iff
    {text : String}
    (bare : IsBare (· == '/') text.toList)
    (nonempty : text ≠ "") :
    "" ∈ segments '/' text ↔ "" ∈ innerSegments text := by
  have whole := join_segments text
  rw [innerSegments]
  cases shape : segments '/' text with
  | nil =>
      exact (segments_ne_nil '/' text shape).elim
  | cons first rest =>
      rw [shape] at whole
      have firstSolid : first ≠ "" := by
        rintro rfl
        cases rest with
        | nil =>
            exact nonempty whole.symm
        | cons next others =>
            have starts : text.toList.head? = some '/' := by
              rw [← whole, join_cons "/" "" (List.cons_ne_nil next others)]
              simp
            have noSlash := bare.start '/' starts
            simp at noSlash
      rcases List.eq_nil_or_concat rest with rfl | ⟨inner, last, rfl⟩
      · simpa [eq_comm] using firstSolid
      · have lastSolid : last ≠ "" := by
          rintro rfl
          have ends : text.toList.getLast? = some '/' := by
            rw [List.concat_eq_append, ← List.cons_append] at whole
            rw [← whole, join_append "/" (List.cons_ne_nil first inner) (by simp)]
            simp [join]
          have noSlash := bare.finish '/' ends
          simp at noSlash
        simp [firstSolid.symm, lastSolid.symm]

end Text

namespace ImportPath

open Text (IsBare innerSegments)

theorem toList_trimmed
    (part : String) :
    (trimmed part).toList = Text.stripped (· == '/') part.toList := by
  rw [trimmed, String.toList_ofList]
  rfl

theorem isBare_trimmed
    (part : String) :
    IsBare (· == '/') (trimmed part).toList := by
  rw [toList_trimmed]
  exact Text.isBare_stripped part.toList

/-- Nothing is trimmed off a bare path. -/
theorem trimmed_of_isBare
    {path : String}
    (bare : IsBare (· == '/') path.toList) :
    trimmed path = path := by
  apply String.toList_inj.mp
  rw [toList_trimmed]
  simpa using @Text.stripped_append _ [] path.toList [] (by simp) bare (by simp)

/-- Only slashes are trimmed to nothing. -/
theorem trimmed_eq_empty_iff
    {part : String} :
    trimmed part = "" ↔ ∀ character ∈ part.toList, character = '/' := by
  rw [← String.toList_eq_nil_iff, toList_trimmed, Text.stripped_eq_iff]
  constructor
  · rintro ⟨before, after, shape, beforeSlashes, _, afterSlashes⟩ character member
    rw [shape, List.nil_append, List.mem_append] at member
    exact beq_iff_eq.mp (member.elim (beforeSlashes character) (afterSlashes character))
  · intro slashes
    exact ⟨part.toList, [], by simp, fun character member => beq_iff_eq.mpr
      (slashes character member), ⟨by simp, by simp⟩, by simp⟩

variable {parts : List String}

theorem mem_elements_iff
    {element : String} :
    element ∈ elements parts ↔ element ≠ "" ∧ ∃ part ∈ parts, trimmed part = element := by
  simp [elements, and_comm]

theorem isBare_of_mem_elements
    {element : String}
    (member : element ∈ elements parts) :
    IsBare (· == '/') element.toList := by
  obtain ⟨_, part, _, rfl⟩ := mem_elements_iff.mp member
  exact isBare_trimmed part

/-- Nothing counts exactly when there are only slashes. -/
theorem elements_eq_nil_iff :
    elements parts = [] ↔ ∀ part ∈ parts, ∀ character ∈ part.toList, character = '/' := by
  rw [List.eq_nil_iff_forall_not_mem]
  simp only [mem_elements_iff, not_and, not_exists]
  constructor
  · intro none part member
    by_contra counts
    exact none (trimmed part) (fun empty => counts (trimmed_eq_empty_iff.mp empty)) part member rfl
  · rintro slashes element nonempty part member rfl
    exact nonempty (trimmed_eq_empty_iff.mpr (slashes part member))

theorem join_eq_empty_iff :
    join parts = "" ↔ elements parts = [] := by
  rw [join_eq]
  constructor
  · intro empty
    by_contra some
    obtain ⟨first, rest, shape⟩ := List.exists_cons_of_ne_nil some
    have member : first ∈ elements parts := by simp [shape]
    rw [shape] at empty
    exact Text.join_ne_empty "/" (ne_empty_of_mem_elements member) rest empty
  · intro none
    rw [none]
    rfl

/-- A joined path starts and ends like elements, and so with no slash. -/
theorem isBare_join
    (parts : List String) :
    IsBare (· == '/') (join parts).toList := by
  rw [join_eq]
  refine ⟨?_, ?_⟩
  · intro character starts
    cases shape : elements parts with
    | nil =>
        rw [shape] at starts
        cases starts
    | cons first rest =>
        have member : first ∈ elements parts := by simp [shape]
        rw [shape, Text.head?_join "/" (ne_empty_of_mem_elements member)] at starts
        exact (isBare_of_mem_elements member).start character starts
  · intro character ends
    rcases List.eq_nil_or_concat (elements parts) with shape | ⟨front, last, shape⟩
    · rw [shape] at ends
      cases ends
    · rw [List.concat_eq_append] at shape
      have member : last ∈ elements parts := by simp [shape]
      rw [shape, Text.getLast?_join "/" front (ne_empty_of_mem_elements member)] at ends
      exact (isBare_of_mem_elements member).finish character ends

/-- A joined path counts as one element, unless it is empty. -/
theorem elements_join
    (parts : List String) :
    elements [join parts] = [join parts].filter (· ≠ "") := by
  simp [elements, trimmed_of_isBare (isBare_join parts)]

/-- A joined path may be joined with other elements, or what it is joined from. -/
theorem join_append_join
    (before parts after : List String) :
    join (before ++ join parts :: after) = join (before ++ (parts ++ after)) := by
  have apart : before ++ join parts :: after = before ++ ([join parts] ++ after) := rfl
  rw [join_eq, join_eq (before ++ (parts ++ after)), apart]
  simp only [elements_append, elements_join]
  by_cases none : elements parts = []
  · simp [none, join_eq_empty_iff.mpr none]
  · rw [List.filter_cons_of_pos (by simpa using mt join_eq_empty_iff.mp none), List.filter_nil,
      join_eq]
    exact Text.join_joined "/" (elements before) none (elements after)

/-- Joining what is joined comes to joining all at once. -/
theorem join_join
    (first second : List String) :
    join [join first, join second] = join (first ++ second) := by
  calc
    join [join first, join second] = join (first ++ [join second]) :=
      join_append_join [] first [join second]
    _ = join (first ++ second) := by
      rw [join_append_join first second [], List.append_nil]

/-- The empty segments inside a joined path are those inside its elements. -/
theorem empty_mem_innerSegments_join_iff :
    "" ∈ innerSegments (join parts) ↔ ∃ part ∈ parts, "" ∈ innerSegments (trimmed part) := by
  have inEmpty : "" ∉ innerSegments "" := by
    decide
  -- Parts that are trimmed to nothing have no segment inside, so the elements tell.
  have ofElements :
      (∃ part ∈ parts, "" ∈ innerSegments (trimmed part)) ↔
        ∃ element ∈ elements parts, "" ∈ innerSegments element := by
    simp only [mem_elements_iff]
    constructor
    · rintro ⟨part, member, inside⟩
      have nonempty : trimmed part ≠ "" := by
        intro isEmpty
        rw [isEmpty] at inside
        exact inEmpty inside
      exact ⟨trimmed part, ⟨nonempty, part, member, rfl⟩, inside⟩
    · rintro ⟨_, ⟨_, part, member, rfl⟩, inside⟩
      exact ⟨part, member, inside⟩
  rw [ofElements]
  by_cases none : elements parts = []
  · rw [join_eq_empty_iff.mpr none, none]
    simpa using inEmpty
  · rw [← Text.empty_mem_segments_iff (isBare_join parts) (mt join_eq_empty_iff.mp none), join_eq,
      Text.segments_join_eq_flatMap none, List.mem_flatMap]
    refine exists_congr fun element => and_congr_right fun member => ?_
    exact Text.empty_mem_segments_iff (isBare_of_mem_elements member)
      (ne_empty_of_mem_elements member)

/-- A path is joined cleanly: no slash at its ends, and no gap that no part has. -/
structure IsClean (parts : List String) (path : String) : Prop where
  bare : IsBare (· == '/') path.toList
  empty_iff : path = "" ↔ ∀ part ∈ parts, ∀ character ∈ part.toList, character = '/'
  gap_iff : "" ∈ innerSegments path ↔ ∃ part ∈ parts, "" ∈ innerSegments (trimmed part)

theorem isClean_join
    (parts : List String) :
    IsClean parts (join parts) where
  bare := isBare_join parts
  empty_iff := join_eq_empty_iff.trans elements_eq_nil_iff
  gap_iff := empty_mem_innerSegments_join_iff

end ImportPath

namespace Configuration

open Files

/--
Import paths may be joined in one step or in two, and they are joined cleanly.

In particular, where the user does not choose otherwise, the messages of a resolved configuration
are imported from the package, joined with the directory of the message file.
-/
theorem imports_joined_in_steps
    (first second : List String) :
    ImportPath.join [ImportPath.join first, ImportPath.join second] =
        ImportPath.join (first ++ second) ∧
      ImportPath.IsClean first (ImportPath.join first) ∧
      ∀ (tree : Tree) (choices : Choices) (fallbacks : Fallbacks) (configuration : Configuration),
        resolve (m := ReaderM Tree) choices fallbacks tree = .ok configuration →
          choices.protoImport = none →
            ∃ directory,
              protoDirectory configuration.protoPath = .ok directory ∧
                configuration.protoImport =
                  ImportPath.join [configuration.packageImport, directory] := by
  refine ⟨ImportPath.join_join first second, ImportPath.isClean_join first, ?_⟩
  intro tree choices fallbacks configuration resolved implicit
  obtain ⟨_, packageImport, directory, accepted, protoImport⟩ := resolve_imports resolved
  refine ⟨directory, accepted, ?_⟩
  rw [protoImport, implicit, Option.getD_none, packageImport]
  exact (ImportPath.join_append_join []
    [configuration.modulePath, configuration.outputRelative] [directory]).symm

/-- Slashes at the ends of elements leave no trace, and those inside of them are kept. -/
theorem linkedTree_imports_joined :
    ImportPath.join [ImportPath.join ["example.com/acme/", "//"], ImportPath.join ["/proto//v1/"]] =
        "example.com/acme/proto//v1" ∧
      ∃ configuration directory,
        resolve (m := ReaderM Tree) { output := some "out" } {} linkedTree = .ok configuration ∧
          configuration.packageImport = "example.com/acme/billing/stubs" ∧
          protoDirectory configuration.protoPath = .ok directory ∧
          configuration.protoImport =
            ImportPath.join ["example.com/acme/billing/stubs", directory] := by
  have shown :
      (resolve (m := ReaderM Tree) { output := some "out" } {} linkedTree).map
          (fun configuration => configuration.packageImport) =
        .ok "example.com/acme/billing/stubs" := by
    decide +kernel
  obtain ⟨configuration, resolved, packageImport⟩ := exists_resolve_of_map shown
  obtain ⟨joined, _, fits⟩ := imports_joined_in_steps ["example.com/acme/", "//"] ["/proto//v1/"]
  obtain ⟨directory, accepted, protoImport⟩ := fits linkedTree _ _ configuration resolved rfl
  rw [packageImport] at protoImport
  have whole : ImportPath.join (["example.com/acme/", "//"] ++ ["/proto//v1/"]) =
      "example.com/acme/proto//v1" := by
    decide
  exact ⟨joined.trans whole, configuration, directory, resolved, packageImport, accepted,
    protoImport⟩

end Configuration

end RpcStubs
