import RpcStubs.Proofs.Source.Layout
import RpcStubs.Source.Format
namespace RpcStubs

/-!
# Texts that are laid out

What normal layout promises of a text, said on the lines of the text before and after: nothing
but blanks is lost, single empty lines stand where empty lines stood between others, and nowhere
else.  A text that is laid out is left as it is, so formatting it again changes nothing.
-/

namespace Text

/-- A line of blanks only, maybe of none. -/
def IsBlankLine (line : List Char) : Prop :=
  ∀ character ∈ line, isBlank character = true

instance (line : List Char) : Decidable (IsBlankLine line) :=
  inferInstanceAs (Decidable (∀ character ∈ line, isBlank character = true))

/-- Exactly the lines of blanks are trimmed to nothing. -/
theorem trimEnd_eq_nil_iff
    {line : List Char} :
    trimEnd line = [] ↔ IsBlankLine line := by
  constructor
  · intro nothing
    obtain ⟨blanks, shape, allBlank⟩ := exists_blanks line
    rw [nothing, List.nil_append] at shape
    rw [IsBlankLine, shape]
    exact allBlank
  · intro allBlank
    rcases exists_solid line with nothing | ⟨front, last, shape, solid⟩
    · exact nothing
    · have member : last ∈ line :=
        mem_of_mem_trimEnd (by simp [shape])
      rw [allBlank last member] at solid
      cases solid

/-- The lines that do not consist of blanks. -/
def solidLines (written : List (List Char)) : List (List Char) :=
  written.filter (¬IsBlankLine ·)

/-- Trimmed, they are the trimmed lines that are not empty. -/
theorem map_trimEnd_solidLines
    (written : List (List Char)) :
    (solidLines written).map trimEnd = (written.map trimEnd).filter (· ≠ []) := by
  rw [List.filter_map]
  refine congrArg (List.map trimEnd) (List.filter_congr fun line _ => decide_eq_decide.mpr ?_)
  exact not_congr trimEnd_eq_nil_iff.symm

end Text

namespace Source

open Text

/-- Lines that are not empty, with at most one empty line between neighbours. -/
inductive Spaced : List (List Char) → Prop
  | none : Spaced []
  | next {line : List Char} {others : List (List Char)} :
      line ≠ [] →
      Spaced others →
      Spaced (line :: others)
  | apart {line : List Char} {others : List (List Char)} :
      line ≠ [] →
      others ≠ [] →
      Spaced others →
      Spaced (line :: [] :: others)

/-- Squeezed lines are spaced, maybe behind an empty line. -/
theorem spaced_squeeze
    (gap : Bool)
    (written : List (List Char)) :
    Spaced (squeeze gap written) ∨
      ∃ others, squeeze gap written = [] :: others ∧ others ≠ [] ∧ Spaced others := by
  induction written generalizing gap with
  | nil =>
      exact Or.inl .none
  | cons line rest inductionHypothesis =>
      by_cases empty : line = []
      · rw [empty]
        exact inductionHypothesis true
      · have spaced : Spaced (line :: squeeze false rest) := by
          rcases inductionHypothesis false with spaced | ⟨others, shape, nonempty, spaced⟩
          · exact .next empty spaced
          · rw [shape]
            exact .apart empty nonempty spaced
        rw [squeeze_solid empty]
        cases gap with
        | false =>
            exact Or.inl spaced
        | true =>
            exact Or.inr ⟨_, rfl, by simp, spaced⟩

namespace Spaced

variable {written : List (List Char)}

/-- Spaced lines do not start with an empty one. -/
theorem head?_ne
    (spaced : Spaced written) :
    written.head? ≠ some [] := by
  cases spaced <;> simp [*]

/-- Spaced lines do not end with an empty one. -/
theorem getLast?_ne
    (spaced : Spaced written) :
    written.getLast? ≠ some [] := by
  induction spaced with
  | none =>
      simp
  | @next line others solid _ inductionHypothesis =>
      cases others with
      | nil =>
          simpa using solid
      | cons following later =>
          rwa [List.getLast?_cons_cons]
  | @apart line others _ nonempty _ inductionHypothesis =>
      obtain ⟨following, later, rfl⟩ := List.exists_cons_of_ne_nil nonempty
      rwa [List.getLast?_cons_cons, List.getLast?_cons_cons]

/-- No two neighbours of spaced lines are empty. -/
theorem not_both_empty
    (spaced : Spaced written)
    (earlier later : List (List Char)) :
    written ≠ earlier ++ [] :: [] :: later := by
  induction spaced generalizing earlier with
  | none =>
      simp
  | next solid _ inductionHypothesis =>
      intro shape
      cases earlier with
      | nil =>
          exact solid (List.cons.inj shape).1
      | cons first rest =>
          exact inductionHypothesis rest (List.cons.inj shape).2
  | apart solid _ spaced inductionHypothesis =>
      intro shape
      cases earlier with
      | nil =>
          exact solid (List.cons.inj shape).1
      | cons first rest =>
          have tail := (List.cons.inj shape).2
          cases rest with
          | nil =>
              exact spaced.head?_ne (by rw [(List.cons.inj tail).2]; rfl)
          | cons second others =>
              exact inductionHypothesis others (List.cons.inj tail).2

/-- Spaced lines are not squeezed further. -/
theorem squeeze_eq
    (spaced : Spaced written) :
    squeeze false written = written := by
  induction spaced with
  | none =>
      rfl
  | next solid _ inductionHypothesis =>
      rw [squeeze_solid solid, inductionHypothesis]
      rfl
  | apart solid nonempty spaced inductionHypothesis =>
      rename_i line others
      have opened : squeeze true others = [] :: squeeze false others := by
        cases spaced with
        | none =>
            exact (nonempty rfl).elim
        | next first _ | apart first _ _ =>
            rw [squeeze_solid first, squeeze_solid first]
            rfl
      rw [squeeze_solid solid, squeeze_empty, opened, inductionHypothesis]
      rfl

theorem dropWhile_eq
    (spaced : Spaced written) :
    written.dropWhile List.isEmpty = written := by
  cases spaced with
  | none =>
      rfl
  | next solid _ | apart solid _ _ =>
      exact List.dropWhile_cons_of_neg (by simpa using solid)

/-- Ended lines that are spaced and trimmed end in one line break behind no blank. -/
theorem ended_ends
    (spaced : Spaced written)
    (nonempty : written ≠ [])
    (trimmed : ∀ line ∈ written, trimEnd line = line) :
    ∃ front last, ended written = front ++ [last, '\n'] ∧ isBlank last = false := by
  have closes {line : List Char} (solid : line ≠ []) (isTrimmed : trimEnd line = line) :
      ∃ front last, line ++ ['\n'] = front ++ [last, '\n'] ∧ isBlank last = false := by
    rcases exists_solid line with nothing | ⟨front, last, shape, isSolid⟩
    · exact (solid (isTrimmed.symm.trans nothing)).elim
    · refine ⟨front, last, ?_, isSolid⟩
      rw [← isTrimmed, shape]
      simp
  induction spaced with
  | none =>
      exact (nonempty rfl).elim
  | @next line others solid _ inductionHypothesis =>
      by_cases single : others = []
      · obtain ⟨front, last, shape, isSolid⟩ := closes solid (trimmed line (by simp))
        exact ⟨front, last, by simpa [single] using shape, isSolid⟩
      · obtain ⟨front, last, shape, isSolid⟩ :=
          inductionHypothesis single fun other member =>
            trimmed other (List.mem_cons_of_mem _ member)
        exact ⟨line ++ '\n' :: front, last, by simp [shape], isSolid⟩
  | @apart line others _ others_ne _ inductionHypothesis =>
      obtain ⟨front, last, shape, isSolid⟩ :=
        inductionHypothesis others_ne fun other member =>
          trimmed other (List.mem_cons_of_mem _ (List.mem_cons_of_mem _ member))
      exact ⟨line ++ '\n' :: '\n' :: front, last, by simp [shape], isSolid⟩

end Spaced

/-! What squeezing keeps. -/

/-- Squeezing keeps the lines that are not empty. -/
theorem filter_squeeze
    (gap : Bool)
    (written : List (List Char)) :
    (squeeze gap written).filter (· ≠ []) = written.filter (· ≠ []) := by
  induction written generalizing gap with
  | nil =>
      rfl
  | cons line rest inductionHypothesis =>
      by_cases empty : line = []
      · rw [empty, squeeze_empty, inductionHypothesis]
        rfl
      · rw [squeeze_solid empty, List.filter_append, List.filter_cons_of_pos (by simpa using empty),
          List.filter_cons_of_pos (by simpa using empty), inductionHypothesis]
        cases gap <;> rfl

/-- From a line on that is not empty, lines are squeezed apart from those before it. -/
theorem squeeze_append
    {line : List Char}
    (solid : line ≠ [])
    (gap : Bool)
    (earlier later : List (List Char)) :
    ∃ before,
      squeeze gap (earlier ++ line :: later) = before ++ line :: squeeze false later ∧
        before.filter (· ≠ []) = earlier.filter (· ≠ []) := by
  induction earlier generalizing gap with
  | nil =>
      refine ⟨_, squeeze_solid solid gap later, ?_⟩
      cases gap <;> rfl
  | cons first rest inductionHypothesis =>
      by_cases empty : first = []
      · obtain ⟨before, shape, keeps⟩ := inductionHypothesis true
        refine ⟨before, ?_, ?_⟩
        · rw [empty]
          exact shape
        · rw [keeps, empty]
          rfl
      · obtain ⟨before, shape, keeps⟩ := inductionHypothesis false
        refine ⟨(if gap then [[]] else []) ++ first :: before, ?_, ?_⟩
        · rw [List.cons_append, squeeze_solid empty, shape]
          simp
        · rw [List.filter_append, List.filter_cons_of_pos (by simpa using empty), keeps,
            List.filter_cons_of_pos (by simpa using empty)]
          cases gap <;> rfl

/-- Empty lines in front of one that is not are squeezed into one. -/
theorem squeeze_gap
    {line : List Char}
    (solid : line ≠ [])
    {empties : List (List Char)}
    (allEmpty : ∀ other ∈ empties, other = [])
    (gap : Bool)
    (later : List (List Char)) :
    squeeze gap (empties ++ line :: later) =
      (if gap = true ∨ empties ≠ [] then [[]] else []) ++ line :: squeeze false later := by
  induction empties generalizing gap with
  | nil =>
      rw [List.nil_append, squeeze_solid solid]
      simp
  | cons first rest inductionHypothesis =>
      obtain rfl := allEmpty first (by simp)
      rw [List.cons_append, squeeze_empty,
        inductionHypothesis (fun other member => allEmpty other (List.mem_cons_of_mem _ member))]
      simp

/-! The lines of a text in normal layout. -/

/-- Normal lines are spaced. -/
theorem spaced_normalLines
    (text : List Char) :
    Spaced (normalLines text) := by
  rw [normalLines]
  rcases spaced_squeeze false (((lines text).map trimEnd).dropWhile List.isEmpty) with
    spaced | ⟨others, shape, _, _⟩
  · exact spaced
  · -- The first line that is left is not empty, so no empty line comes in front.
    cases kept : ((lines text).map trimEnd).dropWhile List.isEmpty with
    | nil =>
        exact .none
    | cons first rest =>
        have starts := List.head?_dropWhile_not List.isEmpty ((lines text).map trimEnd)
        rw [kept] at shape starts
        have solid : first ≠ [] := by
          simpa using starts
        rw [squeeze_solid solid] at shape
        exact (solid (List.cons.inj shape).1).elim

theorem trimEnd_of_mem_normalLines
    {text line : List Char}
    (member : line ∈ normalLines text) :
    trimEnd line = line := by
  obtain ⟨original, _, rfl⟩ := exists_of_mem_normalLines member
  exact trimEnd_trimEnd original

/-- A normal line is a line of blanks only when it is empty. -/
theorem isBlankLine_iff_of_mem_normalLines
    {text line : List Char}
    (member : line ∈ normalLines text) :
    IsBlankLine line ↔ line = [] := by
  rw [← trimEnd_eq_nil_iff, trimEnd_of_mem_normalLines member]

/-- A text in normal layout is in normal layout. -/
theorem normalize_normalize
    (text : List Char) :
    normalize (normalize text) = normalize text := by
  have spaced := spaced_normalLines text
  have trimmed : (normalLines text).map trimEnd = normalLines text :=
    (List.map_congr_left fun line member => trimEnd_of_mem_normalLines member).trans
      (List.map_id _)
  have same : normalLines (normalize text) = normalLines text := by
    rw [normalLines, lines_normalize, trimmed, spaced.dropWhile_eq, spaced.squeeze_eq]
  rw [normalize_eq (normalize text), same, normalize_eq]

/-- Among normal lines, those that do not consist of blanks are those that are not empty. -/
theorem solidLines_eq_filter
    {text : List Char}
    {written : List (List Char)}
    (normal : written ⊆ normalLines text) :
    solidLines written = written.filter (· ≠ []) :=
  List.filter_congr fun _ member =>
    decide_eq_decide.mpr (not_congr (isBlankLine_iff_of_mem_normalLines (normal member)))

/-- Dropping empty lines keeps the others. -/
theorem filter_dropWhile_isEmpty
    (written : List (List Char)) :
    (written.dropWhile List.isEmpty).filter (· ≠ []) = written.filter (· ≠ []) := by
  induction written with
  | nil =>
      rfl
  | cons line rest inductionHypothesis =>
      cases line with
      | nil =>
          exact inductionHypothesis
      | cons character later =>
          rfl

/-- Empty lines are dropped only in front of the first line that is not empty. -/
theorem dropWhile_isEmpty_append
    {line : List Char}
    (solid : line ≠ [])
    (earlier later : List (List Char)) :
    (earlier ++ line :: later).dropWhile List.isEmpty =
      earlier.dropWhile List.isEmpty ++ line :: later := by
  rw [List.dropWhile_append, List.dropWhile_cons_of_neg (by simpa using solid)]
  split
  · rename_i nothing
    rw [List.isEmpty_iff.mp nothing, List.nil_append]
  · rfl

/--
A text as normal layout leaves it.

Lines are those of the texts before and after; those of the text after are ended by line feeds
alone, so that no carriage return is left at the end of one.  The lines that do not consist of
blanks are kept, trimmed at their ends.  Between two of them stands one empty line when there was
a line of blanks between them, and otherwise none; before the first and behind the last stands
none.
-/
structure LaidOut (source output : List Char) : Prop where
  empty_iff : output = [] ↔ ∀ line ∈ lines source, IsBlankLine line
  lineFeeds : output = ended (lines output)
  ending : output ≠ [] → ∃ front last, output = front ++ [last, '\n'] ∧ last ≠ '\n'
  trimmed : ∀ line ∈ lines output, ∀ front last,
    line = front ++ [last] → isBlank last = false
  starts : ∀ first others, lines output = first :: others → ¬IsBlankLine first
  ends : ∀ others last, lines output = others ++ [last] → ¬IsBlankLine last
  single : ∀ earlier first second later,
    lines output = earlier ++ first :: second :: later →
      ¬(IsBlankLine first ∧ IsBlankLine second)
  kept : solidLines (lines output) = (solidLines (lines source)).map trimEnd
  separated : ∀ earlier first gap second later,
    lines source = earlier ++ first :: (gap ++ second :: later) →
      ¬IsBlankLine first →
      ¬IsBlankLine second →
      (∀ line ∈ gap, IsBlankLine line) →
        ∃ before after,
          lines output =
              before ++ trimEnd first ::
                ((if gap = [] then [] else [[]]) ++ trimEnd second :: after) ∧
            solidLines before = (solidLines earlier).map trimEnd ∧
            solidLines after = (solidLines later).map trimEnd

/-- The normal lines that are not empty are the trimmed lines that are not empty. -/
theorem filter_normalLines
    (text : List Char) :
    (normalLines text).filter (· ≠ []) = (solidLines (lines text)).map trimEnd := by
  rw [normalLines, filter_squeeze, filter_dropWhile_isEmpty, map_trimEnd_solidLines]

/-- There are no normal lines exactly when all lines consist of blanks. -/
theorem normalLines_eq_nil_iff
    {text : List Char} :
    normalLines text = [] ↔ ∀ line ∈ lines text, IsBlankLine line := by
  have keeps := filter_normalLines text
  constructor
  · intro nothing line member
    rw [nothing, List.filter_nil, eq_comm, List.map_eq_nil_iff, solidLines,
      List.filter_eq_nil_iff] at keeps
    simpa using keeps line member
  · intro allBlank
    have none : solidLines (lines text) = [] :=
      List.filter_eq_nil_iff.mpr fun line member => by simpa using allBlank line member
    rw [none, List.map_nil, List.filter_eq_nil_iff] at keeps
    cases shape : normalLines text with
    | nil =>
        rfl
    | cons first others =>
        have solid : first ≠ [] := by
          intro empty
          exact (spaced_normalLines text).head?_ne (by rw [shape, empty]; rfl)
        exact (keeps first (by simp [shape]) (by simpa using solid)).elim

/-- Lines with blank ones between them are normal lines with an empty one between them. -/
theorem normalLines_separated
    {text first second : List Char}
    {earlier gap later : List (List Char)}
    (shape : lines text = earlier ++ first :: (gap ++ second :: later))
    (firstSolid : ¬IsBlankLine first)
    (secondSolid : ¬IsBlankLine second)
    (blank : ∀ line ∈ gap, IsBlankLine line) :
    ∃ before,
      normalLines text =
          before ++ trimEnd first ::
            ((if gap = [] then [] else [[]]) ++
              trimEnd second :: squeeze false (later.map trimEnd)) ∧
        before.filter (· ≠ []) = (solidLines earlier).map trimEnd := by
  have first_ne : trimEnd first ≠ [] :=
    fun nothing => firstSolid (trimEnd_eq_nil_iff.mp nothing)
  have second_ne : trimEnd second ≠ [] :=
    fun nothing => secondSolid (trimEnd_eq_nil_iff.mp nothing)
  have allEmpty : ∀ line ∈ gap.map trimEnd, line = [] := by
    intro line member
    obtain ⟨original, isGap, rfl⟩ := List.mem_map.mp member
    exact trimEnd_eq_nil_iff.mpr (blank original isGap)
  obtain ⟨before, squeezed, keeps⟩ :=
    squeeze_append first_ne false ((earlier.map trimEnd).dropWhile List.isEmpty)
      (gap.map trimEnd ++ trimEnd second :: later.map trimEnd)
  refine ⟨before, ?_, ?_⟩
  · rw [normalLines, shape, List.map_append, List.map_cons, List.map_append, List.map_cons,
      dropWhile_isEmpty_append first_ne, squeezed, squeeze_gap second_ne allEmpty]
    cases gap <;> rfl
  · rw [keeps, filter_dropWhile_isEmpty, map_trimEnd_solidLines]

/-- A text in normal layout is laid out. -/
theorem laidOut_normalize
    (text : List Char) :
    LaidOut text (normalize text) := by
  have spaced := spaced_normalLines text
  have nothing_iff : normalize text = [] ↔ normalLines text = [] := by
    rw [normalize_eq]
    cases normalLines text <;> simp
  constructor
  · exact nothing_iff.trans normalLines_eq_nil_iff
  · rw [lines_normalize, normalize_eq]
  · intro nonempty
    obtain ⟨front, last, shape, solid⟩ :=
      spaced.ended_ends (fun nothing => nonempty (nothing_iff.mpr nothing))
        fun _ => trimEnd_of_mem_normalLines
    refine ⟨front, last, shape, ?_⟩
    rintro rfl
    cases solid
  · intro line member front last shape
    rw [lines_normalize] at member
    have isTrimmed := trimEnd_of_mem_normalLines member
    cases blank : isBlank last with
    | false =>
        rfl
    | true =>
        rw [shape, trimEnd_append_blank blank] at isTrimmed
        obtain ⟨blanks, whole, _⟩ := exists_blanks front
        have lengths := congrArg List.length isTrimmed
        have wholeLength := congrArg List.length whole
        simp only [List.length_append, List.length_cons, List.length_nil] at lengths wholeLength
        omega
  · intro first others shape blank
    rw [lines_normalize] at shape
    have normal : first ∈ normalLines text := by simp [shape]
    rw [isBlankLine_iff_of_mem_normalLines normal] at blank
    exact spaced.head?_ne (by rw [shape, blank]; rfl)
  · intro others last shape blank
    rw [lines_normalize] at shape
    have normal : last ∈ normalLines text := by simp [shape]
    rw [isBlankLine_iff_of_mem_normalLines normal] at blank
    exact spaced.getLast?_ne (by rw [shape, blank, List.getLast?_concat])
  · rintro earlier first second later shape ⟨firstBlank, secondBlank⟩
    rw [lines_normalize] at shape
    have firstNormal : first ∈ normalLines text := by simp [shape]
    have secondNormal : second ∈ normalLines text := by simp [shape]
    rw [isBlankLine_iff_of_mem_normalLines firstNormal] at firstBlank
    rw [isBlankLine_iff_of_mem_normalLines secondNormal] at secondBlank
    exact spaced.not_both_empty earlier later (by rw [shape, firstBlank, secondBlank])
  · rw [lines_normalize, solidLines_eq_filter (List.Subset.refl _), filter_normalLines]
  · intro earlier first gap second later shape firstSolid secondSolid blank
    obtain ⟨before, normal, keeps⟩ :=
      normalLines_separated shape firstSolid secondSolid blank
    rw [lines_normalize]
    have beforeNormal : before ⊆ normalLines text := by
      intro line member
      simp [normal, member]
    have afterNormal : squeeze false (later.map trimEnd) ⊆ normalLines text := by
      intro line member
      simp [normal, member]
    refine ⟨before, _, normal, ?_, ?_⟩
    · rw [solidLines_eq_filter beforeNormal, keeps]
    · rw [solidLines_eq_filter afterNormal, filter_squeeze, map_trimEnd_solidLines]

/--
Formatting lays a text out, and does nothing more to a text that it has formatted.

This holds for every path, whether brackets are checked or not.
-/
theorem normal_laysOut
    {path source output : String}
    (formatted : normal path source = .ok output) :
    LaidOut source.toList output.toList ∧ normal path output = .ok output := by
  have isNormal : output = String.ofList (normalize source.toList) := by
    unfold normal at formatted
    dsimp only at formatted
    split at formatted
    · split at formatted
      · exact (Except.ok.inj formatted).symm
      · cases formatted
    · exact (Except.ok.inj formatted).symm
  have again : normal path output = normal path source := by
    rw [isNormal]
    unfold normal
    rw [String.toList_ofList, normalize_normalize]
  refine ⟨?_, again.trans formatted⟩
  rw [isNormal, String.toList_ofList]
  exact laidOut_normalize source.toList

/-- A function with blank lines around it and in it. -/
def looseFunction : String :=
  "\n \nfunc f() \x7b\r\n\n\t\n\treturn  \n\x7d\n\n"

/-- The function as it is laid out. -/
def tidyFunction : String :=
  "func f() \x7b\n\n\treturn\n\x7d\n"

/-- Blank lines at both ends go, and those in the middle become one. -/
theorem looseFunction_laidOut :
    normal "client.go" looseFunction = .ok tidyFunction ∧
      LaidOut looseFunction.toList tidyFunction.toList ∧
      normal "client.go" tidyFunction = .ok tidyFunction := by
  have formatted : normal "client.go" looseFunction = .ok tidyFunction := by
    rfl
  exact ⟨formatted, normal_laysOut formatted⟩

end Source

end RpcStubs
