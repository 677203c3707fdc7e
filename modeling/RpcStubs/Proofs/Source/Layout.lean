import RpcStubs.Proofs.Text.Pieces
import RpcStubs.Source.Layout
namespace RpcStubs

/-!
# Texts in normal layout

A text of ended lines falls into its lines again, up to the blanks at their ends, which normal
layout drops anyway.  Empty lines in a row are squeezed alike whatever stands around them.
-/

namespace Text

/-- What trimming drops at the end are blanks. -/
theorem exists_blanks
    (text : List Char) :
    ∃ blanks,
      text = trimEnd text ++ blanks ∧ ∀ character ∈ blanks, isBlank character = true := by
  induction text with
  | nil =>
      exact ⟨[], rfl, by simp⟩
  | cons character rest inductionHypothesis =>
      obtain ⟨blanks, shape, allBlank⟩ := inductionHypothesis
      rw [trimEnd]
      split
      · rename_i nothing
        rw [nothing, List.nil_append] at shape
        split
        · rename_i blank
          exact ⟨character :: rest, rfl, by rw [shape]; simpa [blank] using allBlank⟩
        · exact ⟨rest, rfl, by rw [shape]; exact allBlank⟩
      · exact ⟨blanks, by rw [List.cons_append, ← shape], allBlank⟩

theorem trimEnd_append_blank
    {character : Char}
    (blank : isBlank character = true)
    (text : List Char) :
    trimEnd (text ++ [character]) = trimEnd text := by
  induction text with
  | nil =>
      simp [trimEnd, blank]
  | cons first rest inductionHypothesis =>
      rw [List.cons_append, trimEnd, trimEnd, inductionHypothesis]

/-- A text that ends in no blank is not trimmed. -/
theorem trimEnd_append_solid
    {character : Char}
    (solid : isBlank character = false)
    (text : List Char) :
    trimEnd (text ++ [character]) = text ++ [character] := by
  induction text with
  | nil =>
      simp [trimEnd, solid]
  | cons first rest inductionHypothesis =>
      rw [List.cons_append, trimEnd, inductionHypothesis]
      cases shape : rest ++ [character] with
      | nil =>
          simp at shape
      | cons next later =>
          rfl

/-- A text that starts with no blank is not trimmed to nothing. -/
theorem trimEnd_cons_solid
    {character : Char}
    (solid : isBlank character = false)
    (rest : List Char) :
    ∃ kept, trimEnd (character :: rest) = character :: kept := by
  rw [trimEnd]
  split
  · exact ⟨[], by simp [solid]⟩
  · exact ⟨_, rfl⟩

/-- A trimmed text is empty or ends in no blank. -/
theorem exists_solid
    (text : List Char) :
    trimEnd text = [] ∨
      ∃ front last, trimEnd text = front ++ [last] ∧ isBlank last = false := by
  induction text with
  | nil =>
      exact Or.inl rfl
  | cons character rest inductionHypothesis =>
      rw [trimEnd]
      rcases inductionHypothesis with nothing | ⟨front, last, shape, solid⟩
      · rw [nothing]
        cases blank : isBlank character with
        | true =>
            exact Or.inl rfl
        | false =>
            exact Or.inr ⟨[], character, rfl, blank⟩
      · refine Or.inr ⟨character :: front, last, ?_, solid⟩
        rw [shape]
        cases front <;> rfl

@[simp] theorem trimEnd_trimEnd
    (text : List Char) :
    trimEnd (trimEnd text) = trimEnd text := by
  rcases exists_solid text with nothing | ⟨front, last, shape, solid⟩
  · rw [nothing]
    rfl
  · rw [shape, trimEnd_append_solid solid]

theorem mem_of_mem_trimEnd
    {text : List Char}
    {character : Char}
    (member : character ∈ trimEnd text) :
    character ∈ text := by
  obtain ⟨blanks, shape, _⟩ := exists_blanks text
  rw [shape]
  exact List.mem_append_left _ member

/-- A line is cut off where it ends, maybe without a carriage return at its end. -/
theorem lines_ended
    {line : List Char}
    (oneLine : '\n' ∉ line)
    (rest : List Char) :
    ∃ cut,
      lines (line ++ '\n' :: rest) = cut :: lines rest ∧
        (cut = line ∨ line = cut ++ ['\r']) := by
  induction line with
  | nil =>
      exact ⟨[], by simp [lines], Or.inl rfl⟩
  | cons character later inductionHypothesis =>
      simp only [List.mem_cons, not_or] at oneLine
      obtain ⟨cut, shape, ending⟩ := inductionHypothesis oneLine.2
      by_cases returns : character = '\r' ∧ later = []
      · obtain ⟨rfl, rfl⟩ := returns
        exact ⟨[], by simp [lines], Or.inr rfl⟩
      · have noReturn (after : List Char) (isReturn : character = '\r') :
            later ++ '\n' :: rest ≠ '\n' :: after := by
          intro same
          cases later with
          | nil =>
              exact returns ⟨isReturn, rfl⟩
          | cons next others =>
              exact oneLine.2 (by simp [(List.cons.inj same).1])
        have whole : lines (character :: (later ++ '\n' :: rest)) =
            (character :: cut) :: lines rest := by
          rw [lines.eq_4 _ _ (fun isBreak => oneLine.1 isBreak.symm) noReturn, shape]
        refine ⟨character :: cut, whole, ?_⟩
        rcases ending with same | same
        · exact Or.inl (by rw [same])
        · exact Or.inr (by rw [same, List.cons_append])

/-- A text without a line break is one line. -/
theorem lines_oneLine
    {line : List Char}
    (oneLine : '\n' ∉ line)
    (nonempty : line ≠ []) :
    lines line = [line] := by
  induction line with
  | nil =>
      exact (nonempty rfl).elim
  | cons character later inductionHypothesis =>
      simp only [List.mem_cons, not_or] at oneLine
      have noReturn (after : List Char) (_ : character = '\r') : later ≠ '\n' :: after := by
        rintro rfl
        exact oneLine.2 (by simp)
      rw [lines.eq_4 _ _ (fun isBreak => oneLine.1 isBreak.symm) noReturn]
      cases later with
      | nil =>
          rfl
      | cons next others =>
          rw [inductionHypothesis oneLine.2 (by simp)]

/-- No line of a text has a line break in it. -/
theorem noBreak_of_mem_lines
    {text line : List Char}
    (member : line ∈ lines text) :
    '\n' ∉ line := by
  fun_induction lines text generalizing line with
  | case1 =>
      simp at member
  | case2 rest inductionHypothesis | case3 rest inductionHypothesis =>
      rcases List.mem_cons.mp member with rfl | later
      · simp
      · exact inductionHypothesis later
  | case4 character rest notBreak noReturn nothing =>
      obtain rfl := List.mem_singleton.mp member
      simpa using Ne.symm notBreak
  | case5 character rest notBreak noReturn first others shape inductionHypothesis =>
      rw [shape] at inductionHypothesis
      rcases List.mem_cons.mp member with rfl | later
      · simp only [List.mem_cons, not_or]
        exact ⟨Ne.symm notBreak, inductionHypothesis (by simp)⟩
      · exact inductionHypothesis (List.mem_cons_of_mem _ later)

end Text

namespace Source

open Text

/-- Lines as a text, every line ended. -/
def ended (lines : List (List Char)) : List Char :=
  lines.flatMap fun line => line ++ ['\n']

@[simp] theorem ended_nil : ended [] = [] := rfl

@[simp] theorem ended_cons
    (line : List Char)
    (others : List (List Char)) :
    ended (line :: others) = line ++ '\n' :: ended others := by
  simp [ended]

@[simp] theorem ended_append
    (first second : List (List Char)) :
    ended (first ++ second) = ended first ++ ended second := by
  simp [ended]

/-- Ended lines are what their text has between line feeds, and nothing stands behind the last. -/
theorem pieces_ended
    {written : List (List Char)}
    (oneLine : ∀ line ∈ written, '\n' ∉ line) :
    pieces (· == '\n') (ended written) = written ++ [[]] := by
  induction written with
  | nil =>
      rfl
  | cons line others inductionHypothesis =>
      have othersCut :=
        inductionHypothesis fun other member => oneLine other (List.mem_cons_of_mem _ member)
      rw [ended_cons, pieces_append (· == '\n') (beq_self_eq_true '\n'),
        pieces_of_not_mem (oneLine line (by simp)), othersCut]
      rfl

theorem normalize_eq
    (text : List Char) :
    normalize text = ended (normalLines text) := rfl

/-- Ended lines are read again, up to the blanks at their ends. -/
theorem map_trimEnd_lines
    {written : List (List Char)}
    (oneLine : ∀ line ∈ written, '\n' ∉ line)
    (rest : List Char) :
    (lines (ended written ++ rest)).map trimEnd =
      written.map trimEnd ++ (lines rest).map trimEnd := by
  induction written with
  | nil =>
      rfl
  | cons line others inductionHypothesis =>
      obtain ⟨cut, shape, ending⟩ :=
        lines_ended (oneLine line (by simp)) (ended others ++ rest)
      have othersRead :=
        inductionHypothesis fun other member => oneLine other (List.mem_cons_of_mem _ member)
      have sameTrimmed : trimEnd cut = trimEnd line := by
        rcases ending with same | same
        · rw [same]
        · rw [same, trimEnd_append_blank (by decide)]
      rw [ended_cons, List.append_assoc, List.cons_append, shape, List.map_cons, othersRead,
        sameTrimmed]
      rfl

/-- Lines in which nothing is to be trimmed are read again as they are. -/
theorem lines_ended_eq
    {written : List (List Char)}
    (oneLine : ∀ line ∈ written, '\n' ∉ line)
    (trimmed : ∀ line ∈ written, trimEnd line = line) :
    lines (ended written) = written := by
  induction written with
  | nil =>
      rfl
  | cons line others inductionHypothesis =>
      obtain ⟨cut, shape, ending⟩ := lines_ended (oneLine line (by simp)) (ended others)
      have othersRead :=
        inductionHypothesis
          (fun other member => oneLine other (List.mem_cons_of_mem _ member))
          (fun other member => trimmed other (List.mem_cons_of_mem _ member))
      rcases ending with rfl | returns
      · rw [ended_cons, shape, othersRead]
      · have same := trimmed line (by simp)
        rw [returns, trimEnd_append_blank (by decide)] at same
        obtain ⟨blanks, whole, _⟩ := exists_blanks cut
        have lengths := congrArg List.length same
        have wholeLength := congrArg List.length whole
        simp only [List.length_append, List.length_cons, List.length_nil] at lengths wholeLength
        omega

theorem mem_of_mem_squeeze
    {gap : Bool}
    {written : List (List Char)}
    {line : List Char}
    (member : line ∈ squeeze gap written) :
    line = [] ∨ line ∈ written := by
  induction written generalizing gap with
  | nil =>
      simp [squeeze] at member
  | cons first rest inductionHypothesis =>
      have further {later : Bool} (inRest : line ∈ squeeze later rest) :
          line = [] ∨ line ∈ first :: rest :=
        (inductionHypothesis inRest).imp_right (List.mem_cons_of_mem _)
      rw [squeeze] at member
      split at member
      · exact further member
      · split at member
        · rcases List.mem_cons.mp member with nothing | later
          · exact Or.inl nothing
          · rcases List.mem_cons.mp later with rfl | inRest
            · exact Or.inr (by simp)
            · exact further inRest
        · rcases List.mem_cons.mp member with rfl | inRest
          · exact Or.inr (by simp)
          · exact further inRest

/-- A normal line is empty or a line of the text, trimmed. -/
theorem exists_of_mem_normalLines
    {text line : List Char}
    (member : line ∈ normalLines text) :
    ∃ original, '\n' ∉ original ∧ line = trimEnd original := by
  rcases mem_of_mem_squeeze member with nothing | inLines
  · exact ⟨[], by simp, nothing⟩
  · obtain ⟨original, isLine, same⟩ :=
      List.mem_map.mp ((List.dropWhile_suffix List.isEmpty).subset inLines)
    exact ⟨original, noBreak_of_mem_lines isLine, same.symm⟩

/-- A text in normal layout has its normal lines. -/
theorem lines_normalize
    (text : List Char) :
    lines (normalize text) = normalLines text := by
  rw [normalize_eq]
  apply lines_ended_eq
  · intro line member
    obtain ⟨original, oneLine, rfl⟩ := exists_of_mem_normalLines member
    exact fun inTrimmed => oneLine (mem_of_mem_trimEnd inTrimmed)
  · intro line member
    obtain ⟨original, _, rfl⟩ := exists_of_mem_normalLines member
    exact trimEnd_trimEnd original

/-- The normal lines of lines that start with one that is not empty. -/
theorem normalLines_ended
    {first : List Char}
    {others : List (List Char)}
    (oneLine : ∀ line ∈ first :: others, '\n' ∉ line)
    (solid : trimEnd first ≠ []) :
    normalLines (ended (first :: others)) =
      squeeze false (trimEnd first :: others.map trimEnd) := by
  have read := map_trimEnd_lines oneLine []
  rw [List.append_nil, List.map_cons] at read
  rw [normalLines, read]
  simp [lines, solid]

@[simp] theorem squeeze_empty
    (gap : Bool)
    (others : List (List Char)) :
    squeeze gap ([] :: others) = squeeze true others := rfl

theorem squeeze_solid
    {line : List Char}
    (solid : line ≠ [])
    (gap : Bool)
    (others : List (List Char)) :
    squeeze gap (line :: others) =
      (if gap then [[]] else []) ++ line :: squeeze false others := by
  rw [squeeze, if_neg (by simpa using solid)]
  cases gap <;> rfl

/-- The first line of a text that starts with no blank is not trimmed to nothing. -/
theorem exists_first_solid
    {character : Char}
    (solid : isBlank character = false)
    (rest : List Char) :
    ∃ first others,
      (lines (character :: rest)).map trimEnd = (character :: first) :: others := by
  have noBreak : character ≠ '\n' := by
    rintro rfl
    cases solid
  have noReturn : character ≠ '\r' := by
    rintro rfl
    cases solid
  rw [lines.eq_4 _ _ noBreak fun _ isReturn => (noReturn isReturn).elim]
  split
  · exact ⟨[], [], by simp [trimEnd, solid]⟩
  · rename_i line others _
    obtain ⟨kept, shape⟩ := trimEnd_cons_solid solid line
    exact ⟨kept, others.map trimEnd, by rw [List.map_cons, shape]⟩

/-- A text that starts with no blank still does in normal layout. -/
theorem exists_normalize
    {character : Char}
    (solid : isBlank character = false)
    (rest : List Char) :
    ∃ later, normalize (character :: rest) = character :: later := by
  obtain ⟨first, others, starts⟩ := exists_first_solid solid rest
  rw [normalize_eq, normalLines, starts, List.dropWhile_cons_of_neg (by simp),
    squeeze_solid (by simp)]
  exact ⟨_, rfl⟩

/-- A line and an empty one in front of a text stay apart from it in normal layout. -/
theorem normalize_headed
    {header : List Char}
    {character : Char}
    (oneLine : '\n' ∉ header)
    (nonempty : header ≠ [])
    (trimmed : trimEnd header = header)
    (solid : isBlank character = false)
    (rest : List Char) :
    normalize (header ++ '\n' :: '\n' :: character :: rest) =
      header ++ '\n' :: '\n' :: normalize (character :: rest) := by
  obtain ⟨first, others, starts⟩ := exists_first_solid solid rest
  have shape : header ++ '\n' :: '\n' :: character :: rest =
      ended [header, []] ++ character :: rest := by
    simp
  have read : (lines (header ++ '\n' :: '\n' :: character :: rest)).map trimEnd =
      header :: [] :: (character :: first) :: others := by
    rw [shape, map_trimEnd_lines (by simp [oneLine]), starts]
    simp [trimmed, trimEnd]
  rw [normalize_eq, normalize_eq, normalLines, normalLines, read, starts,
    List.dropWhile_cons_of_neg (by simpa using nonempty),
    List.dropWhile_cons_of_neg (by simp), squeeze_solid nonempty, squeeze_empty,
    squeeze_solid (by simp), squeeze_solid (by simp)]
  simp

end Source

end RpcStubs
