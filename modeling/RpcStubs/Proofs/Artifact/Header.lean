import RpcStubs.Artifact.Render
import RpcStubs.Proofs.Source.Balance
import RpcStubs.Proofs.Text.Letters
namespace RpcStubs

open Source Text

/-!
# Headers and bodies

The text of an artifact is its header, an empty line, and the lines of its body, the first of
which is not blank.  A header is one line; reading it leads from code to code, whatever the
time in it.
-/

/-- The digits of a number mean nothing to a check. -/
theorem isInertText_repr
    (number : Nat) :
    IsInertText number.repr := fun _ member =>
  isInert_of_isKind (by decide) (isDigit_of_mem_toString member)

namespace Instant

theorem isInertText_padded
    (width number : Nat) :
    IsInertText (padded width number) := by
  refine IsInertText.append (fun character member => ?_) (isInertText_repr number)
  rw [String.toList_ofList] at member
  obtain rfl := List.eq_of_mem_replicate member
  decide

theorem isInertText_yearText
    (year : Int) :
    IsInertText (yearText year) := by
  have minus : IsInertText "-" := by decide
  have plus : IsInertText "+" := by decide
  unfold yearText
  split_ifs
  · exact isInertText_padded 4 _
  · exact minus.append (isInertText_padded 4 _)
  · exact plus.append (isInertText_padded 4 _)

/-- The time in a header is written in characters that mean nothing by themselves. -/
theorem isInertText_render
    (time : Instant) :
    IsInertText time.render := by
  have dash : IsInertText "-" := by decide
  have colon : IsInertText ":" := by decide
  have middle : IsInertText "T" := by decide
  have zone : IsInertText "Z" := by decide
  have marked {front mark : String} (frontInert : IsInertText front) (inert : IsInertText mark)
      (number : Nat) : IsInertText (front ++ mark ++ padded 2 number) :=
    (frontInert.append inert).append (isInertText_padded 2 number)
  exact .append (marked (marked (marked (marked (marked (isInertText_yearText _) dash _) dash _)
    middle _) colon _) colon _) zone

end Instant

namespace Artifact

theorem Line.toList_render
    (line : Line) :
    line.render.toList = line.flatMap fun part => part.render.toList := by
  suffices shape : ∀ text : String,
      (line.foldl (fun text part => text ++ part.render) text).toList =
        text.toList ++ line.flatMap fun part => part.render.toList by
    simpa [Line.render] using shape ""
  induction line with
  | nil =>
      simp
  | cons part rest inductionHypothesis =>
      intro text
      rw [List.foldl_cons, inductionHypothesis]
      simp

/-- The text of a line, as characters. -/
def lineText (line : Line) : List Char :=
  line.render.toList

@[simp] theorem lineText_nil : lineText [] = [] := rfl

theorem lineText_cons
    (part : Part)
    (rest : Line) :
    lineText (part :: rest) = part.render.toList ++ lineText rest := by
  simp [lineText, Line.toList_render]

theorem lineText_text
    (text : String)
    (rest : Line) :
    lineText (.text text :: rest) = text.toList ++ lineText rest :=
  lineText_cons (.text text) rest

theorem lineText_fixed
    (text : String) :
    lineText (fixed text) = text.toList := by
  simp [lineText, fixed, Line.toList_render, Part.render]

/-- The texts of the lines of an artifact, below its header. -/
def texts (artifact : Artifact) (model : Model) : List (List Char) :=
  (artifact.lines model).map lineText

/-- The lines of a text, every line ended. -/
theorem toList_textOf
    {lines : List Line}
    (nonempty : lines ≠ []) :
    (textOf lines).toList = ended (lines.map fun line => line.render.toList) := by
  have joins (line : Line) (others : List Line) :
      (Text.join "\n" ((line :: others).map Line.render) ++ "\n").toList =
        ended ((line :: others).map fun line => line.render.toList) := by
    induction others generalizing line with
    | nil =>
        simp [Text.join]
    | cons next later inductionHypothesis =>
        have rest := inductionHypothesis next
        rw [List.map_cons, List.map_cons] at rest ⊢
        rw [List.map_cons, List.map_cons, ended_cons, ← rest, Text.join]
        simp
  obtain ⟨line, others, rfl⟩ := List.exists_cons_of_ne_nil nonempty
  exact joins line others

/-- The body of an artifact: what stands below its header. -/
def body (artifact : Artifact) (model : Model) : List Char :=
  ended ((artifact.lines model).map fun line => line.render.toList)

/-- The first line of a body starts with no blank. -/
theorem exists_first_line
    (artifact : Artifact)
    (model : Model) :
    ∃ text parts others character,
      artifact.lines model = (.text text :: parts) :: others ∧
        text.toList.head? = some character ∧
        isBlank character = false := by
  cases artifact with
  | client | server | pagination | proto | daemon | service | serviceTest | makefile | buf
    | bufGen =>
      exact ⟨_, _, _, _, rfl, rfl, by decide⟩

/-- A body starts with no blank. -/
theorem exists_body
    (artifact : Artifact)
    (model : Model) :
    ∃ character rest, artifact.body model = character :: rest ∧ isBlank character = false := by
  obtain ⟨text, parts, others, character, shape, first, solid⟩ := exists_first_line artifact model
  obtain ⟨later, textShape⟩ := List.head?_eq_some_iff.mp first
  rw [body, shape, List.map_cons, ended_cons, Line.toList_render, List.flatMap_cons, Part.render,
    textShape]
  exact ⟨character, _, rfl, solid⟩

/-- An artifact is its header, an empty line, and its body. -/
theorem toList_render
    (artifact : Artifact)
    (model : Model) :
    (artifact.render model).toList =
      (artifact.header model.generatedAt).toList ++ '\n' :: '\n' :: artifact.body model := by
  obtain ⟨_, _, _, _, shape, _⟩ := exists_first_line artifact model
  have nonempty : artifact.lines model ≠ [] := by
    simp [shape]
  obtain ⟨character, rest, starts, solid⟩ := exists_body artifact model
  have notBreak : (character == '\n') = false := by
    rw [beq_eq_false_iff_ne]
    rintro rfl
    cases solid
  have kept : (textOf (artifact.lines model)).toList.dropWhile (· == '\n') =
      artifact.body model := by
    rw [toList_textOf nonempty]
    change (artifact.body model).dropWhile _ = _
    rw [starts, List.dropWhile_cons_of_neg (by simp [notBreak])]
  simp [render, withHeader, kept]

/-- The text of an artifact is the text of its lines behind those of its header. -/
theorem toList_render_eq_ended
    (artifact : Artifact)
    (model : Model) :
    (artifact.render model).toList =
      ended ((artifact.header model.generatedAt).toList :: [] :: artifact.texts model) := by
  rw [toList_render, ended_cons, ended_cons]
  rfl

/-- A body does not depend on the time. -/
theorem body_generatedAt
    (artifact : Artifact)
    (model : Model)
    (stamp : String) :
    artifact.body { model with generatedAt := stamp } = artifact.body model := by
  cases artifact <;> rfl

/-- A line in front of a body that a check reads from code to code, whatever follows. -/
structure IsHeader (header : List Char) : Prop where
  oneLine : '\n' ∉ header
  nonempty : header ≠ []
  trimmed : trimEnd header = header
  reads : Reading.steps {} (header ++ ['\n', '\n']) = .ok { line := 3 }

/-- A line that leads from code to where a line can end, and ends in a full stop. -/
theorem IsHeader.of_reads
    {header : List Char}
    (mode : Mode)
    (oneLine : '\n' ∉ header)
    (last : header.getLast? = some '.')
    (reads : Reading.steps {} header = .ok { mode := mode })
    (ends : mode = .code ∨ mode = .lineComment) :
    IsHeader header := by
  obtain ⟨front, rfl⟩ := List.getLast?_eq_some_iff.mp last
  refine ⟨oneLine, by simp, trimEnd_append_solid (by decide) front, ?_⟩
  rw [Reading.steps_append, reads]
  rcases ends with rfl | rfl <;> rfl

/-- A header in a comment is one. -/
theorem IsHeader.of_comment
    (before stamp after : String)
    (opens : Reading.steps {} before.toList = .ok { mode := .lineComment })
    (oneLine : '\n' ∉ before.toList ++ stamp.toList ++ after.toList)
    (last : after.toList.getLast? = some '.') :
    IsHeader (before ++ stamp ++ after).toList := by
  rw [String.toList_append, String.toList_append]
  refine .of_reads .lineComment oneLine ?_ ?_ (Or.inr rfl)
  · rw [List.getLast?_append, last]
    rfl
  · rw [List.append_assoc, Reading.steps_append, opens]
    refine Reading.steps_of_lineComment _ rfl ?_
    rw [List.append_assoc] at oneLine
    exact fun member => oneLine (List.mem_append_right _ member)

/-- A header of words is one. -/
theorem IsHeader.of_words
    (before stamp after : String)
    (inert : IsInertText (before ++ stamp ++ after))
    (last : after.toList.getLast? = some '.') :
    IsHeader (before ++ stamp ++ after).toList := by
  refine .of_reads .code (fun member => ?_) ?_ (Reading.steps_of_isInert {} rfl inert) (Or.inl rfl)
  · cases inert _ member
  · rw [String.toList_append, List.getLast?_append, last]
    rfl

/-- Every header is one: the time stands in a comment, or among words. -/
theorem isHeader
    (artifact : Artifact)
    {stamp : String}
    (inert : IsInertText stamp) :
    IsHeader (artifact.header stamp).toList := by
  have comment (before after : String)
      (opens : Reading.steps {} before.toList = .ok { mode := .lineComment })
      (around : ('\n' ∉ before.toList ∧ '\n' ∉ after.toList) ∧
        after.toList.getLast? = some '.') :
      IsHeader (before ++ stamp ++ after).toList := by
    refine .of_comment before stamp after opens ?_ around.2
    simp only [List.mem_append, not_or]
    refine ⟨⟨around.1.1, fun member => ?_⟩, around.1.2⟩
    cases inert _ member
  cases artifact with
  | client | server | pagination | proto =>
      exact comment ("//" ++ " Code generated by oasrpc at ") _ rfl (by decide)
  | daemon | service | serviceTest =>
      have header := comment ("//" ++ " Generated by oasrpc at ")
        (". Safe to edit; " ++ "regeneration replaces this file wholesale.")
        rfl (by decide)
      rwa [← String.append_assoc] at header
  | makefile | buf | bufGen =>
      have before : IsInertText ("#" ++ " Generated by oasrpc at ") := by decide
      have after : IsInertText
          (". Safe to edit; " ++ "regeneration replaces this file wholesale.") := by
        decide
      have header := IsHeader.of_words _ stamp _ ((before.append inert).append after) (by decide)
      rwa [← String.append_assoc] at header

/-- The lines of an artifact as its text has them, which is cut at every line feed. -/
def textLines (artifact : Artifact) (model : Model) : List (List Char) :=
  pieces (· == '\n') (artifact.render model).toList

/-- Where no line is broken, the text has the lines of the artifact, and nothing behind them. -/
theorem textLines_eq
    (artifact : Artifact)
    {model : Model}
    (inert : IsInertText model.generatedAt)
    (oneLine : ∀ line ∈ artifact.texts model, '\n' ∉ line) :
    artifact.textLines model =
      (artifact.header model.generatedAt).toList :: [] :: artifact.texts model ++ [[]] := by
  have unbroken := (artifact.isHeader inert).oneLine
  rw [textLines, toList_render_eq_ended, pieces_ended]
  simpa [unbroken] using oneLine

/-- Normal layout keeps the header of an artifact and the empty line below it. -/
theorem normalize_render
    (artifact : Artifact)
    {model : Model}
    (inert : IsInertText model.generatedAt) :
    normalize (artifact.render model).toList =
      (artifact.header model.generatedAt).toList ++
        '\n' :: '\n' :: normalize (artifact.body model) := by
  obtain ⟨oneLine, nonempty, trimmed, _⟩ := artifact.isHeader inert
  obtain ⟨character, rest, starts, solid⟩ := exists_body artifact model
  rw [toList_render, starts]
  exact normalize_headed oneLine nonempty trimmed solid rest

end Artifact

end RpcStubs
