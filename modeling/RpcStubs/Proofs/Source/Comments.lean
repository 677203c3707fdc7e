import RpcStubs.Proofs.Source.Layout
namespace RpcStubs.Source

open Text

/-!
# Lines of code and lines of comment

A comment that follows another one takes part in no run of empty lines.  Whether it is there
makes no difference to the layout of the lines around it, so that the lines of code of a text
in normal layout do not depend on it.
-/

/-- Whether a line is a comment from its start. -/
def isComment (line : List Char) : Bool :=
  ['/', '/'].isPrefixOf line

/-- The lines that are no comments from their starts. -/
def codeLines (written : List (List Char)) : List (List Char) :=
  written.filter fun line => !isComment line

/-- Lines from which comments that follow other comments may be dropped. -/
inductive DropsComments : List (List Char) → List (List Char) → Prop
  | nil :
      DropsComments [] []
  | line {written kept : List (List Char)} (line : List Char) :
      DropsComments written kept →
      DropsComments (line :: written) (line :: kept)
  | comment {written kept : List (List Char)} {line dropped : List Char} :
      isComment line = true →
      isComment dropped = true →
      DropsComments written kept →
      DropsComments (line :: dropped :: written) (line :: kept)

namespace DropsComments

variable {written kept : List (List Char)}

theorem refl
    (written : List (List Char)) :
    DropsComments written written := by
  induction written with
  | nil =>
      exact .nil
  | cons line _ inductionHypothesis =>
      exact .line line inductionHypothesis

theorem append
    {later laterKept : List (List Char)}
    (first : DropsComments written kept)
    (second : DropsComments later laterKept) :
    DropsComments (written ++ later) (kept ++ laterKept) := by
  induction first with
  | nil =>
      exact second
  | line line _ inductionHypothesis =>
      exact .line line inductionHypothesis
  | comment isLine isDropped _ inductionHypothesis =>
      exact .comment isLine isDropped inductionHypothesis

/-- Blocks that drop comments do so one after the other. -/
theorem flatMap
    {Item : Type}
    (items : List Item)
    {block image : Item → List (List Char)}
    (each : ∀ item, DropsComments (block item) (image item)) :
    DropsComments (items.flatMap block) (items.flatMap image) := by
  induction items with
  | nil =>
      exact .nil
  | cons item _ inductionHypothesis =>
      rw [List.flatMap_cons, List.flatMap_cons]
      exact (each item).append inductionHypothesis

end DropsComments

theorem ne_nil_of_isComment
    {line : List Char}
    (comment : isComment line = true) :
    line ≠ [] := by
  rintro rfl
  cases comment

theorem codeLines_append
    (first second : List (List Char)) :
    codeLines (first ++ second) = codeLines first ++ codeLines second :=
  List.filter_append ..

theorem codeLines_cons_comment
    {line : List Char}
    (comment : isComment line = true)
    (others : List (List Char)) :
    codeLines (line :: others) = codeLines others := by
  simp [codeLines, comment]

/-- Dropped comments change no line of code, and no empty line. -/
theorem DropsComments.codeLines_squeeze
    {written kept : List (List Char)}
    (drops : DropsComments written kept)
    (gap : Bool) :
    codeLines (squeeze gap written) = codeLines (squeeze gap kept) := by
  induction drops generalizing gap with
  | nil =>
      rfl
  | line line _ inductionHypothesis =>
      by_cases nothing : line = []
      · rw [nothing, squeeze_empty, squeeze_empty, inductionHypothesis]
      · rw [squeeze_solid nothing, squeeze_solid nothing, codeLines_append, codeLines_append,
          List.append_cancel_left_eq, codeLines, codeLines, List.filter_cons, List.filter_cons]
        have sameRest := inductionHypothesis false
        unfold codeLines at sameRest
        rw [sameRest]
  | comment isLine isDropped _ inductionHypothesis =>
      rw [squeeze_solid (ne_nil_of_isComment isLine), squeeze_solid (ne_nil_of_isComment isLine),
        squeeze_solid (ne_nil_of_isComment isDropped), codeLines_append, codeLines_append,
        List.append_cancel_left_eq, codeLines_cons_comment isLine, codeLines_cons_comment isLine]
      exact (codeLines_cons_comment isDropped _).trans (inductionHypothesis false)

/-- A comment is one after its blanks at the end are dropped. -/
theorem isComment_trimEnd
    (text : List Char) :
    isComment (trimEnd ('/' :: '/' :: text)) = true := by
  have solid : isBlank '/' = false := by
    decide
  obtain ⟨kept, trimmed⟩ := trimEnd_cons_solid solid text
  rw [trimEnd, trimmed]
  rfl

end RpcStubs.Source
