import RpcStubs.Proofs.Source.Layout
import RpcStubs.Proofs.Source.Nesting
namespace RpcStubs.Source

open Text

/-!
# Balanced lines

When every line of a text takes code to code, the brackets of the whole are checked line by
line.  Blanks that are dropped at line ends and empty lines that are squeezed make no
difference to the check, so that what is balanced before layout is balanced after it.
-/

namespace Nesting

variable {opened after : List Bracket} {line : List Char} {written : List (List Char)}

/-- The brackets that are open after a line of code, when code goes on after it. -/
def afterLine? (opened : List Bracket) (line : List Char) : Option (List Bracket) :=
  (after? ⟨.code, opened⟩ line).bind fun next =>
    if next.mode.endsLine then some next.opened else none

/-- The brackets that are open after lines of code. -/
def afterLines? (opened : List Bracket) (written : List (List Char)) : Option (List Bracket) :=
  written.foldlM afterLine? opened

theorem afterLine?_eq_some_iff :
    afterLine? opened line = some after ↔
      ∃ mode, after? ⟨.code, opened⟩ line = some ⟨mode, after⟩ ∧ mode.endsLine = true := by
  rw [afterLine?, Option.bind_eq_some_iff]
  constructor
  · rintro ⟨⟨mode, brackets⟩, read, ends⟩
    dsimp only at ends
    split at ends
    · cases ends
      exact ⟨mode, read, ‹_›⟩
    · cases ends
  · rintro ⟨mode, read, ends⟩
    exact ⟨_, read, if_pos ends⟩

@[simp] theorem afterLine?_nil
    (opened : List Bracket) :
    afterLine? opened [] = some opened := by
  simp [afterLine?, Mode.endsLine]

@[simp] theorem afterLines?_nil
    (opened : List Bracket) :
    afterLines? opened [] = some opened := rfl

theorem afterLines?_cons
    (opened : List Bracket)
    (line : List Char)
    (others : List (List Char)) :
    afterLines? opened (line :: others) =
      (afterLine? opened line).bind fun between => afterLines? between others :=
  List.foldlM_cons

/-- A line break leads from where a line can end to code. -/
theorem after?_break
    {nesting : Nesting}
    (ends : nesting.mode.endsLine = true) :
    nesting.after? ['\n'] = some ⟨.code, nesting.opened⟩ := by
  obtain ⟨mode, opened⟩ := nesting
  cases mode with
  | code | slash | lineComment =>
      simp [after?, reading, Reading.steps, Reading.step, Reading.stepCode, Except.toOption,
        Reading.nesting, Function.comp_def]
  | blockComment | literal | escape | raw =>
      cases ends

/-- Lines that lead from code to code do so as a text. -/
theorem after?_ended
    (read : afterLines? opened written = some after) :
    after? ⟨.code, opened⟩ (ended written) = some ⟨.code, after⟩ := by
  induction written generalizing opened with
  | nil =>
      cases read
      simp
  | cons line others inductionHypothesis =>
      rw [afterLines?_cons, Option.bind_eq_some_iff] at read
      obtain ⟨between, lineRead, othersRead⟩ := read
      obtain ⟨mode, taken, ends⟩ := afterLine?_eq_some_iff.mp lineRead
      rw [ended_cons, after?_append, taken, Option.bind_some, after?_cons,
        after?_break ends, Option.bind_some]
      exact inductionHypothesis othersRead

/-- Blanks at the end of a line make no difference. -/
theorem afterLine?_trimEnd
    (oneLine : '\n' ∉ line)
    (read : afterLine? opened line = some after) :
    afterLine? opened (trimEnd line) = some after := by
  obtain ⟨mode, taken, ends⟩ := afterLine?_eq_some_iff.mp read
  obtain ⟨blanks, shape, blank⟩ := exists_blanks line
  have noBreak : '\n' ∉ blanks := fun member => oneLine (shape ▸ List.mem_append_right _ member)
  -- Blanks could only lead out of a literal that a blank closes, and code opens none.
  rw [shape, after?_append, Option.bind_eq_some_iff] at taken
  obtain ⟨between, trimmedRead, blanksRead⟩ := taken
  have proper : between.mode.isProper = true := isProper_after rfl trimmedRead
  obtain ⟨endsThere, sameOpened⟩ := endsLine_of_blanks proper blank noBreak blanksRead ends
  obtain rfl : after = between.opened := sameOpened
  exact afterLine?_eq_some_iff.mpr ⟨between.mode, trimmedRead, endsThere⟩

theorem afterLines?_trimEnd
    (oneLine : ∀ line ∈ written, '\n' ∉ line)
    (read : afterLines? opened written = some after) :
    afterLines? opened (written.map trimEnd) = some after := by
  induction written generalizing opened with
  | nil =>
      exact read
  | cons line others inductionHypothesis =>
      rw [afterLines?_cons, Option.bind_eq_some_iff] at read
      obtain ⟨between, lineRead, othersRead⟩ := read
      rw [List.map_cons, afterLines?_cons, afterLine?_trimEnd (oneLine line (by simp)) lineRead]
      exact inductionHypothesis
        (fun other member => oneLine other (List.mem_cons_of_mem _ member)) othersRead

/-- Empty lines that are squeezed make no difference. -/
theorem afterLines?_squeeze
    (gap : Bool)
    (opened : List Bracket)
    (written : List (List Char)) :
    afterLines? opened (squeeze gap written) = afterLines? opened written := by
  induction written generalizing gap opened with
  | nil =>
      rfl
  | cons line others inductionHypothesis =>
      rw [squeeze]
      split
      · rename_i nothing
        rw [List.isEmpty_iff.mp nothing, afterLines?_cons, afterLine?_nil]
        exact inductionHypothesis true opened
      · have sameAfter : (afterLine? opened line).bind
            (fun between => afterLines? between (squeeze false others)) =
              (afterLine? opened line).bind fun between => afterLines? between others := by
          simp only [inductionHypothesis]
        split
        · rw [afterLines?_cons, afterLine?_nil, Option.bind_some, afterLines?_cons,
            afterLines?_cons, sameAfter]
        · rw [afterLines?_cons, afterLines?_cons, sameAfter]

end Nesting

/-- What leads from code to code with all brackets closed is accepted. -/
theorem checkBrackets_of_after?
    {text : List Char}
    (read : Nesting.after? {} text = some {}) :
    checkBrackets text = .ok () := by
  obtain ⟨next, steps, closed⟩ := Nesting.after?_eq_some_iff.mp read
  have shape : Nesting.reading {} = {} := rfl
  rw [shape] at steps
  obtain ⟨line, mode, opened⟩ := next
  simp only [Reading.nesting, Nesting.mk.injEq, List.map_eq_nil_iff] at closed
  obtain ⟨rfl, rfl⟩ := closed
  rw [checkBrackets, steps]
  rfl

/-- Lines that are balanced line by line are balanced after layout. -/
theorem Nesting.after?_normalize
    {first : List Char}
    {others : List (List Char)}
    (oneLine : ∀ line ∈ first :: others, '\n' ∉ line)
    (solid : trimEnd first ≠ [])
    (balanced : afterLines? [] (first :: others) = some []) :
    after? {} (normalize (ended (first :: others))) = some {} := by
  rw [normalize_eq, normalLines_ended oneLine solid]
  apply after?_ended
  rw [afterLines?_squeeze]
  exact afterLines?_trimEnd oneLine balanced

end RpcStubs.Source
