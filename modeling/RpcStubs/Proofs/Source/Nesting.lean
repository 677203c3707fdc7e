import Mathlib.Tactic.SplitIfs
import RpcStubs.Source.Brackets
import RpcStubs.Text.Blank
namespace RpcStubs.Source

/-!
# Nesting

Line numbers only matter for what a check reports.  What it accepts depends on the nesting:
the mode of a reading and its open brackets.  A text takes one nesting to another one, texts
in a row take it further, and brackets that stay open below change nothing.
-/

/-- The mode of a reading and its open brackets, wherever they were opened. -/
structure Nesting where
  mode : Mode := .code
  opened : List Bracket := []
deriving Repr, DecidableEq

/-- The nesting of a reading. -/
def Reading.nesting (reading : Reading) : Nesting :=
  ⟨reading.mode, reading.opened.map Prod.fst⟩

namespace Nesting

variable {nesting after : Nesting} {character : Char} {text : List Char}

/-- A reading with a nesting, as if everything stood on the first line. -/
def reading (nesting : Nesting) : Reading where
  mode := nesting.mode
  opened := nesting.opened.map fun bracket => (bracket, 1)

/-- The nesting after a text, unless the text cannot be read on. -/
def after? (nesting : Nesting) (text : List Char) : Option Nesting :=
  (nesting.reading.steps text).toOption.map Reading.nesting

/-- The nesting inside further brackets. -/
def within (nesting : Nesting) (below : List Bracket) : Nesting :=
  { nesting with opened := nesting.opened ++ below }

@[simp] theorem nesting_reading
    (nesting : Nesting) :
    nesting.reading.nesting = nesting := by
  simp [reading, Reading.nesting, Function.comp_def]

end Nesting

namespace Reading

/-- A character of code takes readings of one nesting to readings of one nesting. -/
theorem nesting_stepCode
    {first second : Reading}
    (same : first.nesting = second.nesting)
    (character : Char) :
    (first.stepCode character).toOption.map nesting =
      (second.stepCode character).toOption.map nesting := by
  obtain ⟨line, mode, opened⟩ := first
  obtain ⟨otherLine, otherMode, otherOpened⟩ := second
  simp only [nesting, Nesting.mk.injEq] at same
  obtain ⟨rfl, sameBrackets⟩ := same
  unfold stepCode
  split_ifs
  · simp [Except.toOption, nesting, sameBrackets]
  · simp [Except.toOption, nesting, sameBrackets]
  · simp [Except.toOption, nesting, sameBrackets]
  · simp [Except.toOption, nesting, sameBrackets]
  · cases Bracket.opened? character with
    | some bracket =>
        simp [Except.toOption, nesting, sameBrackets]
    | none =>
        cases Bracket.closed? character with
        | none =>
            simp [Except.toOption, nesting, sameBrackets]
        | some bracket =>
            cases opened with
            | nil =>
                obtain rfl := List.map_eq_nil_iff.mp sameBrackets.symm
                rfl
            | cons last others =>
                obtain ⟨otherLast, otherOthers, rfl, sameLast, sameOthers⟩ :=
                  List.map_eq_cons_iff.mp sameBrackets.symm
                simp only [sameLast]
                split_ifs <;> simp [Except.toOption, nesting, sameOthers]

/-- One character takes readings of one nesting to readings of one nesting. -/
theorem nesting_step
    {first second : Reading}
    (same : first.nesting = second.nesting)
    (character : Char) :
    (first.step character).toOption.map nesting =
      (second.step character).toOption.map nesting := by
  have code := nesting_stepCode same character
  obtain ⟨line, mode, opened⟩ := first
  obtain ⟨otherLine, otherMode, otherOpened⟩ := second
  simp only [nesting, Nesting.mk.injEq] at same
  obtain ⟨rfl, sameBrackets⟩ := same
  cases mode with
  | code =>
      exact code
  | slash =>
      simp only [step]
      split_ifs
      · simp [Except.toOption, nesting, sameBrackets]
      · simp [Except.toOption, nesting, sameBrackets]
      · exact code
  | literal quote =>
      simp only [step]
      split_ifs <;> simp [Except.toOption, nesting, sameBrackets]
  | lineComment | blockComment | escape | raw =>
      simp [step, Except.toOption, nesting, sameBrackets]

/-- A text takes readings of one nesting to readings of one nesting. -/
theorem nesting_steps
    {first second : Reading}
    (same : first.nesting = second.nesting)
    (text : List Char) :
    (first.steps text).toOption.map nesting = (second.steps text).toOption.map nesting := by
  induction text generalizing first second with
  | nil =>
      simpa [steps, Except.toOption, pure, Except.pure] using same
  | cons character rest inductionHypothesis =>
      have head := nesting_step same character
      simp only [steps, List.foldlM_cons]
      cases firstStep : first.step character with
      | error imbalance =>
          cases secondStep : second.step character with
          | error other =>
              rfl
          | ok next =>
              simp [firstStep, secondStep, Except.toOption] at head
      | ok between =>
          cases secondStep : second.step character with
          | error other =>
              simp [firstStep, secondStep, Except.toOption] at head
          | ok next =>
              simp only [firstStep, secondStep, Except.toOption, Option.map_some,
                Option.some.injEq] at head
              exact inductionHypothesis head

/-- Where a text takes a reading is seen from the nesting alone. -/
theorem after?_nesting
    (reading : Reading)
    (text : List Char) :
    reading.nesting.after? text = (reading.steps text).toOption.map nesting :=
  nesting_steps (by simp) text

theorem steps_append
    (reading : Reading)
    (first second : List Char) :
    reading.steps (first ++ second) =
      reading.steps first >>= fun between => between.steps second :=
  List.foldlM_append ..

end Reading

namespace Nesting

variable {nesting after : Nesting} {character : Char} {text : List Char}

theorem after?_eq_some_iff :
    nesting.after? text = some after ↔
      ∃ next, nesting.reading.steps text = .ok next ∧ next.nesting = after := by
  rw [after?, Option.map_eq_some_iff]
  cases nesting.reading.steps text <;> simp [Except.toOption]

@[simp] theorem after?_nil
    (nesting : Nesting) :
    nesting.after? [] = some nesting := by
  simp [after?, Reading.steps, Except.toOption, pure, Except.pure]

/-- A second text is read from where the first one leads. -/
theorem after?_append
    (nesting : Nesting)
    (first second : List Char) :
    nesting.after? (first ++ second) =
      (nesting.after? first).bind fun between => between.after? second := by
  rw [after?, Reading.steps_append, after?]
  cases nesting.reading.steps first with
  | error imbalance =>
      rfl
  | ok between =>
      exact (between.after?_nesting second).symm

theorem after?_cons
    (nesting : Nesting)
    (character : Char)
    (rest : List Char) :
    nesting.after? (character :: rest) =
      (nesting.after? [character]).bind fun between => between.after? rest :=
  nesting.after?_append [character] rest

end Nesting

/-! Open brackets below change nothing. -/

namespace Reading

/-- The reading inside further brackets. -/
def within (reading : Reading) (below : List (Bracket × Nat)) : Reading :=
  { reading with opened := reading.opened ++ below }

theorem stepCode_within
    {reading next : Reading}
    {character : Char}
    (read : reading.stepCode character = .ok next)
    (below : List (Bracket × Nat)) :
    (reading.within below).stepCode character = .ok (next.within below) := by
  obtain ⟨line, mode, opened⟩ := reading
  revert read
  unfold stepCode within
  split_ifs
  · rintro ⟨⟩
    rfl
  · rintro ⟨⟩
    rfl
  · rintro ⟨⟩
    rfl
  · rintro ⟨⟩
    rfl
  · cases Bracket.opened? character with
    | some bracket =>
        rintro ⟨⟩
        rfl
    | none =>
        cases Bracket.closed? character with
        | none =>
            rintro ⟨⟩
            rfl
        | some bracket =>
            cases opened with
            | nil =>
                rintro ⟨⟩
            | cons last others =>
                simp only [List.cons_append]
                split_ifs
                · rintro ⟨⟩
                  rfl
                · rintro ⟨⟩

theorem step_within
    {reading next : Reading}
    {character : Char}
    (read : reading.step character = .ok next)
    (below : List (Bracket × Nat)) :
    (reading.within below).step character = .ok (next.within below) := by
  have code (readCode : reading.stepCode character = .ok next) :=
    stepCode_within readCode below
  obtain ⟨line, mode, opened⟩ := reading
  cases mode with
  | code =>
      exact code read
  | slash =>
      revert read
      simp only [step, within]
      split_ifs
      · rintro ⟨⟩
        rfl
      · rintro ⟨⟩
        rfl
      · exact code
  | literal quote =>
      revert read
      simp only [step, within]
      split_ifs <;> rintro ⟨⟩ <;> rfl
  | lineComment | blockComment | escape | raw =>
      cases read
      rfl

theorem steps_within
    {reading next : Reading}
    {text : List Char}
    (read : reading.steps text = .ok next)
    (below : List (Bracket × Nat)) :
    (reading.within below).steps text = .ok (next.within below) := by
  induction text generalizing reading with
  | nil =>
      cases read
      rfl
  | cons character rest inductionHypothesis =>
      rw [steps, List.foldlM_cons] at read ⊢
      cases first : reading.step character with
      | error imbalance =>
          rw [first] at read
          cases read
      | ok between =>
          rw [first] at read
          rw [step_within first]
          exact inductionHypothesis read

end Reading

namespace Nesting

variable {nesting after : Nesting} {character : Char} {text : List Char}

/-- A text is read in the same way inside further brackets. -/
theorem after?_within
    (read : nesting.after? text = some after)
    (below : List Bracket) :
    (nesting.within below).after? text = some (after.within below) := by
  have shape : (nesting.within below).reading =
      nesting.reading.within (below.map fun bracket => (bracket, 1)) := by
    simp [within, reading, Reading.within]
  unfold after? at read ⊢
  rw [shape]
  cases steps : nesting.reading.steps text with
  | error imbalance =>
      rw [steps] at read
      cases read
  | ok next =>
      rw [steps] at read
      cases read
      rw [Reading.steps_within steps]
      simp [Except.toOption, Reading.within, within, Reading.nesting, Function.comp_def]

end Nesting

/-! Characters that a check passes over, and blanks among them. -/

/-- The characters that mean something by themselves: line breaks, marks, quotes and brackets. -/
def activeCharacters : List Char :=
  ['\n', '/', '*', '\\', '\x22', '\x27', '\x60', '(', ')', '[', ']', '\x7b', '\x7d']

/-- Whether a character means nothing by itself. -/
def isInert (character : Char) : Bool :=
  !activeCharacters.contains character

theorem isInert_iff
    {character : Char} :
    isInert character = true ↔ ∀ active ∈ activeCharacters, character ≠ active := by
  rw [isInert, Bool.not_eq_true', ← Bool.not_eq_true, List.contains_iff_mem]
  exact ⟨fun apart active member same => apart (same ▸ member),
    fun apart member => apart character member rfl⟩

/-- The characters of a kind that leaves out the active ones mean nothing. -/
theorem isInert_of_isKind
    {isKind : Char → Bool}
    (leavesOut : activeCharacters.all (!isKind ·) = true)
    {character : Char}
    (ofKind : isKind character = true) :
    isInert character = true := by
  refine isInert_iff.mpr fun active member same => ?_
  have left := List.all_eq_true.mp leavesOut active member
  simp [← same, ofKind] at left

/-- Blanks in a line mean nothing. -/
theorem isInert_of_isBlank
    {character : Char}
    (blank : Text.isBlank character = true)
    (noBreak : character ≠ '\n') :
    isInert character = true := by
  have leavesOut : activeCharacters.all (fun active => !(Text.isBlank active && active != '\n')) :=
    by decide
  exact isInert_of_isKind leavesOut (by simp [blank, noBreak])

/-- Whether every character of a text means nothing by itself. -/
def IsInertText (text : String) : Prop :=
  ∀ character ∈ text.toList, isInert character = true

instance (text : String) : Decidable (IsInertText text) :=
  decidable_of_iff (text.toList.all isInert = true) List.all_eq_true

namespace IsInertText

theorem empty : IsInertText "" := by
  decide

theorem append
    {first second : String}
    (firstInert : IsInertText first)
    (secondInert : IsInertText second) :
    IsInertText (first ++ second) := by
  intro character member
  rw [String.toList_append, List.mem_append] at member
  exact member.elim (firstInert character) (secondInert character)

end IsInertText

namespace Mode

/-- The mode after a character that means nothing by itself. -/
def past (character : Char) : Mode → Mode
  | .code | .slash => .code
  | .lineComment => .lineComment
  | .blockComment _ => .blockComment false
  | .literal quote => if character = quote then .code else .literal quote
  | .escape quote => .literal quote
  | .raw => .raw

/-- Whether characters that mean nothing by themselves leave a mode as it is. -/
def isSteady : Mode → Bool
  | .code | .lineComment => true
  | .literal quote => quote == '\x22'
  | _ => false

/-- Whether a line can end in a mode, with code on the next line. -/
def endsLine : Mode → Bool
  | .code | .slash | .lineComment => true
  | _ => false

/-- Whether no literal of a mode is closed by a blank. -/
def isProper : Mode → Bool
  | .literal quote | .escape quote => !Text.isBlank quote
  | _ => true

theorem past_isProper
    {mode : Mode}
    (proper : mode.isProper = true)
    (character : Char) :
    (mode.past character).isProper = true := by
  cases mode with
  | literal quote =>
      rw [past]
      split_ifs
      · rfl
      · exact proper
  | escape quote =>
      exact proper
  | code | slash | lineComment | blockComment | raw =>
      rfl

/-- Where a line can end after a blank, it can end before it. -/
theorem endsLine_of_past
    {mode : Mode}
    {character : Char}
    (proper : mode.isProper = true)
    (blank : Text.isBlank character = true)
    (ends : (mode.past character).endsLine = true) :
    mode.endsLine = true := by
  cases mode with
  | literal quote =>
      rw [past] at ends
      split_ifs at ends with closes
      · rw [isProper, ← closes, blank] at proper
        cases proper
      · cases ends
  | code | slash | lineComment =>
      rfl
  | blockComment | escape | raw =>
      cases ends

end Mode

namespace Reading

variable {reading next : Reading} {character : Char} {text : List Char}

theorem stepCode_of_isInert
    (reading : Reading)
    (inert : isInert character = true) :
    reading.stepCode character = .ok { reading with mode := .code } := by
  simp only [isInert_iff, activeCharacters, List.forall_mem_cons] at inert
  obtain ⟨noBreak, noSlash, _, _, noDouble, noSingle, noBack, open1, close1, open2, close2, open3,
    close3, _⟩ := inert
  have noOpened : Bracket.opened? character = none := by
    simp [Bracket.opened?, Bracket.opening, open1.symm, open2.symm, open3.symm]
  have noClosed : Bracket.closed? character = none := by
    simp [Bracket.closed?, Bracket.closing, close1.symm, close2.symm, close3.symm]
  simp [stepCode, noBreak, noSlash, noDouble, noSingle, noBack, noOpened, noClosed]

theorem step_of_isInert
    (inert : isInert character = true) :
    reading.step character = .ok { reading with mode := reading.mode.past character } := by
  have code := reading.stepCode_of_isInert inert
  simp only [isInert_iff, activeCharacters, List.forall_mem_cons] at inert
  obtain ⟨noBreak, noSlash, noStar, noEscape, _, _, noBack, _⟩ := inert
  obtain ⟨line, mode, opened⟩ := reading
  cases mode with
  | code =>
      exact code
  | slash =>
      simp only [step, noSlash, noStar, ↓reduceIte]
      exact code
  | lineComment | blockComment | escape | raw =>
      simp [step, lineAfter, Mode.past, noBreak, noSlash, noStar, noBack]
  | literal quote =>
      simp only [step, Mode.past, noEscape, noBreak, ↓reduceIte]
      split_ifs <;> rfl

/-- A text of which no character changes a reading does not change it. -/
theorem steps_of_unchanged
    (unchanged : ∀ character ∈ text, reading.step character = .ok reading) :
    reading.steps text = .ok reading := by
  induction text with
  | nil =>
      rfl
  | cons character rest inductionHypothesis =>
      rw [steps, List.foldlM_cons, unchanged character (by simp)]
      exact inductionHypothesis fun other member =>
        unchanged other (List.mem_cons_of_mem _ member)

/-- Characters that mean nothing by themselves do not change a steady reading. -/
theorem steps_of_isInert
    (reading : Reading)
    (steady : reading.mode.isSteady = true)
    (inert : ∀ character ∈ text, isInert character = true) :
    reading.steps text = .ok reading := by
  apply steps_of_unchanged
  intro character member
  have isInert := inert character member
  have noQuote : character ≠ '\x22' := by
    rintro rfl
    cases isInert
  rw [step_of_isInert isInert]
  obtain ⟨line, mode, opened⟩ := reading
  cases mode with
  | code | lineComment =>
      rfl
  | literal quote =>
      have isQuote : quote = '\x22' := by
        simpa [Mode.isSteady] using steady
      simp [Mode.past, isQuote, noQuote]
  | slash | blockComment | escape | raw =>
      cases steady

/-- A line comment goes on until the line ends. -/
theorem steps_of_lineComment
    (reading : Reading)
    (comment : reading.mode = .lineComment)
    (oneLine : '\n' ∉ text) :
    reading.steps text = .ok reading := by
  apply steps_of_unchanged
  intro character member
  have noBreak : character ≠ '\n' := fun same => oneLine (same ▸ member)
  obtain ⟨line, mode, opened⟩ := reading
  cases comment
  simp [step, lineAfter, noBreak]

/-- A literal goes on until it is closed. -/
theorem steps_of_literal
    (reading : Reading)
    {quote : Char}
    (literal : reading.mode = .literal quote)
    (noEscape : '\\' ∉ text)
    (noBreak : '\n' ∉ text)
    (noQuote : quote ∉ text) :
    reading.steps text = .ok reading := by
  apply steps_of_unchanged
  intro character member
  have notEscape : character ≠ '\\' := fun same => noEscape (same ▸ member)
  have notBreak : character ≠ '\n' := fun same => noBreak (same ▸ member)
  have notQuote : character ≠ quote := fun same => noQuote (same ▸ member)
  obtain ⟨line, mode, opened⟩ := reading
  cases literal
  simp [step, notEscape, notBreak, notQuote]

theorem isProper_stepCode
    (read : reading.stepCode character = .ok next) :
    next.mode.isProper = true := by
  revert read
  unfold stepCode
  split_ifs with _ _ quote
  · rintro ⟨⟩
    rfl
  · rintro ⟨⟩
    rfl
  · rintro ⟨⟩
    rcases Bool.or_eq_true_iff.mp quote with double | single
    · rw [of_decide_eq_true double]
      exact (by decide : (Mode.literal '\x22').isProper = true)
    · rw [of_decide_eq_true single]
      exact (by decide : (Mode.literal '\x27').isProper = true)
  · rintro ⟨⟩
    rfl
  · split
    · rintro ⟨⟩
      rfl
    · split
      · rintro ⟨⟩
      · split_ifs
        · rintro ⟨⟩
          rfl
        · rintro ⟨⟩
    · rintro ⟨⟩
      rfl

/-- No literal comes to be opened that a blank closes. -/
theorem isProper_step
    (proper : reading.mode.isProper = true)
    (read : reading.step character = .ok next) :
    next.mode.isProper = true := by
  obtain ⟨line, mode, opened⟩ := reading
  cases mode with
  | code =>
      exact isProper_stepCode read
  | slash =>
      revert read
      simp only [step]
      split_ifs
      · rintro ⟨⟩
        rfl
      · rintro ⟨⟩
        rfl
      · exact isProper_stepCode
  | literal quote =>
      revert read
      simp only [step]
      split_ifs <;> rintro ⟨⟩
      · exact proper
      · rfl
      · exact proper
  | escape quote =>
      cases read
      exact proper
  | lineComment | blockComment | raw =>
      cases read
      dsimp only
      split_ifs <;> rfl

theorem isProper_steps
    (reading : Reading)
    (proper : reading.mode.isProper = true)
    (read : reading.steps text = .ok next) :
    next.mode.isProper = true := by
  induction text generalizing reading with
  | nil =>
      cases read
      exact proper
  | cons character rest inductionHypothesis =>
      rw [steps, List.foldlM_cons] at read
      cases first : reading.step character with
      | error imbalance =>
          rw [first] at read
          cases read
      | ok between =>
          rw [first] at read
          exact inductionHypothesis between (isProper_step proper first) read

/-- A line that can end after blanks can end before them, with the same brackets open. -/
theorem endsLine_of_blanks
    (reading : Reading)
    (proper : reading.mode.isProper = true)
    (blank : ∀ character ∈ text, Text.isBlank character = true)
    (oneLine : '\n' ∉ text)
    (read : reading.steps text = .ok next)
    (ends : next.mode.endsLine = true) :
    reading.mode.endsLine = true ∧ next.opened = reading.opened := by
  induction text generalizing reading with
  | nil =>
      cases read
      exact ⟨ends, rfl⟩
  | cons character rest inductionHypothesis =>
      simp only [List.mem_cons, not_or] at oneLine
      have isBlank := blank character (by simp)
      have inert := isInert_of_isBlank isBlank (Ne.symm oneLine.1)
      rw [steps, List.foldlM_cons, step_of_isInert inert] at read
      obtain ⟨endsThere, sameOpened⟩ :=
        inductionHypothesis _ (Mode.past_isProper proper character)
          (fun other member => blank other (List.mem_cons_of_mem _ member)) oneLine.2 read
      exact ⟨Mode.endsLine_of_past proper isBlank endsThere, sameOpened⟩

end Reading

namespace Nesting

variable {nesting after : Nesting} {text : List Char}

/-- A text that does not change the reading does not change the nesting. -/
theorem after?_of_steps
    (unchanged : nesting.reading.steps text = .ok nesting.reading) :
    nesting.after? text = some nesting :=
  after?_eq_some_iff.mpr ⟨_, unchanged, nesting.nesting_reading⟩

theorem isProper_after
    (proper : nesting.mode.isProper = true)
    (read : nesting.after? text = some after) :
    after.mode.isProper = true := by
  obtain ⟨next, steps, rfl⟩ := after?_eq_some_iff.mp read
  exact Reading.isProper_steps nesting.reading proper steps

theorem endsLine_of_blanks
    (proper : nesting.mode.isProper = true)
    (blank : ∀ character ∈ text, Text.isBlank character = true)
    (oneLine : '\n' ∉ text)
    (read : nesting.after? text = some after)
    (ends : after.mode.endsLine = true) :
    nesting.mode.endsLine = true ∧ after.opened = nesting.opened := by
  obtain ⟨next, steps, rfl⟩ := after?_eq_some_iff.mp read
  obtain ⟨endsThere, sameOpened⟩ :=
    Reading.endsLine_of_blanks nesting.reading proper blank oneLine steps ends
  refine ⟨endsThere, ?_⟩
  simp [Reading.nesting, sameOpened, reading, Function.comp_def]

end Nesting

end RpcStubs.Source
