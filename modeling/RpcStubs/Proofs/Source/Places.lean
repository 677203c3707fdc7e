import RpcStubs.Proofs.Source.Passages
import RpcStubs.Proofs.Text.Letters
import RpcStubs.Proofs.Text.Pieces
namespace RpcStubs.Source

/-!
# Places of imbalances

What is out of balance is said of characters of the text: a closing bracket, the bracket that it
meets, a bracket that stays open, and where a literal breaks off.  The check names the lines of
these places as it counts them.  It counts all line breaks but those in quoted literals, so that
the lines are right as long as no quoted literal in front of a place goes over a line break.
-/

/-- A place of a text: what stands in front of it, and the quoted literals there. -/
structure Place where
  before : List Char
  quoted : List Char
deriving Repr, DecidableEq

namespace Place

/-- The line of a place. -/
def line (place : Place) : Nat :=
  1 + place.before.count '\n'

/-- The line of a place without counting in quoted literals. -/
def reported (place : Place) : Nat :=
  place.line - place.quoted.count '\n'

end Place

/-- In front of another text, a place leaves these brackets open, each opened at its place. -/
inductive Leaves : List Char → Place → List (Bracket × Place) → Prop
  | nested {after before code quoted : List Char} :
      Passes after before code quoted →
      WellNested (bracketsIn code) →
      Leaves after ⟨before, quoted⟩ []
  | opened {after inside code quoted : List Char} {place : Place}
      {opened : List (Bracket × Place)} (bracket : Bracket) :
      Leaves (bracket.opening :: (inside ++ after)) place opened →
      Passes after inside code quoted →
      WellNested (bracketsIn code) →
      Leaves after
        ⟨place.before ++ bracket.opening :: inside, place.quoted ++ quoted⟩
        ((bracket, place) :: opened)

/-- An imbalance, whatever lines it names, is about these places of a text. -/
inductive Concerns (text : List Char) : Imbalance → List Place → Prop
  | mismatched {closed bracket : Bracket} {after : List Char} {place since : Place}
      {opened : List (Bracket × Place)} (line sinceLine : Nat) :
      text = place.before ++ closed.closing :: after →
      Leaves (closed.closing :: after) place ((bracket, since) :: opened) →
      bracket ≠ closed →
      Concerns text (.mismatched closed line bracket sinceLine) [place, since]
  | unmatched {closed : Bracket} {after : List Char} {place : Place} (line : Nat) :
      text = place.before ++ closed.closing :: after →
      Leaves (closed.closing :: after) place [] →
      Concerns text (.unmatched closed line) [place]
  | unclosed {bracket : Bracket} {after : List Char} {place since : Place}
      {opened : List (Bracket × Place)} (sinceLine : Nat) :
      text = place.before ++ after →
      after = [] ∨ (∃ body, after = '/' :: '/' :: body ∧ '\n' ∉ body) →
      Leaves after place ((bracket, since) :: opened) →
      Concerns text (.unclosed bracket sinceLine) [since]
  | literal {quote : Char} {body after : List Char} {place : Place}
      {opened : List (Bracket × Place)} (line : Nat) :
      text = place.before ++ (quote :: body ++ after) →
      quote = '\x22' ∨ quote = '\x27' →
      BreaksOff quote after body →
      Leaves (quote :: body ++ after) place opened →
      Concerns text (.literal line)
        [⟨place.before ++ quote :: body, place.quoted ++ quote :: body⟩]
  | rawString {body : List Char} {place : Place} {opened : List (Bracket × Place)} :
      text = place.before ++ '\x60' :: body →
      '\x60' ∉ body →
      Leaves ('\x60' :: body) place opened →
      Concerns text .rawString []
  | blockComment {body : List Char} {place : Place} {opened : List (Bracket × Place)} :
      text = place.before ++ '/' :: '*' :: body →
      ¬['*', '/'] <:+: body ++ ['*'] →
      Leaves ('/' :: '*' :: body) place opened →
      Concerns text .blockComment []

theorem bracketsIn_append
    (first second : List Char) :
    bracketsIn (first ++ second) = bracketsIn first ++ bracketsIn second :=
  List.filter_append ..

theorem bracketsIn_enclosed
    (bracket : Bracket)
    (code : List Char) :
    bracketsIn (bracket.opening :: (code ++ [bracket.closing])) =
      bracket.opening :: bracketsIn code ++ [bracket.closing] := by
  have whole : bracket.opening :: (code ++ [bracket.closing]) =
      [bracket.opening] ++ (code ++ [bracket.closing]) := rfl
  have opens : bracketsIn [bracket.opening] = [bracket.opening] := by
    cases bracket <;> rfl
  have closes : bracketsIn [bracket.closing] = [bracket.closing] := by
    cases bracket <;> rfl
  rw [whole, bracketsIn_append, bracketsIn_append, opens, closes]
  rfl

theorem WellNested.append
    {first second : List Char}
    (firstNested : WellNested first)
    (secondNested : WellNested second) :
    WellNested (first ++ second) :=
  closes_nil_iff.mp (firstNested.closes_append (closes_nil_iff.mpr secondNested))

theorem exists_of_mem_bracketCharacters
    {character : Char}
    (isBracket : character ∈ bracketCharacters) :
    ∃ bracket : Bracket, character = bracket.opening ∨ character = bracket.closing := by
  simp only [bracketCharacters, List.mem_cons, List.not_mem_nil, or_false] at isBracket
  rcases isBracket with rfl | rfl | rfl | rfl | rfl | rfl
  · exact ⟨.parenthesis, Or.inl rfl⟩
  · exact ⟨.parenthesis, Or.inr rfl⟩
  · exact ⟨.square, Or.inl rfl⟩
  · exact ⟨.square, Or.inr rfl⟩
  · exact ⟨.brace, Or.inl rfl⟩
  · exact ⟨.brace, Or.inr rfl⟩

/-- No bracket opens a comment or a literal. -/
theorem Bracket.not_opens
    (bracket : Bracket)
    (rest : List Char) :
    ¬Opens bracket.opening rest ∧ ¬Opens bracket.closing rest := by
  cases bracket <;> simp [Opens, Bracket.opening, Bracket.closing]

namespace Leaves

variable {after : List Char} {place : Place} {opened : List (Bracket × Place)}

theorem quoted_sublist
    (leaves : Leaves after place opened) :
    place.quoted.Sublist place.before := by
  induction leaves with
  | nested passes _ =>
      exact passes.quoted_sublist
  | opened bracket _ passes _ inductionHypothesis =>
      exact inductionHypothesis.append (passes.quoted_sublist.cons _)

/-- Passages in which brackets are well nested change no open bracket. -/
theorem append
    {passage code quoted : List Char}
    (leaves : Leaves (passage ++ after) place opened)
    (passes : Passes after passage code quoted)
    (nested : WellNested (bracketsIn code)) :
    Leaves after ⟨place.before ++ passage, place.quoted ++ quoted⟩ opened := by
  cases leaves with
  | nested first firstNested =>
      refine .nested (first.append passes) ?_
      rw [bracketsIn_append]
      exact firstNested.append nested
  | opened bracket leaves first firstNested =>
      rw [List.append_assoc, List.append_assoc, List.cons_append]
      rw [← List.append_assoc] at leaves
      refine .opened bracket leaves (first.append passes) ?_
      rw [bracketsIn_append]
      exact firstNested.append nested

/-- A bracket is open behind the place where it is opened. -/
theorem opening
    {bracket : Bracket}
    (leaves : Leaves (bracket.opening :: after) place opened) :
    Leaves after ⟨place.before ++ [bracket.opening], place.quoted⟩
      ((bracket, place) :: opened) := by
  simpa using @Leaves.opened after [] [] [] place opened bracket leaves .start .empty

/-- Closing the innermost bracket leaves the others open. -/
theorem closing
    {bracket : Bracket}
    {since : Place}
    (leaves : Leaves (bracket.closing :: after) place ((bracket, since) :: opened)) :
    Leaves after ⟨place.before ++ [bracket.closing], place.quoted⟩ opened := by
  cases leaves with
  | @opened _ inside code quoted _ _ _ leaves passes nested =>
      obtain ⟨opensNothing, closesNothing⟩ := bracket.not_opens after
      have closed : Passes after (bracket.opening :: (inside ++ [bracket.closing]))
          (bracket.opening :: (code ++ [bracket.closing])) quoted := by
        have inner := @Passes.append after _ _ _ [bracket.closing] _ _ passes
          (.of_code closesNothing)
        rw [List.append_nil] at inner
        exact .code (bracket.not_opens _).1 inner
      have closedNested :
          WellNested (bracketsIn (bracket.opening :: (code ++ [bracket.closing]))) := by
        rw [bracketsIn_enclosed]
        exact .bracket bracket nested .empty
      have whole := @Leaves.append after _ _ (bracket.opening :: (inside ++ [bracket.closing])) _ _
        (by simpa using leaves) closed closedNested
      simpa using whole

/-- Checking goes on behind a place, with the lines that are reported. -/
theorem check
    (leaves : Leaves after place opened) :
    Reading.check {} (place.before ++ after) =
      Reading.check
        ⟨place.reported, .code, opened.map fun entry => (entry.1, entry.2.reported)⟩ after := by
  induction leaves with
  | nested passes nested =>
      have fewer := passes.quoted_sublist.count_le '\n'
      refine @Passes.check_append _ _ _ _ passes [] _ (closes_nil_iff.mpr nested) _ _ ?_
      simp only [Place.reported, Place.line]
      omega
  | @opened after inside code quoted place opened bracket leaves passes nested
      inductionHypothesis =>
      have fewer := leaves.quoted_sublist.count_le '\n'
      have fewerInside := passes.quoted_sublist.count_le '\n'
      have noBreak : (bracket.opening == '\n') = false := by
        cases bracket <;> rfl
      rw [List.append_assoc, List.cons_append, inductionHypothesis, Reading.check_opening]
      refine @Passes.check_append _ _ _ _ passes [] _ (closes_nil_iff.mpr nested) _ _ ?_
      simp only [Place.reported, Place.line, List.count_append, List.count_cons, noBreak,
        Bool.false_eq_true, ↓reduceIte]
      omega

/-- At the end of a text, only what is open is wrong. -/
theorem check_end
    (leaves : Leaves after place opened)
    (ends : after = [] ∨ ∃ body, after = '/' :: '/' :: body ∧ '\n' ∉ body) :
    Reading.check {} (place.before ++ after) =
      match opened with
      | [] => .ok ()
      | (bracket, since) :: _ => .error (.unclosed bracket since.reported) := by
  have atEnd : Reading.check {} (place.before ++ after) =
      Reading.check
        ⟨place.reported, .code, opened.map fun entry => (entry.1, entry.2.reported)⟩ [] := by
    rw [leaves.check]
    rcases ends with rfl | ⟨body, rfl, free⟩
    · rfl
    · exact Reading.check_lastComment free
  rw [atEnd]
  cases opened <;> rfl

end Leaves

theorem checkBrackets_eq_check
    (text : List Char) :
    checkBrackets text = Reading.check {} text := by
  rw [checkBrackets, Reading.check]
  cases Reading.steps {} text <;> rfl

/-- The lines that an imbalance names. -/
def Imbalance.lines : Imbalance → List Nat
  | .mismatched _ line _ since => [line, since]
  | .unmatched _ line => [line]
  | .unclosed _ since => [since]
  | .literal line => [line]
  | .rawString | .blockComment => []

namespace Concerns

variable {text : List Char} {imbalance : Imbalance} {places : List Place}

/-- Whatever is out of balance, it is so with the lines that are reported. -/
theorem exists_reported
    (concerns : Concerns text imbalance places) :
    ∃ found, Concerns text found places ∧ found.lines = places.map Place.reported := by
  cases concerns with
  | mismatched _ _ shape leaves other =>
      exact ⟨_, .mismatched _ _ shape leaves other, rfl⟩
  | unmatched _ shape leaves =>
      exact ⟨_, .unmatched _ shape leaves, rfl⟩
  | unclosed _ shape ends leaves =>
      exact ⟨_, .unclosed _ shape ends leaves, rfl⟩
  | literal _ shape isQuote breaksOff leaves =>
      exact ⟨_, .literal _ shape isQuote breaksOff leaves, rfl⟩
  | rawString shape free leaves =>
      exact ⟨_, .rawString shape free leaves, rfl⟩
  | blockComment shape noEnd leaves =>
      exact ⟨_, .blockComment shape noEnd leaves, rfl⟩

/-- What is out of balance at some places is found by the check. -/
theorem checkBrackets_eq_error
    (concerns : Concerns text imbalance places)
    (reported : imbalance.lines = places.map Place.reported) :
    checkBrackets text = .error imbalance := by
  rw [checkBrackets_eq_check]
  cases concerns with
  | mismatched line sinceLine shape leaves other =>
      simp only [Imbalance.lines, List.map_cons, List.map_nil, List.cons.injEq, and_true]
        at reported
      obtain ⟨rfl, rfl⟩ := reported
      rw [shape, leaves.check]
      exact Reading.check_closing_other other _
  | unmatched line shape leaves =>
      cases reported
      rw [shape, leaves.check]
      exact Reading.check_closing_nothing _ _
  | unclosed line shape ends leaves =>
      cases reported
      rw [shape, leaves.check_end ends]
  | @literal quote body after place opened line shape isQuote breaksOff leaves =>
      have sameLine : line = place.reported := by
        simp only [Imbalance.lines, List.map_cons, List.map_nil, List.cons.injEq, and_true,
          Place.reported, Place.line, List.count_append] at reported ⊢
        omega
      rw [shape, leaves.check, ← List.singleton_append, List.append_assoc,
        Reading.check_append (Reading.steps_quote isQuote), sameLine]
      exact Reading.check_breaksOff breaksOff
  | rawString shape free leaves =>
      rw [shape, leaves.check]
      exact Reading.check_unendedRaw free
  | blockComment shape noEnd leaves =>
      rw [shape, leaves.check]
      exact Reading.check_unendedComment noEnd

end Concerns

namespace Leaves

variable {after : List Char} {place : Place} {opened : List (Bracket × Place)}

/-- Where the text ends, all is in balance, or a bracket stays open. -/
theorem balanced_or_concerns_of_ends
    (leaves : Leaves after place opened)
    (ends : after = [] ∨ ∃ body, after = '/' :: '/' :: body ∧ '\n' ∉ body) :
    checkBrackets (place.before ++ after) = .ok () ∨
      ∃ imbalance places, Concerns (place.before ++ after) imbalance places := by
  cases opened with
  | nil =>
      exact Or.inl ((checkBrackets_eq_check _).trans (leaves.check_end ends))
  | cons entry others =>
      exact Or.inr ⟨_, _, .unclosed 0 rfl ends leaves⟩

/-- Where a comment or a literal is not ended, nothing is wrong at most with a line comment. -/
theorem balanced_or_concerns_of_unended
    (leaves : Leaves after place opened)
    (unended : Unended after) :
    checkBrackets (place.before ++ after) = .ok () ∨
      ∃ imbalance places, Concerns (place.before ++ after) imbalance places := by
  cases unended with
  | lineComment free =>
      exact leaves.balanced_or_concerns_of_ends (Or.inr ⟨_, rfl, free⟩)
  | blockComment noEnd =>
      exact Or.inr ⟨_, _, .blockComment rfl noEnd leaves⟩
  | literal isQuote breaksOff =>
      exact Or.inr ⟨_, _, .literal 0 rfl isQuote breaksOff leaves⟩
  | raw free =>
      exact Or.inr ⟨_, _, .rawString rfl free leaves⟩

/-- A character of code leads on, or it closes what is not open. -/
theorem leads_on_or_concerns
    {character : Char}
    {rest : List Char}
    (leaves : Leaves (character :: rest) place opened)
    (plain : ¬Opens character rest) :
    (∃ next, Leaves rest ⟨place.before ++ [character], place.quoted⟩ next) ∨
      ∃ imbalance places, Concerns (place.before ++ character :: rest) imbalance places := by
  by_cases isBracket : character ∈ bracketCharacters
  · obtain ⟨bracket, rfl | rfl⟩ := exists_of_mem_bracketCharacters isBracket
    · exact Or.inl ⟨_, leaves.opening⟩
    · match opened with
      | [] =>
          exact Or.inr ⟨_, _, .unmatched 0 rfl leaves⟩
      | (last, since) :: others =>
          by_cases same : last = bracket
          · subst same
            exact Or.inl ⟨_, leaves.closing⟩
          · exact Or.inr ⟨_, _, .mismatched 0 0 rfl leaves same⟩
  · have nothing : bracketsIn [character] = [] := by
      simp [bracketsIn, isBracket]
    have goesOn := @Leaves.append rest _ _ [character] _ _ leaves (.of_code plain)
      (by rw [nothing]; exact .empty)
    rw [List.append_nil] at goesOn
    exact Or.inl ⟨_, goesOn⟩

/-- Behind any place, all is in balance, or something is out of balance at some places. -/
theorem balanced_or_concerns
    (leaves : Leaves after place opened) :
    checkBrackets (place.before ++ after) = .ok () ∨
      ∃ imbalance places, Concerns (place.before ++ after) imbalance places := by
  -- The induction is on the length, since a comment or a literal is passed as a whole.
  induction size : after.length using Nat.strongRecOn generalizing after place opened with
  | ind bound inductionHypothesis =>
    subst size
    -- What follows a passage is judged behind it.
    have behind
        {passage rest quoted : List Char}
        {next : List (Bracket × Place)}
        (shape : after = passage ++ rest)
        (nonempty : passage ≠ [])
        (goesOn : Leaves rest ⟨place.before ++ passage, quoted⟩ next) :
        checkBrackets (place.before ++ after) = .ok () ∨
          ∃ imbalance places, Concerns (place.before ++ after) imbalance places := by
      have shorter : rest.length < after.length := by
        have some := List.length_pos_iff.mpr nonempty
        rw [shape, List.length_append]
        omega
      have judged := inductionHypothesis _ shorter goesOn rfl
      rwa [List.append_assoc, ← shape] at judged
    cases after with
    | nil =>
        exact leaves.balanced_or_concerns_of_ends (Or.inl rfl)
    | cons character rest =>
        by_cases opens : Opens character rest
        · rcases opens.exists_hidden_or_unended with ⟨passage, rest, shape, isHidden⟩ | unended
          · rw [shape] at leaves
            exact behind shape isHidden.ne_nil (leaves.append (.of_hidden isHidden) .empty)
          · exact leaves.balanced_or_concerns_of_unended unended
        · rcases leaves.leads_on_or_concerns opens with ⟨next, goesOn⟩ | concerns
          · exact behind rfl (List.cons_ne_nil _ _) goesOn
          · exact Or.inr concerns

end Leaves

/-- The check finds an imbalance exactly at the places that it concerns, on the counted lines. -/
theorem checkBrackets_eq_error_iff
    {text : List Char}
    {imbalance : Imbalance} :
    checkBrackets text = .error imbalance ↔
      ∃ places, Concerns text imbalance places ∧ imbalance.lines = places.map Place.reported := by
  constructor
  · intro fails
    have start : Leaves text ⟨[], []⟩ [] := .nested .start .empty
    rcases start.balanced_or_concerns with balanced | ⟨_, places, concerns⟩
    · cases fails.symm.trans balanced
    · obtain ⟨found, concernsFound, reported⟩ := concerns.exists_reported
      cases fails.symm.trans (concernsFound.checkBrackets_eq_error reported)
      exact ⟨places, concernsFound, reported⟩
  · rintro ⟨places, concerns, reported⟩
    exact concerns.checkBrackets_eq_error reported

/-! The message names the lines and no other numbers. -/

/-- The numbers in a text, which are its longest runs of digits. -/
def numbersIn (text : List Char) : List Nat :=
  ((Text.pieces (!·.isDigit) text).filter (!·.isEmpty)).map (Nat.ofDigitChars 10 · 0)

theorem numbersIn_append
    {mark : Char}
    (noDigit : mark.isDigit = false)
    (before after : List Char) :
    numbersIn (before ++ mark :: after) = numbersIn before ++ numbersIn after := by
  have marks : (!mark.isDigit) = true := by
    simp [noDigit]
  simp [numbersIn, Text.pieces_append (!·.isDigit) marks]

/-- Words name no numbers. -/
theorem numbersIn_words
    {words : List Char}
    (noDigits : words.any Char.isDigit = false)
    (rest : List Char) :
    numbersIn (words ++ rest) = numbersIn rest := by
  induction words with
  | nil =>
      rfl
  | cons character others inductionHypothesis =>
      rw [List.any_cons, Bool.or_eq_false_iff] at noDigits
      exact (numbersIn_append noDigits.1 [] (others ++ rest)).trans
        (inductionHypothesis noDigits.2)

theorem numbersIn_digits
    (number : Nat) :
    numbersIn (toString number).toList = [number] := by
  have digits : ∀ character ∈ (toString number).toList, (!character.isDigit) = false := by
    intro character member
    simp [Text.isDigit_of_mem_toString member]
  have shape : (toString number).toList = Nat.toDigits 10 number := Nat.toList_repr
  rw [numbersIn, Text.pieces_of_free digits, shape]
  simp [Nat.toDigits_ne_nil, Nat.ofDigitChars_toDigits]

/-- A number that words follow is named. -/
theorem numbersIn_digits_words
    (number : Nat)
    {words : List Char}
    (nonempty : words ≠ [])
    (noDigits : words.any Char.isDigit = false)
    (rest : List Char) :
    numbersIn ((toString number).toList ++ (words ++ rest)) = number :: numbersIn rest := by
  obtain ⟨first, others, rfl⟩ := List.exists_cons_of_ne_nil nonempty
  rw [List.any_cons, Bool.or_eq_false_iff] at noDigits
  rw [List.cons_append, numbersIn_append noDigits.1, numbersIn_digits, numbersIn_words noDigits.2]
  rfl

/-- A bracket between quotes names no number. -/
theorem numbersIn_quotedChar
    (bracket : Bracket)
    (rest : List Char) :
    numbersIn ((quotedChar bracket.opening).toList ++ rest) = numbersIn rest ∧
      numbersIn ((quotedChar bracket.closing).toList ++ rest) = numbersIn rest :=
  ⟨numbersIn_words (by cases bracket <;> decide) rest,
    numbersIn_words (by cases bracket <;> decide) rest⟩

/-- The message of an imbalance names its lines. -/
theorem numbersIn_message
    (imbalance : Imbalance) :
    numbersIn imbalance.message.toList = imbalance.lines := by
  unfold Imbalance.message
  cases imbalance with
  | mismatched closed line opened since =>
      simp only [String.toList_append, List.append_assoc]
      rw [(numbersIn_quotedChar closed _).2, numbersIn_words, numbersIn_digits_words,
        (numbersIn_quotedChar opened _).1, numbersIn_words, numbersIn_digits]
      · rfl
      all_goals decide
  | unmatched closed line =>
      simp only [String.toList_append, List.append_assoc]
      rw [numbersIn_words, (numbersIn_quotedChar closed _).2, numbersIn_words, numbersIn_digits]
      · rfl
      all_goals decide
  | unclosed opened since =>
      simp only [String.toList_append, List.append_assoc]
      rw [(numbersIn_quotedChar opened _).1, numbersIn_words,
        ← List.append_nil (toString " is never closed").toList, numbersIn_digits_words]
      · rfl
      all_goals decide
  | literal line =>
      simp only [String.toList_append]
      rw [numbersIn_words, numbersIn_digits]
      · rfl
      · decide
  | rawString =>
      exact @numbersIn_words "unterminated raw string".toList (by decide) []
  | blockComment =>
      exact @numbersIn_words "unterminated block comment".toList (by decide) []

/--
What fails the check is out of balance at some places, and the message names their lines, one for
each, without the line breaks in quoted literals.  The lines are right exactly when no quoted
literal in front of a place goes over a line break.
-/
theorem checkBrackets_names_lines
    {text : List Char}
    {imbalance : Imbalance}
    (fails : checkBrackets text = .error imbalance) :
    (∃ places, Concerns text imbalance places) ∧
    ∀ places, Concerns text imbalance places →
      numbersIn imbalance.message.toList = places.map Place.reported ∧
      (numbersIn imbalance.message.toList = places.map Place.line ↔
        ∀ place ∈ places, '\n' ∉ place.quoted) := by
  obtain ⟨found, concernsFound, _⟩ := checkBrackets_eq_error_iff.mp fails
  refine ⟨⟨found, concernsFound⟩, fun places concerns => ?_⟩
  -- The text fails with the reported lines of these places, and it fails in one way only.
  have named : numbersIn imbalance.message.toList = places.map Place.reported := by
    obtain ⟨_, sameConcern, reported⟩ := concerns.exists_reported
    cases fails.symm.trans (sameConcern.checkBrackets_eq_error reported)
    exact (numbersIn_message imbalance).trans reported
  refine ⟨named, ?_⟩
  rw [named, List.map_inj_left]
  refine forall₂_congr fun place _ => ?_
  rw [← List.count_eq_zero, Place.reported, Place.line]
  omega

/-- A parenthesis that a square bracket closes, behind a raw literal and a quoted one. -/
def rawThenQuoted : List Char :=
  ['(', '\x60', '\n', '\x60', '\x22', '\\', '\x22', '\x22', ']']

/-- Line breaks in raw literals are counted. -/
theorem rawThenQuoted_names_lines :
    checkBrackets rawThenQuoted = .error (.mismatched .square 2 .parenthesis 1) ∧
    ∃ closer opener,
      Concerns rawThenQuoted (.mismatched .square 2 .parenthesis 1) [closer, opener] ∧
      numbersIn (Imbalance.mismatched .square 2 .parenthesis 1).message.toList =
        [closer.line, opener.line] := by
  have fails :
      checkBrackets rawThenQuoted = .error (.mismatched .square 2 .parenthesis 1) := rfl
  have raw : Hidden ['\x60', '\n', '\x60'] :=
    @Hidden.raw ['\n'] (by decide)
  have quoted : Hidden ['\x22', '\\', '\x22', '\x22'] :=
    .literal (Or.inl rfl) (.escaped _ .closed)
  have concerns :
      Concerns rawThenQuoted (.mismatched .square 2 .parenthesis 1)
        [⟨rawThenQuoted.dropLast, ['\x22', '\\', '\x22', '\x22']⟩, ⟨[], []⟩] :=
    .mismatched 2 1 rfl
      (.opened .parenthesis (.nested .start .empty)
        (.hidden raw (.hidden quoted .start)) .empty)
      (by decide)
  have named := (checkBrackets_names_lines fails).2 _ concerns
  exact ⟨fails, _, _, concerns, named.2.mpr (by decide)⟩

/-- A brace that nothing opened, behind a quoted literal with an escaped line break. -/
def escapedBreak : List Char :=
  ['\x22', '\\', '\n', '\x22', '\n', '\x7d']

/-- The brace on the third line is reported on the second. -/
theorem escapedBreak_names_line_before :
    checkBrackets escapedBreak = .error (.unmatched .brace 2) ∧
    ∃ closer,
      Concerns escapedBreak (.unmatched .brace 2) [closer] ∧
      closer.line = 3 ∧
      numbersIn (Imbalance.unmatched .brace 2).message.toList = [2] := by
  have quoted : Hidden ['\x22', '\\', '\n', '\x22'] :=
    .literal (Or.inl rfl) (.escaped _ .closed)
  have concerns :
      Concerns escapedBreak (.unmatched .brace 2)
        [⟨escapedBreak.dropLast, ['\x22', '\\', '\n', '\x22']⟩] :=
    .unmatched 2 rfl
      (.nested (.hidden quoted (.of_code (by simp [Opens]))) .empty)
  exact ⟨rfl, _, concerns, rfl, numbersIn_message _⟩

end RpcStubs.Source
