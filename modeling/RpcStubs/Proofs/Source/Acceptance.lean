import RpcStubs.Proofs.Source.Lexemes
import RpcStubs.Proofs.Source.Nesting
import RpcStubs.Proofs.Source.WellNested
namespace RpcStubs.Source

/-!
# What the check of brackets accepts

The check reads a text character by character with a mode and a stack.  It accepts exactly the
texts that split into code, comments and literals with well-nested brackets in the code: each mode
is left where the comment or the literal ends, and the stack is emptied by what closes it.
-/

/-! What a character of code does to the open brackets. -/

/-- A character opens a bracket, closes the innermost one, or leaves the brackets as they are. -/
inductive Moves : Char → List Bracket → List Bracket → Prop
  | opens (bracket : Bracket) {opened : List Bracket} :
      Moves bracket.opening opened (bracket :: opened)
  | closes (bracket : Bracket) {opened : List Bracket} :
      Moves bracket.closing (bracket :: opened) opened
  | stays {character : Char} {opened : List Bracket} :
      character ∉ bracketCharacters →
      Moves character opened opened

/-- The brackets of code are closed one character after the other. -/
theorem closes_bracketsIn_cons
    {character : Char}
    {code : List Char}
    {opened : List Bracket} :
    Closes opened (bracketsIn (character :: code)) ↔
      ∃ next, Moves character opened next ∧ Closes next (bracketsIn code) := by
  constructor
  · intro closes
    by_cases isBracket : character ∈ bracketCharacters
    · rw [bracketsIn, List.filter_cons_of_pos (by simpa using isBracket)] at closes
      cases closes with
      | opens bracket closes =>
          exact ⟨_, .opens bracket, closes⟩
      | closes bracket closes =>
          exact ⟨_, .closes bracket, closes⟩
    · rw [bracketsIn, List.filter_cons_of_neg (by simpa using isBracket)] at closes
      exact ⟨opened, .stays isBracket, closes⟩
  · rintro ⟨next, moves, closes⟩
    cases moves with
    | opens bracket =>
        cases bracket <;> exact .opens _ closes
    | closes bracket =>
        cases bracket <;> exact .closes _ closes
    | stays noBracket =>
        rw [bracketsIn, List.filter_cons_of_neg (by simpa using noBracket)]
        exact closes

/-- A character that is no bracket leaves the brackets as they are. -/
theorem Moves.eq_of_notMem
    {character : Char}
    {opened next : List Bracket}
    (moves : Moves character opened next)
    (noBracket : character ∉ bracketCharacters) :
    next = opened := by
  cases moves with
  | opens bracket =>
      cases bracket <;> simp [Bracket.opening, bracketCharacters] at noBracket
  | closes bracket =>
      cases bracket <;> simp [Bracket.closing, bracketCharacters] at noBracket
  | stays _ =>
      rfl

namespace Bracket

variable {character : Char} {bracket : Bracket}

theorem eq_opening_of_opened?
    (opens : opened? character = some bracket) :
    character = bracket.opening := by
  have found := List.find?_some opens
  exact (beq_iff_eq.mp found).symm

theorem eq_closing_of_closed?
    (closes : closed? character = some bracket) :
    character = bracket.closing := by
  have found := List.find?_some closes
  exact (beq_iff_eq.mp found).symm

/-- What is no bracket neither opens nor closes one. -/
theorem notMem_bracketCharacters_iff :
    character ∉ bracketCharacters ↔ opened? character = none ∧ closed? character = none := by
  simp only [bracketCharacters, opened?, closed?, opening, closing, List.find?_eq_none,
    List.mem_cons, List.not_mem_nil, or_false, not_or, beq_iff_eq, forall_eq_or_imp, forall_eq]
  constructor
  · rintro ⟨round, roundEnd, square, squareEnd, brace, braceEnd⟩
    exact ⟨⟨Ne.symm brace, Ne.symm round, Ne.symm square⟩,
      Ne.symm braceEnd, Ne.symm roundEnd, Ne.symm squareEnd⟩
  · rintro ⟨⟨brace, round, square⟩, braceEnd, roundEnd, squareEnd⟩
    exact ⟨Ne.symm round, Ne.symm roundEnd, Ne.symm square, Ne.symm squareEnd, Ne.symm brace,
      Ne.symm braceEnd⟩

end Bracket

namespace Nesting

variable {opened : List Bracket} {character : Char} {text : List Char}

/-! What one character does in each mode. -/

theorem nesting_mk
    (line : Nat)
    (mode : Mode)
    (opened : List Bracket) :
    Reading.nesting ⟨line, mode, opened.map fun bracket => (bracket, 1)⟩ = ⟨mode, opened⟩ := by
  simp [Reading.nesting, Function.comp_def]

theorem after?_singleton
    (nesting : Nesting)
    (character : Char) :
    nesting.after? [character] =
      (nesting.reading.step character).toOption.map Reading.nesting := by
  rw [after?, Reading.steps, List.foldlM_cons]
  cases nesting.reading.step character <;> rfl

/-- A character of code that opens no literal, and is no slash, only moves the brackets. -/
theorem after?_code_eq_some_iff
    {after : Nesting}
    (noSlash : character ≠ '/')
    (noQuote : character ∉ ['\x22', '\x27', '\x60']) :
    after? ⟨.code, opened⟩ [character] = some after ↔
      ∃ next, after = ⟨.code, next⟩ ∧ Moves character opened next := by
  simp only [List.mem_cons, List.not_mem_nil, or_false, not_or] at noQuote
  obtain ⟨noDouble, noSingle, noBack⟩ := noQuote
  rw [after?_singleton]
  simp only [reading, Reading.step, Reading.stepCode, noSlash, noDouble, noSingle, noBack,
    decide_false, Bool.or_self, Bool.false_eq_true, ↓reduceIte]
  constructor
  · intro read
    split_ifs at read with lineBreak
    · cases read
      subst lineBreak
      exact ⟨opened, nesting_mk _ _ _, .stays (by decide)⟩
    · split at read
      · rename_i bracket opens
        cases read
        rw [Bracket.eq_opening_of_opened? opens]
        exact ⟨_, nesting_mk _ _ (bracket :: opened), .opens bracket⟩
      · rename_i bracket _ closes
        cases opened with
        | nil =>
            cases read
        | cons last others =>
            simp only [List.map_cons] at read
            split_ifs at read with same
            · cases read
              rw [Bracket.eq_closing_of_closed? closes, same]
              exact ⟨_, nesting_mk _ _ others, .closes bracket⟩
            · cases read
      · rename_i opensNone closesNone
        cases read
        exact ⟨opened, nesting_mk _ _ opened,
          .stays (Bracket.notMem_bracketCharacters_iff.mpr ⟨opensNone, closesNone⟩)⟩
  · rintro ⟨next, rfl, moves⟩
    cases moves with
    | opens bracket =>
        cases bracket <;>
          exact congrArg some (nesting_mk _ _ (_ :: opened))
    | closes bracket =>
        cases bracket <;>
          simp [Bracket.opened?, Bracket.closed?, Bracket.opening, Bracket.closing,
            Except.toOption, nesting_mk]
    | stays noBracket =>
        obtain ⟨opensNone, closesNone⟩ := Bracket.notMem_bracketCharacters_iff.mp noBracket
        rw [opensNone, closesNone]
        split_ifs <;> simp [Except.toOption, nesting_mk]

theorem after?_slash
    (opened : List Bracket) :
    after? ⟨.code, opened⟩ ['/'] = some ⟨.slash, opened⟩ := by
  simp [after?_singleton, reading, Reading.step, Reading.stepCode, Except.toOption, nesting_mk]

theorem after?_of_slash
    (opened : List Bracket)
    (noSlash : character ≠ '/')
    (noStar : character ≠ '*') :
    after? ⟨.slash, opened⟩ [character] = after? ⟨.code, opened⟩ [character] := by
  rw [after?_singleton, after?_singleton]
  simp [reading, Reading.step, Reading.stepCode, noSlash, noStar]

theorem after?_blockComment
    (opened : List Bracket)
    (afterStar : Bool)
    (character : Char) :
    after? ⟨.blockComment afterStar, opened⟩ [character] =
      some ⟨if afterStar && character = '/' then .code else .blockComment (character = '*'),
        opened⟩ := by
  simp [after?_singleton, reading, Reading.step, Except.toOption, nesting_mk]

theorem after?_lineComment
    (opened : List Bracket)
    (character : Char) :
    after? ⟨.lineComment, opened⟩ [character] =
      some ⟨if character = '\n' then .code else .lineComment, opened⟩ := by
  simp [after?_singleton, reading, Reading.step, Except.toOption, nesting_mk]

theorem after?_raw
    (opened : List Bracket)
    (character : Char) :
    after? ⟨.raw, opened⟩ [character] =
      some ⟨if character = '\x60' then .code else .raw, opened⟩ := by
  simp [after?_singleton, reading, Reading.step, Except.toOption, nesting_mk]

theorem after?_literal
    (opened : List Bracket)
    (quote character : Char) :
    after? ⟨.literal quote, opened⟩ [character] =
      if character = '\\' then some ⟨.escape quote, opened⟩
      else if character = '\n' then none
      else some ⟨if character = quote then .code else .literal quote, opened⟩ := by
  simp only [after?_singleton, reading, Reading.step]
  split_ifs <;> simp [Except.toOption, nesting_mk]

theorem after?_escape
    (opened : List Bracket)
    (quote character : Char) :
    after? ⟨.escape quote, opened⟩ [character] = some ⟨.literal quote, opened⟩ := by
  simp [after?_singleton, reading, Reading.step, Except.toOption, nesting_mk]

theorem after?_quote
    (opened : List Bracket)
    (isQuote : character = '\x22' ∨ character = '\x27') :
    after? ⟨.code, opened⟩ [character] = some ⟨.literal character, opened⟩ := by
  rcases isQuote with rfl | rfl <;>
    simp [after?_singleton, reading, Reading.step, Reading.stepCode, Except.toOption, nesting_mk]

theorem after?_backquote
    (opened : List Bracket) :
    after? ⟨.code, opened⟩ ['\x60'] = some ⟨.raw, opened⟩ := by
  simp [after?_singleton, reading, Reading.step, Reading.stepCode, Except.toOption, nesting_mk]

theorem after?_slash_slash
    (opened : List Bracket) :
    after? ⟨.code, opened⟩ ['/', '/'] = some ⟨.lineComment, opened⟩ := by
  rw [after?_cons, after?_slash, Option.bind_some]
  simp [after?_singleton, reading, Reading.step, Except.toOption, nesting_mk]

theorem after?_slash_star
    (opened : List Bracket) :
    after? ⟨.code, opened⟩ ['/', '*'] = some ⟨.blockComment false, opened⟩ := by
  rw [after?_cons, after?_slash, Option.bind_some]
  simp [after?_singleton, reading, Reading.step, Except.toOption, nesting_mk]

/-! Texts that are accepted from a nesting on. -/

/-- From a nesting on, a text leads to where it can end, with all brackets closed. -/
def Accepts (nesting : Nesting) (text : List Char) : Prop :=
  ∃ after, nesting.after? text = some after ∧ after.mode.endsLine = true ∧ after.opened = []

theorem accepts_nil
    {nesting : Nesting} :
    nesting.Accepts [] ↔ nesting.mode.endsLine = true ∧ nesting.opened = [] := by
  simp [Accepts]

theorem accepts_append
    (nesting : Nesting)
    (first rest : List Char) :
    nesting.Accepts (first ++ rest) ↔
      ∃ between, nesting.after? first = some between ∧ between.Accepts rest := by
  simp only [Accepts, after?_append, Option.bind_eq_some_iff]
  constructor
  · rintro ⟨after, ⟨between, read, readOn⟩, ends⟩
    exact ⟨between, read, after, readOn, ends⟩
  · rintro ⟨between, read, after, readOn, ends⟩
    exact ⟨after, ⟨between, read, readOn⟩, ends⟩

theorem accepts_cons
    (nesting : Nesting)
    (character : Char)
    (rest : List Char) :
    nesting.Accepts (character :: rest) ↔
      ∃ between, nesting.after? [character] = some between ∧ between.Accepts rest :=
  nesting.accepts_append [character] rest

/-- A text that leads to one nesting is accepted with what is accepted from there on. -/
theorem accepts_append_of_after?
    {nesting between : Nesting}
    {first rest : List Char}
    (read : nesting.after? first = some between) :
    nesting.Accepts (first ++ rest) ↔ between.Accepts rest := by
  rw [accepts_append, read]
  simp

/-- The check accepts what is accepted from code without open brackets on. -/
theorem checkBrackets_iff_accepts :
    checkBrackets text = .ok () ↔ Accepts {} text := by
  have shape : Nesting.reading {} = {} := rfl
  simp only [checkBrackets, Accepts, after?_eq_some_iff, shape]
  cases steps : Reading.steps {} text with
  | error imbalance =>
      simp
  | ok next =>
      obtain ⟨line, mode, opened⟩ := next
      cases mode <;> cases opened <;> simp [Reading.ending, Reading.nesting, Mode.endsLine]

/-! A comment in a line, and a raw literal, go on to the next mark. -/

section Marked

variable {mode : Mode} {mark : Char}

/-- A mode that goes on up to a mark goes on as long as the mark does not occur. -/
theorem after?_of_notMem
    (step : ∀ character, after? ⟨mode, opened⟩ [character] =
      some ⟨if character = mark then .code else mode, opened⟩)
    (free : mark ∉ text) :
    after? ⟨mode, opened⟩ text = some ⟨mode, opened⟩ := by
  induction text with
  | nil =>
      exact after?_nil _
  | cons character rest inductionHypothesis =>
      simp only [List.mem_cons, not_or] at free
      rw [after?_cons, step, if_neg (Ne.symm free.1), Option.bind_some]
      exact inductionHypothesis free.2

/-- What is accepted in such a mode has the mark, with code behind it, or does not have it. -/
theorem Accepts.exists_mark
    (step : ∀ character, after? ⟨mode, opened⟩ [character] =
      some ⟨if character = mark then .code else mode, opened⟩)
    (accepts : Accepts ⟨mode, opened⟩ text) :
    (mark ∉ text ∧ mode.endsLine = true ∧ opened = []) ∨
      ∃ body rest,
        text = body ++ mark :: rest ∧ mark ∉ body ∧ Accepts ⟨.code, opened⟩ rest := by
  by_cases member : mark ∈ text
  · obtain ⟨body, rest, rfl, free⟩ := List.eq_append_cons_of_mem member
    rw [accepts_append_of_after? (after?_of_notMem step free),
      accepts_cons, step, if_pos rfl] at accepts
    obtain ⟨_, ⟨⟩, accepts⟩ := accepts
    exact Or.inr ⟨body, rest, rfl, free, accepts⟩
  · obtain ⟨after, read, ends, closed⟩ := accepts
    rw [after?_of_notMem step member] at read
    cases read
    exact Or.inl ⟨member, ends, closed⟩

end Marked

/-! A block comment goes on to the first end, which needs what stands before it. -/

/-- No comment ends in a text, maybe behind a star, or with a slash behind it. -/
def HoldsNoEnd (afterStar : Bool) (body : List Char) : Prop :=
  ¬['*', '/'] <:+: (if afterStar then ['*'] else []) ++ body ++ ['*']

/-- A comment ends at the head of a text or later. -/
theorem end_infix_cons
    {later : List Char} :
    ['*', '/'] <:+: character :: later ↔
      character = '*' ∧ later.head? = some '/' ∨ ['*', '/'] <:+: later := by
  rw [List.infix_cons_iff, List.cons_prefix_cons, @eq_comm _ '*']
  cases later <;> simp [@eq_comm _ '/']

theorem holdsNoEnd_nil
    (afterStar : Bool) :
    HoldsNoEnd afterStar [] := by
  cases afterStar <;> simp [HoldsNoEnd, end_infix_cons]

theorem holdsNoEnd_cons
    {afterStar : Bool}
    {body : List Char} :
    HoldsNoEnd afterStar (character :: body) ↔
      ¬(afterStar = true ∧ character = '/') ∧ HoldsNoEnd (character = '*') body := by
  cases afterStar <;> by_cases star : character = '*' <;>
    simp [HoldsNoEnd, end_infix_cons, star]

theorem after?_of_holdsNoEnd
    {afterStar : Bool}
    (noEnd : HoldsNoEnd afterStar text) :
    after? ⟨.blockComment afterStar, opened⟩ (text ++ ['*', '/']) = some ⟨.code, opened⟩ := by
  induction text generalizing afterStar with
  | nil =>
      rw [List.nil_append, after?_cons, after?_blockComment]
      simp [after?_blockComment]
  | cons character rest inductionHypothesis =>
      obtain ⟨noEndHere, noEndLater⟩ := holdsNoEnd_cons.mp noEnd
      rw [List.cons_append, after?_cons, after?_blockComment, if_neg (by simpa using noEndHere),
        Option.bind_some]
      exact inductionHypothesis noEndLater

/-- What is accepted in a block comment has an end, with code behind it. -/
theorem Accepts.exists_end
    {afterStar : Bool}
    (accepts : Accepts ⟨.blockComment afterStar, opened⟩ text) :
    (afterStar = true ∧ ∃ rest, text = '/' :: rest ∧ Accepts ⟨.code, opened⟩ rest) ∨
      ∃ body rest,
        text = body ++ '*' :: '/' :: rest ∧ HoldsNoEnd afterStar body ∧
          Accepts ⟨.code, opened⟩ rest := by
  induction text generalizing afterStar with
  | nil =>
      cases (accepts_nil.mp accepts).1
  | cons character rest inductionHypothesis =>
      rw [accepts_cons] at accepts
      obtain ⟨between, read, accepts⟩ := accepts
      rw [after?_blockComment, Option.some.injEq] at read
      subst read
      split_ifs at accepts with ends
      · simp only [Bool.and_eq_true, decide_eq_true_eq] at ends
        exact Or.inl ⟨ends.1, rest, by rw [ends.2], accepts⟩
      · have noEndHere : ¬(afterStar = true ∧ character = '/') := by simpa using ends
        rcases inductionHypothesis accepts with
          ⟨isStar, after, rfl, accepts⟩ | ⟨body, after, rfl, noEndLater, accepts⟩
        · obtain rfl : character = '*' := of_decide_eq_true isStar
          exact Or.inr ⟨[], after, rfl, holdsNoEnd_nil afterStar, accepts⟩
        · exact Or.inr ⟨character :: body, after, rfl,
            holdsNoEnd_cons.mpr ⟨noEndHere, noEndLater⟩, accepts⟩

/-! A literal goes on to the next quote that is not escaped. -/

theorem after?_of_literalRest
    {quote : Char}
    (isQuote : quote = '\x22' ∨ quote = '\x27')
    (ends : LiteralRest quote text) :
    after? ⟨.literal quote, opened⟩ text = some ⟨.code, opened⟩ := by
  induction ends with
  | closed =>
      rw [after?_literal]
      rcases isQuote with rfl | rfl <;> rfl
  | plain noEscape noBreak noQuote _ inductionHypothesis =>
      rw [after?_cons, after?_literal, if_neg noEscape, if_neg noBreak, if_neg noQuote,
        Option.bind_some]
      exact inductionHypothesis
  | escaped character _ inductionHypothesis =>
      rw [after?_cons, after?_literal, if_pos rfl, Option.bind_some, after?_cons, after?_escape,
        Option.bind_some]
      exact inductionHypothesis

/-- What is accepted in a literal has its end, with code behind it, also behind a backslash. -/
theorem Accepts.exists_literalRest
    {quote : Char} :
    (Accepts ⟨.literal quote, opened⟩ text →
      ∃ inside rest,
        text = inside ++ rest ∧ LiteralRest quote inside ∧ Accepts ⟨.code, opened⟩ rest) ∧
    (Accepts ⟨.escape quote, opened⟩ text →
      ∃ character inside rest,
        text = character :: inside ++ rest ∧ LiteralRest quote inside ∧
          Accepts ⟨.code, opened⟩ rest) := by
  induction text with
  | nil =>
      constructor
      · intro accepts
        cases (accepts_nil.mp accepts).1
      · intro accepts
        cases (accepts_nil.mp accepts).1
  | cons character rest inductionHypothesis =>
      obtain ⟨inLiteral, inEscape⟩ := inductionHypothesis
      constructor
      · intro accepts
        rw [accepts_cons] at accepts
        obtain ⟨between, read, accepts⟩ := accepts
        rw [after?_literal] at read
        split_ifs at read with isEscape isBreak isQuote
        · cases read
          obtain ⟨next, inside, after, rfl, ends, accepts⟩ := inEscape accepts
          exact ⟨character :: next :: inside, after, rfl, isEscape ▸ .escaped next ends, accepts⟩
        · cases read
          exact ⟨[character], rest, rfl, isQuote ▸ .closed, accepts⟩
        · cases read
          obtain ⟨inside, after, rfl, ends, accepts⟩ := inLiteral accepts
          exact ⟨character :: inside, after, rfl, .plain isEscape isBreak isQuote ends, accepts⟩
      · intro accepts
        rw [accepts_cons] at accepts
        obtain ⟨between, read, accepts⟩ := accepts
        rw [after?_escape] at read
        cases read
        obtain ⟨inside, after, rfl, ends, accepts⟩ := inLiteral accepts
        exact ⟨character, inside, after, rfl, ends, accepts⟩

/-! Code is read one character after the other, and around comments and literals. -/

/-- A character of code moves the brackets, and the rest is code. -/
theorem accepts_code_cons
    {rest : List Char}
    (plain : ¬Opens character rest) :
    Accepts ⟨.code, opened⟩ (character :: rest) ↔
      ∃ next, Moves character opened next ∧ Accepts ⟨.code, next⟩ rest := by
  simp only [Opens, not_or, not_and] at plain
  obtain ⟨noQuote, noComment⟩ := plain
  by_cases isSlash : character = '/'
  · subst isSlash
    have noBracket : '/' ∉ bracketCharacters := by decide
    -- The slash is only understood at the next character, which must not make a comment of it.
    have readOn : Accepts ⟨.slash, opened⟩ rest ↔ Accepts ⟨.code, opened⟩ rest := by
      cases rest with
      | nil =>
          simp [accepts_nil, Mode.endsLine]
      | cons next others =>
          obtain ⟨noSlash, noStar⟩ := noComment rfl
          rw [accepts_cons, accepts_cons,
            after?_of_slash opened (by simpa using noSlash) (by simpa using noStar)]
    have slash : Accepts ⟨.code, opened⟩ ('/' :: rest) ↔ Accepts ⟨.slash, opened⟩ rest :=
      accepts_append_of_after? (after?_slash opened)
    rw [slash, readOn]
    constructor
    · intro accepts
      exact ⟨opened, .stays noBracket, accepts⟩
    · rintro ⟨next, moves, accepts⟩
      rwa [moves.eq_of_notMem noBracket] at accepts
  · rw [accepts_cons]
    constructor
    · rintro ⟨between, read, accepts⟩
      obtain ⟨next, rfl, moves⟩ := (after?_code_eq_some_iff isSlash noQuote).mp read
      exact ⟨next, moves, accepts⟩
    · rintro ⟨next, moves, accepts⟩
      exact ⟨_, (after?_code_eq_some_iff isSlash noQuote).mpr ⟨next, rfl, moves⟩, accepts⟩

/-- Comments that end and literals lead from code to code, whatever brackets they hold. -/
theorem after?_of_hidden
    {passage : List Char}
    (isHidden : Hidden passage)
    (opened : List Bracket) :
    after? ⟨.code, opened⟩ passage = some ⟨.code, opened⟩ := by
  cases isHidden with
  | @lineComment body free =>
      change after? _ (['/', '/'] ++ (body ++ ['\n'])) = _
      rw [after?_append, after?_slash_slash, Option.bind_some, after?_append,
        after?_of_notMem (after?_lineComment opened) free, Option.bind_some, after?_lineComment]
      rfl
  | @blockComment body noEnd =>
      change after? _ (['/', '*'] ++ (body ++ ['*', '/'])) = _
      rw [after?_append, after?_slash_star, Option.bind_some]
      exact after?_of_holdsNoEnd noEnd
  | literal isQuote ends =>
      rw [after?_cons, after?_quote opened isQuote, Option.bind_some]
      exact after?_of_literalRest isQuote ends
  | @raw body free =>
      change after? _ (['\x60'] ++ (body ++ ['\x60'])) = _
      rw [after?_append, after?_backquote, Option.bind_some, after?_append,
        after?_of_notMem (after?_raw opened) free, Option.bind_some, after?_raw]
      rfl

/-- Where a comment or a literal is opened, it ends, or a line comment ends with the text. -/
theorem Accepts.exists_hidden
    {rest : List Char}
    (accepts : Accepts ⟨.code, opened⟩ (character :: rest))
    (opens : Opens character rest) :
    (∃ passage after,
      character :: rest = passage ++ after ∧ Hidden passage ∧ Accepts ⟨.code, opened⟩ after) ∨
    ∃ body, character :: rest = '/' :: '/' :: body ∧ '\n' ∉ body ∧ opened = [] := by
  have fromLiteral
      (isQuote : character = '\x22' ∨ character = '\x27') :
      ∃ passage after,
        character :: rest = passage ++ after ∧ Hidden passage ∧
          Accepts ⟨.code, opened⟩ after := by
    rw [accepts_cons, after?_quote opened isQuote] at accepts
    obtain ⟨_, ⟨⟩, accepts⟩ := accepts
    obtain ⟨inside, after, rfl, ends, accepts⟩ := exists_literalRest.1 accepts
    exact ⟨character :: inside, after, rfl, .literal isQuote ends, accepts⟩
  rcases opens with quoted | ⟨rfl, isSlash | isStar⟩
  · simp only [List.mem_cons, List.not_mem_nil, or_false] at quoted
    rcases quoted with isDouble | isSingle | rfl
    · exact Or.inl (fromLiteral (Or.inl isDouble))
    · exact Or.inl (fromLiteral (Or.inr isSingle))
    · rw [accepts_cons, after?_backquote] at accepts
      obtain ⟨_, ⟨⟩, accepts⟩ := accepts
      rcases accepts.exists_mark (after?_raw opened) with
        ⟨_, ends, _⟩ | ⟨body, after, rfl, free, accepts⟩
      · cases ends
      · exact Or.inl ⟨_, after, by simp, .raw free, accepts⟩
  · obtain ⟨others, rfl⟩ := List.head?_eq_some_iff.mp isSlash
    have inComment : Accepts ⟨.lineComment, opened⟩ others :=
      (accepts_append_of_after? (after?_slash_slash opened)).mp accepts
    rcases inComment.exists_mark (after?_lineComment opened) with
      ⟨free, _, closed⟩ | ⟨body, after, rfl, free, accepts⟩
    · exact Or.inr ⟨others, rfl, free, closed⟩
    · exact Or.inl ⟨_, after, by simp, .lineComment free, accepts⟩
  · obtain ⟨others, rfl⟩ := List.head?_eq_some_iff.mp isStar
    have inComment : Accepts ⟨.blockComment false, opened⟩ others :=
      (accepts_append_of_after? (after?_slash_star opened)).mp accepts
    rcases inComment.exists_end with ⟨⟨⟩, _⟩ | ⟨body, after, rfl, noEnd, accepts⟩
    exact Or.inl ⟨_, after, by simp, .blockComment noEnd, accepts⟩

/-- What is accepted from code on splits, and its code closes the open brackets. -/
theorem Accepts.exists_splits
    (accepts : Accepts ⟨.code, opened⟩ text) :
    ∃ code, Splits text code ∧ Closes opened (bracketsIn code) := by
  -- The induction is on the length, since a comment or a literal is taken off as a whole.
  induction size : text.length using Nat.strongRecOn generalizing text opened with
  | ind bound inductionHypothesis =>
    subst size
    cases text with
    | nil =>
        obtain rfl : opened = [] := (accepts_nil.mp accepts).2
        exact ⟨[], .done, .done⟩
    | cons character rest =>
        by_cases opens : Opens character rest
        · rcases accepts.exists_hidden opens with
            ⟨passage, after, shape, isHidden, accepts⟩ | ⟨body, shape, free, closed⟩
          · have shorter : after.length < (character :: rest).length := by
              have nonempty := List.length_pos_iff.mpr isHidden.ne_nil
              rw [shape, List.length_append]
              omega
            obtain ⟨code, splits, closes⟩ := inductionHypothesis _ shorter accepts rfl
            exact ⟨code, shape ▸ .hidden isHidden splits, closes⟩
          · subst closed
            exact ⟨[], shape ▸ .lastComment free, .done⟩
        · obtain ⟨next, moves, accepts⟩ := (accepts_code_cons opens).mp accepts
          obtain ⟨code, splits, closes⟩ :=
            inductionHypothesis _ (by simp) accepts rfl
          exact ⟨_, .code opens splits, closes_bracketsIn_cons.mpr ⟨next, moves, closes⟩⟩

/-- A text that splits is accepted where its code closes the open brackets. -/
theorem accepts_of_splits
    {code : List Char}
    (splits : Splits text code)
    (closes : Closes opened (bracketsIn code)) :
    Accepts ⟨.code, opened⟩ text := by
  induction splits generalizing opened with
  | done =>
      cases closes
      exact accepts_nil.mpr ⟨rfl, rfl⟩
  | code plain _ inductionHypothesis =>
      obtain ⟨next, moves, closes⟩ := closes_bracketsIn_cons.mp closes
      exact (accepts_code_cons plain).mpr ⟨next, moves, inductionHypothesis closes⟩
  | hidden isHidden _ inductionHypothesis =>
      exact (accepts_append_of_after? (after?_of_hidden isHidden opened)).mpr
        (inductionHypothesis closes)
  | lastComment free =>
      cases closes
      exact (accepts_append_of_after? (after?_slash_slash [])).mpr
        ⟨_, after?_of_notMem (after?_lineComment []) free, rfl, rfl⟩

end Nesting

/--
The check of brackets accepts a text exactly when it splits into code, comments and literals with
well-nested brackets in the code.
-/
theorem checkBrackets_eq_ok_iff
    {text : List Char} :
    checkBrackets text = .ok () ↔
      ∃ code, Splits text code ∧ WellNested (bracketsIn code) := by
  rw [Nesting.checkBrackets_iff_accepts]
  constructor
  · intro accepts
    obtain ⟨code, splits, closes⟩ := accepts.exists_splits
    exact ⟨code, splits, closes_nil_iff.mp closes⟩
  · rintro ⟨code, splits, nested⟩
    exact Nesting.accepts_of_splits splits (closes_nil_iff.mpr nested)

/-- A comment is not ended by the star that opens it. -/
example : checkBrackets ['/', '*', '/'] = .error .blockComment := rfl

end RpcStubs.Source
