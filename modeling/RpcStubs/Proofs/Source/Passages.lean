import RpcStubs.Proofs.Source.Acceptance
namespace RpcStubs.Source

/-!
# Passages of a text

A text is passed one character of code after the other, and comments and literals as a whole.
Checking goes on behind such a passage with the line breaks of the passage counted, but for those
in quoted literals: they stand behind backslashes, and what stands there is not looked at.
-/

/-- A passage that is a quoted literal, or nothing of another one. -/
def quotedIn : List Char → List Char
  | [] => []
  | first :: rest => if first = '\x22' ∨ first = '\x27' then first :: rest else []

/--
A text is passed as code, comments and literals, when another one follows.

What is told of it are its characters of code, and its quoted literals one after the other.
-/
inductive Passes (after : List Char) : List Char → List Char → List Char → Prop
  | start : Passes after [] [] []
  | code {character : Char} {text code quoted : List Char} :
      ¬Opens character (text ++ after) →
      Passes after text code quoted →
      Passes after (character :: text) (character :: code) quoted
  | hidden {passage text code quoted : List Char} :
      Hidden passage →
      Passes after text code quoted →
      Passes after (passage ++ text) code (quotedIn passage ++ quoted)

/-- The rest of a literal up to where it breaks off: at a line break, or where the text ends. -/
inductive BreaksOff (quote : Char) (after : List Char) : List Char → Prop
  | stops : after = [] ∨ after.head? = some '\n' → BreaksOff quote after []
  | escape : after = [] → BreaksOff quote after ['\\']
  | plain {character : Char} {body : List Char} :
      character ≠ '\\' →
      character ≠ '\n' →
      character ≠ quote →
      BreaksOff quote after body →
      BreaksOff quote after (character :: body)
  | escaped (character : Char) {body : List Char} :
      BreaksOff quote after body →
      BreaksOff quote after ('\\' :: character :: body)

/-- Comments and literals that the text does not end, but for the line in which they stand. -/
inductive Unended : List Char → Prop
  | lineComment {body : List Char} :
      '\n' ∉ body →
      Unended ('/' :: '/' :: body)
  | blockComment {body : List Char} :
      ¬['*', '/'] <:+: body ++ ['*'] →
      Unended ('/' :: '*' :: body)
  | literal {quote : Char} {body after : List Char} :
      quote = '\x22' ∨ quote = '\x27' →
      BreaksOff quote after body →
      Unended (quote :: body ++ after)
  | raw {body : List Char} :
      '\x60' ∉ body →
      Unended ('\x60' :: body)

/-! Where a comment or a literal opens, it ends or does not. -/

/-- A block comment is ended somewhere, or holds no end. -/
theorem holdsNoEnd_or_exists_end
    (afterStar : Bool)
    (text : List Char) :
    Nesting.HoldsNoEnd afterStar text ∨
      (afterStar = true ∧ ∃ rest, text = '/' :: rest) ∨
      ∃ body rest, text = body ++ '*' :: '/' :: rest ∧ Nesting.HoldsNoEnd afterStar body := by
  induction text generalizing afterStar with
  | nil =>
      exact Or.inl (Nesting.holdsNoEnd_nil afterStar)
  | cons character rest inductionHypothesis =>
      by_cases ends : afterStar = true ∧ character = '/'
      · exact Or.inr (Or.inl ⟨ends.1, rest, by rw [ends.2]⟩)
      · rcases inductionHypothesis (character = '*') with
          noEnd | ⟨isStar, others, rfl⟩ | ⟨body, others, rfl, noEnd⟩
        · exact Or.inl (Nesting.holdsNoEnd_cons.mpr ⟨ends, noEnd⟩)
        · obtain rfl : character = '*' := of_decide_eq_true isStar
          exact Or.inr (Or.inr ⟨[], others, rfl, Nesting.holdsNoEnd_nil afterStar⟩)
        · exact Or.inr (Or.inr
            ⟨character :: body, others, rfl, Nesting.holdsNoEnd_cons.mpr ⟨ends, noEnd⟩⟩)

/-- A literal is closed, or it breaks off. -/
theorem exists_literalRest_or_breaksOff
    (quote : Char)
    (text : List Char) :
    (∃ inside after, text = inside ++ after ∧ LiteralRest quote inside) ∨
      ∃ body after, text = body ++ after ∧ BreaksOff quote after body := by
  -- An escape takes two characters, so the induction is on the length.
  induction size : text.length using Nat.strongRecOn generalizing text with
  | ind bound inductionHypothesis =>
    subst size
    match text with
    | [] =>
        exact Or.inr ⟨[], [], rfl, .stops (Or.inl rfl)⟩
    | character :: rest =>
        by_cases isBreak : character = '\n'
        · subst isBreak
          exact Or.inr ⟨[], _, rfl, .stops (Or.inr rfl)⟩
        by_cases isEscape : character = '\\'
        · subst isEscape
          match rest with
          | [] =>
              exact Or.inr ⟨_, [], rfl, .escape rfl⟩
          | escaped :: others =>
              have shorter : others.length < ('\\' :: escaped :: others).length := by
                simp only [List.length_cons]
                omega
              rcases inductionHypothesis _ shorter others rfl with
                ⟨inside, after, rfl, ends⟩ | ⟨body, after, rfl, breaksOff⟩
              · exact Or.inl ⟨_, after, rfl, .escaped escaped ends⟩
              · exact Or.inr ⟨_, after, rfl, .escaped escaped breaksOff⟩
        by_cases isQuote : character = quote
        · subst isQuote
          exact Or.inl ⟨[character], rest, rfl, .closed⟩
        · rcases inductionHypothesis _ (by simp) rest rfl with
            ⟨inside, after, rfl, ends⟩ | ⟨body, after, rfl, breaksOff⟩
          · exact Or.inl ⟨_, after, rfl, .plain isEscape isBreak isQuote ends⟩
          · exact Or.inr ⟨_, after, rfl, .plain isEscape isBreak isQuote breaksOff⟩

/-- What is opened is a passage, or the text does not end it. -/
theorem Opens.exists_hidden_or_unended
    {character : Char}
    {rest : List Char}
    (opens : Opens character rest) :
    (∃ passage after, character :: rest = passage ++ after ∧ Hidden passage) ∨
      Unended (character :: rest) := by
  have ofQuote (isQuote : character = '\x22' ∨ character = '\x27') :
      (∃ passage after, character :: rest = passage ++ after ∧ Hidden passage) ∨
        Unended (character :: rest) := by
    rcases exists_literalRest_or_breaksOff character rest with
      ⟨inside, after, rfl, ends⟩ | ⟨body, after, rfl, breaksOff⟩
    · exact Or.inl ⟨_, after, rfl, .literal isQuote ends⟩
    · exact Or.inr (.literal isQuote breaksOff)
  rcases opens with quoted | ⟨rfl, isSlash | isStar⟩
  · simp only [List.mem_cons, List.not_mem_nil, or_false] at quoted
    rcases quoted with isDouble | isSingle | rfl
    · exact ofQuote (Or.inl isDouble)
    · exact ofQuote (Or.inr isSingle)
    · by_cases ended : '\x60' ∈ rest
      · obtain ⟨body, after, rfl, free⟩ := List.eq_append_cons_of_mem ended
        exact Or.inl ⟨_, after, by simp, .raw free⟩
      · exact Or.inr (.raw ended)
  · obtain ⟨others, rfl⟩ := List.head?_eq_some_iff.mp isSlash
    by_cases ended : '\n' ∈ others
    · obtain ⟨body, after, rfl, free⟩ := List.eq_append_cons_of_mem ended
      exact Or.inl ⟨_, after, by simp, .lineComment free⟩
    · exact Or.inr (.lineComment ended)
  · obtain ⟨others, rfl⟩ := List.head?_eq_some_iff.mp isStar
    rcases holdsNoEnd_or_exists_end false others with
      noEnd | ⟨⟨⟩, _⟩ | ⟨body, after, rfl, noEnd⟩
    · exact Or.inr (.blockComment noEnd)
    · exact Or.inl ⟨_, after, by simp, .blockComment noEnd⟩

theorem quotedIn_sublist
    (passage : List Char) :
    (quotedIn passage).Sublist passage := by
  cases passage with
  | nil =>
      exact .slnil
  | cons first rest =>
      rw [quotedIn]
      split
      · exact .refl _
      · exact List.nil_sublist _

namespace Passes

variable {after text code quoted : List Char}

theorem quoted_sublist
    (passes : Passes after text code quoted) :
    quoted.Sublist text := by
  induction passes with
  | start =>
      exact .slnil
  | code _ _ inductionHypothesis =>
      exact inductionHypothesis.cons _
  | hidden _ _ inductionHypothesis =>
      exact (quotedIn_sublist _).append inductionHypothesis

/-- A character of code is a passage. -/
theorem of_code
    {character : Char}
    (plain : ¬Opens character after) :
    Passes after [character] [character] [] :=
  .code plain .start

/-- A comment that ends, or a literal, is a passage. -/
theorem of_hidden
    {passage : List Char}
    (isHidden : Hidden passage) :
    Passes after passage [] (quotedIn passage) := by
  simpa using Passes.hidden isHidden (@Passes.start after)

/-- A passage in front of another one makes a longer one. -/
theorem append
    {later laterCode laterQuoted : List Char}
    (passes : Passes (later ++ after) text code quoted)
    (laterPasses : Passes after later laterCode laterQuoted) :
    Passes after (text ++ later) (code ++ laterCode) (quoted ++ laterQuoted) := by
  induction passes with
  | start =>
      exact laterPasses
  | code plain _ inductionHypothesis =>
      exact .code (by simpa using plain) inductionHypothesis
  | hidden isHidden _ inductionHypothesis =>
      rw [List.append_assoc, List.append_assoc]
      exact .hidden isHidden inductionHypothesis

end Passes

/-! What is checked from a reading on. -/

namespace Reading

/-- Check a text from a reading on. -/
def check (reading : Reading) (text : List Char) : Except Imbalance Unit :=
  (reading.steps text).bind ending

variable {line since : Nat} {opened : List (Bracket × Nat)} {character : Char}
  {text rest : List Char}

theorem steps_cons
    (reading : Reading)
    (character : Char)
    (rest : List Char) :
    reading.steps (character :: rest) = (reading.step character).bind (·.steps rest) :=
  List.foldlM_cons

theorem check_cons
    (reading : Reading)
    (character : Char)
    (rest : List Char) :
    reading.check (character :: rest) = (reading.step character).bind (·.check rest) := by
  rw [check, steps_cons]
  cases reading.step character <;> rfl

/-- Behind a text that is read, checking goes on from where it leads. -/
theorem check_append
    {reading next : Reading}
    (read : reading.steps text = .ok next)
    (rest : List Char) :
    reading.check (text ++ rest) = next.check rest := by
  rw [check, steps_append, read]
  rfl

/-! One character of code. -/

theorem check_slash
    (noSlash : rest.head? ≠ some '/')
    (noStar : rest.head? ≠ some '*') :
    check ⟨line, .slash, opened⟩ rest = check ⟨line, .code, opened⟩ rest := by
  cases rest with
  | nil =>
      rfl
  | cons next others =>
      have notSlash : next ≠ '/' := by simpa using noSlash
      have notStar : next ≠ '*' := by simpa using noStar
      simp [check_cons, step, stepCode, notSlash, notStar]

/-- A character that is no bracket moves on in its line, or to the next one. -/
theorem check_code
    (plain : ¬Opens character rest)
    (noBracket : character ∉ bracketCharacters) :
    check ⟨line, .code, opened⟩ (character :: rest) =
      check ⟨line + [character].count '\n', .code, opened⟩ rest := by
  simp only [Opens, not_or, not_and, List.mem_cons, List.not_mem_nil, or_false] at plain
  obtain ⟨⟨noDouble, noSingle, noBack⟩, noComment⟩ := plain
  obtain ⟨opensNone, closesNone⟩ := Bracket.notMem_bracketCharacters_iff.mp noBracket
  rw [check_cons]
  by_cases isSlash : character = '/'
  · subst isSlash
    obtain ⟨noSlash, noStar⟩ := noComment rfl
    exact check_slash noSlash noStar
  · by_cases isBreak : character = '\n'
    · subst isBreak
      rfl
    · simp [step, stepCode, isSlash, isBreak, noDouble, noSingle, noBack, opensNone, closesNone,
        Except.bind]

theorem check_opening
    (bracket : Bracket)
    (rest : List Char) :
    check ⟨line, .code, opened⟩ (bracket.opening :: rest) =
      check ⟨line, .code, (bracket, line) :: opened⟩ rest := by
  cases bracket <;> exact check_cons _ _ _

theorem check_closing
    (bracket : Bracket)
    (rest : List Char) :
    check ⟨line, .code, (bracket, since) :: opened⟩ (bracket.closing :: rest) =
      check ⟨line, .code, opened⟩ rest := by
  cases bracket <;> exact check_cons _ _ _

theorem check_closing_other
    {bracket last : Bracket}
    (other : last ≠ bracket)
    (rest : List Char) :
    check ⟨line, .code, (last, since) :: opened⟩ (bracket.closing :: rest) =
      .error (.mismatched bracket line last since) := by
  have read : step ⟨line, .code, (last, since) :: opened⟩ bracket.closing =
      .error (.mismatched bracket line last since) := by
    cases bracket <;> exact if_neg other
  rw [check_cons, read]
  rfl

theorem check_closing_nothing
    (bracket : Bracket)
    (rest : List Char) :
    check ⟨line, .code, []⟩ (bracket.closing :: rest) = .error (.unmatched bracket line) := by
  cases bracket <;> exact check_cons _ _ _

/-! Comments and literals. -/

/-- A raw literal goes on to the next back quote. -/
theorem steps_raw
    (free : '\x60' ∉ text) :
    steps ⟨line, .raw, opened⟩ text = .ok ⟨line + text.count '\n', .raw, opened⟩ := by
  induction text generalizing line with
  | nil =>
      rfl
  | cons character rest inductionHypothesis =>
      simp only [List.mem_cons, not_or] at free
      have read : step ⟨line, .raw, opened⟩ character =
          .ok ⟨line + [character].count '\n', .raw, opened⟩ := by
        simp only [step, lineAfter, Ne.symm free.1, ↓reduceIte]
        split_ifs with isBreak <;> simp [isBreak]
      rw [steps_cons, read]
      refine (inductionHypothesis free.2).trans ?_
      rw [Nat.add_assoc, ← List.count_append, List.singleton_append]

/-- A block comment goes on as long as it holds no end. -/
theorem steps_blockComment
    {afterStar : Bool}
    (noEnd : Nesting.HoldsNoEnd afterStar text) :
    ∃ star,
      steps ⟨line, .blockComment afterStar, opened⟩ text =
        .ok ⟨line + text.count '\n', .blockComment star, opened⟩ := by
  induction text generalizing line afterStar with
  | nil =>
      exact ⟨afterStar, rfl⟩
  | cons character rest inductionHypothesis =>
      obtain ⟨noEndHere, noEndLater⟩ := Nesting.holdsNoEnd_cons.mp noEnd
      have read : step ⟨line, .blockComment afterStar, opened⟩ character =
          .ok ⟨line + [character].count '\n', .blockComment (character = '*'), opened⟩ := by
        have goesOn : ¬((afterStar && decide (character = '/')) = true) := by
          simpa using noEndHere
        simp only [step, lineAfter, if_neg goesOn]
        split_ifs with isBreak <;> simp [isBreak]
      obtain ⟨star, readOn⟩ := @inductionHypothesis (line + [character].count '\n') _ noEndLater
      refine ⟨star, ?_⟩
      rw [steps_cons, read]
      refine readOn.trans ?_
      rw [Nat.add_assoc, ← List.count_append, List.singleton_append]

/-- Line breaks in a literal are escaped, and the line stays. -/
theorem steps_literalRest
    {quote : Char}
    (isQuote : quote = '\x22' ∨ quote = '\x27')
    (ends : LiteralRest quote text) :
    steps ⟨line, .literal quote, opened⟩ text = .ok ⟨line, .code, opened⟩ := by
  induction ends with
  | closed =>
      rcases isQuote with rfl | rfl <;> rfl
  | plain noEscape noBreak noQuote _ inductionHypothesis =>
      rw [steps_cons]
      simpa [step, noEscape, noBreak, noQuote, Except.bind] using inductionHypothesis
  | escaped character _ inductionHypothesis =>
      rw [steps_cons]
      exact (steps_cons _ _ _).trans inductionHypothesis

/-- A literal that breaks off is reported on the line that is counted there. -/
theorem check_breaksOff
    {quote : Char}
    {after body : List Char}
    (breaksOff : BreaksOff quote after body) :
    check ⟨line, .literal quote, opened⟩ (body ++ after) = .error (.literal line) := by
  induction breaksOff with
  | stops ends =>
      rcases ends with rfl | lineEnds
      · rfl
      · obtain ⟨others, rfl⟩ := List.head?_eq_some_iff.mp lineEnds
        rfl
  | escape ends =>
      subst ends
      rfl
  | plain noEscape noBreak noQuote _ inductionHypothesis =>
      rw [List.cons_append, check_cons]
      simpa [step, noEscape, noBreak, noQuote, Except.bind] using inductionHypothesis
  | escaped character _ inductionHypothesis =>
      rw [List.cons_append, List.cons_append, check_cons]
      exact (check_cons _ _ _).trans inductionHypothesis

theorem steps_quote
    (isQuote : character = '\x22' ∨ character = '\x27') :
    steps ⟨line, .code, opened⟩ [character] = .ok ⟨line, .literal character, opened⟩ := by
  rcases isQuote with rfl | rfl <;> rfl

/-- A comment that ends, or a literal, leads from code to code. -/
theorem steps_hidden
    {passage : List Char}
    (isHidden : Hidden passage)
    {next : Nat}
    (counted : next + (quotedIn passage).count '\n' = line + passage.count '\n') :
    steps ⟨line, .code, opened⟩ passage = .ok ⟨next, .code, opened⟩ := by
  cases isHidden with
  | @lineComment body free =>
      have unchanged := steps_of_lineComment ⟨line, .lineComment, opened⟩ rfl free
      have noBreaks : body.count '\n' = 0 := List.count_eq_zero.mpr free
      obtain rfl : next = line + 1 := by
        simpa [quotedIn, noBreaks] using counted
      change steps _ (['/', '/'] ++ (body ++ ['\n'])) = _
      rw [steps_append]
      change steps ⟨line, .lineComment, opened⟩ (body ++ ['\n']) = _
      rw [steps_append, unchanged]
      rfl
  | @blockComment body noEnd =>
      obtain ⟨star, read⟩ := @steps_blockComment line opened body false noEnd
      obtain rfl : next = line + body.count '\n' := by
        simpa [quotedIn] using counted
      change steps _ (['/', '*'] ++ (body ++ ['*', '/'])) = _
      rw [steps_append]
      change steps ⟨line, .blockComment false, opened⟩ (body ++ ['*', '/']) = _
      rw [steps_append, read]
      cases star <;> rfl
  | @literal quote rest isQuote ends =>
      obtain rfl : next = line := by
        simpa [quotedIn, isQuote] using counted
      rw [← List.singleton_append, steps_append, steps_quote isQuote]
      exact steps_literalRest isQuote ends
  | @raw body free =>
      obtain rfl : next = line + body.count '\n' := by
        simpa [quotedIn] using counted
      change steps _ (['\x60'] ++ (body ++ ['\x60'])) = _
      rw [steps_append]
      change steps ⟨line, .raw, opened⟩ (body ++ ['\x60']) = _
      rw [steps_append, steps_raw free]
      rfl

/-- A line comment at the end of a text changes nothing. -/
theorem check_lastComment
    (free : '\n' ∉ text) :
    check ⟨line, .code, opened⟩ ('/' :: '/' :: text) = check ⟨line, .code, opened⟩ [] := by
  have begins : check ⟨line, .code, opened⟩ ('/' :: '/' :: text) =
      check ⟨line, .lineComment, opened⟩ text :=
    @check_append ['/', '/'] ⟨line, .code, opened⟩ _ rfl text
  rw [begins, check, steps_of_lineComment ⟨line, .lineComment, opened⟩ rfl free]
  rfl

theorem check_unendedComment
    (noEnd : ¬['*', '/'] <:+: text ++ ['*']) :
    check ⟨line, .code, opened⟩ ('/' :: '*' :: text) = .error .blockComment := by
  have begins : check ⟨line, .code, opened⟩ ('/' :: '*' :: text) =
      check ⟨line, .blockComment false, opened⟩ text :=
    @check_append ['/', '*'] ⟨line, .code, opened⟩ _ rfl text
  obtain ⟨star, read⟩ := @steps_blockComment line opened text false noEnd
  rw [begins, check, read]
  rfl

theorem check_unendedRaw
    (free : '\x60' ∉ text) :
    check ⟨line, .code, opened⟩ ('\x60' :: text) = .error .rawString := by
  have begins : check ⟨line, .code, opened⟩ ('\x60' :: text) =
      check ⟨line, .raw, opened⟩ text :=
    @check_append ['\x60'] ⟨line, .code, opened⟩ _ rfl text
  rw [begins, check, steps_raw free]
  rfl

end Reading

/--
A passage that closes the innermost brackets, and all that it opens, is passed in the check.

The line that is counted behind it leaves out the line breaks of quoted literals.
-/
theorem Passes.check_append
    {after text code quoted : List Char}
    (passes : Passes after text code quoted)
    {inner outer : List (Bracket × Nat)}
    (closes : Closes (inner.map Prod.fst) (bracketsIn code))
    {line next : Nat}
    (counted : next + quoted.count '\n' = line + text.count '\n') :
    Reading.check ⟨line, .code, inner ++ outer⟩ (text ++ after) =
      Reading.check ⟨next, .code, outer⟩ after := by
  induction passes generalizing line inner with
  | start =>
      obtain rfl : inner = [] := by
        cases inner with
        | nil =>
            rfl
        | cons _ _ =>
            cases closes
      obtain rfl : next = line := by
        simpa using counted
      rfl
  | @code character text code quoted plain passes inductionHypothesis =>
      obtain ⟨stack, moves, closesLater⟩ := closes_bracketsIn_cons.mp closes
      rw [List.count_cons] at counted
      generalize isStack : inner.map Prod.fst = brackets at moves
      cases moves with
      | opens bracket =>
          have noBreak : (bracket.opening == '\n') = false := by
            cases bracket <;> rfl
          rw [List.cons_append, Reading.check_opening]
          apply @inductionHypothesis ((bracket, line) :: inner)
          · rwa [List.map_cons, isStack]
          · simpa [noBreak] using counted
      | closes bracket =>
          have noBreak : (bracket.closing == '\n') = false := by
            cases bracket <;> rfl
          obtain ⟨⟨_, since⟩, others, rfl, rfl, rfl⟩ := List.map_eq_cons_iff.mp isStack
          rw [List.cons_append, List.cons_append, Reading.check_closing]
          apply inductionHypothesis closesLater
          simpa [noBreak] using counted
      | stays noBracket =>
          rw [List.cons_append, Reading.check_code plain noBracket]
          apply inductionHypothesis (isStack ▸ closesLater)
          rw [List.count_singleton]
          omega
  | @hidden passage text code quoted isHidden passes inductionHypothesis =>
      have fewer := (quotedIn_sublist passage).count_le '\n'
      have between : (line + passage.count '\n' - (quotedIn passage).count '\n') +
          (quotedIn passage).count '\n' = line + passage.count '\n' := by
        omega
      rw [List.append_assoc, Reading.check_append (Reading.steps_hidden isHidden between)]
      apply inductionHypothesis closes
      rw [List.count_append, List.count_append] at counted
      omega

end RpcStubs.Source
