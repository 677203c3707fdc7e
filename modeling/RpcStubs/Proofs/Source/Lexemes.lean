import RpcStubs.Source.Brackets
namespace RpcStubs.Source

/-!
# Code, comments and literals

A text is split from left to right into characters of code, comments and literals.  What opens a
comment or a literal is not code, and every comment and literal ends where it first can, so that
the characters of code are determined by the text.
-/

/-- The rest of a literal behind its opening quote, up to the next one that is not escaped. -/
inductive LiteralRest (quote : Char) : List Char → Prop
  | closed : LiteralRest quote [quote]
  | plain {character : Char} {rest : List Char} :
      character ≠ '\\' →
      character ≠ '\n' →
      character ≠ quote →
      LiteralRest quote rest →
      LiteralRest quote (character :: rest)
  | escaped (character : Char) {rest : List Char} :
      LiteralRest quote rest →
      LiteralRest quote ('\\' :: character :: rest)

/-- Comments that end before the text does, and literals. -/
inductive Hidden : List Char → Prop
  | lineComment {body : List Char} :
      '\n' ∉ body →
      Hidden ('/' :: '/' :: body ++ ['\n'])
  | blockComment {body : List Char} :
      ¬['*', '/'] <:+: body ++ ['*'] →
      Hidden ('/' :: '*' :: body ++ ['*', '/'])
  | literal {quote : Char} {rest : List Char} :
      quote = '\x22' ∨ quote = '\x27' →
      LiteralRest quote rest →
      Hidden (quote :: rest)
  | raw {body : List Char} :
      '\x60' ∉ body →
      Hidden ('\x60' :: body ++ ['\x60'])

theorem Hidden.ne_nil
    {passage : List Char}
    (isHidden : Hidden passage) :
    passage ≠ [] := by
  cases isHidden <;> simp

/-- A character opens a comment or a literal in front of the rest of the text. -/
def Opens (character : Char) (rest : List Char) : Prop :=
  character ∈ ['\x22', '\x27', '\x60'] ∨
    character = '/' ∧ (rest.head? = some '/' ∨ rest.head? = some '*')

/-- A text splits into comments, literals and these characters of code. -/
inductive Splits : List Char → List Char → Prop
  | done : Splits [] []
  | code {character : Char} {rest code : List Char} :
      ¬Opens character rest →
      Splits rest code →
      Splits (character :: rest) (character :: code)
  | hidden {passage rest code : List Char} :
      Hidden passage →
      Splits rest code →
      Splits (passage ++ rest) code
  | lastComment {body : List Char} :
      '\n' ∉ body →
      Splits ('/' :: '/' :: body) []

/-- The characters of brackets. -/
def bracketCharacters : List Char :=
  ['(', ')', '[', ']', '\x7b', '\x7d']

/-- The brackets among some characters of code. -/
def bracketsIn (code : List Char) : List Char :=
  code.filter (· ∈ bracketCharacters)

/-! A text splits in one way. -/

section Unique

variable {first second rest after : List Char}

/-- The first mark cuts a text in one way. -/
theorem eq_of_marked
    {mark : Char}
    (firstFree : mark ∉ first)
    (secondFree : mark ∉ second)
    (same : first ++ mark :: rest = second ++ mark :: after) :
    first = second := by
  rcases List.append_eq_append_iff.mp same with ⟨between, shape, cut⟩ | ⟨between, shape, cut⟩ <;>
    cases between with
    | nil =>
        simp [shape]
    | cons character others =>
        obtain ⟨rfl, _⟩ := List.cons.inj cut
        simp [shape] at firstFree secondFree

/-- The first end of a comment cuts a text in one way. -/
theorem eq_of_ended
    (firstFree : ¬['*', '/'] <:+: first ++ ['*'])
    (secondFree : ¬['*', '/'] <:+: second ++ ['*'])
    (same : first ++ '*' :: '/' :: rest = second ++ '*' :: '/' :: after) :
    first = second := by
  -- An end that comes earlier in one text than in the other is an end in the other text.
  have noneBetween
      {body between rest after : List Char}
      (free : ¬['*', '/'] <:+: (body ++ between) ++ ['*'])
      (cut : '*' :: '/' :: rest = between ++ '*' :: '/' :: after) :
      between = [] := by
    match between with
    | [] =>
        rfl
    | [_] =>
        simp at cut
    | star :: slash :: others =>
        obtain ⟨rfl, tail⟩ := List.cons.inj cut
        obtain ⟨rfl, _⟩ := List.cons.inj tail
        exact (free ⟨body, others ++ ['*'], by simp⟩).elim
  rcases List.append_eq_append_iff.mp same with ⟨between, rfl, cut⟩ | ⟨between, rfl, cut⟩
  · rw [noneBetween secondFree cut, List.append_nil]
  · rw [noneBetween firstFree cut, List.append_nil]

/-- A literal is closed in one way. -/
theorem LiteralRest.unique
    {quote : Char}
    (noEscape : quote ≠ '\\')
    (isFirst : LiteralRest quote first)
    (isSecond : LiteralRest quote second)
    (same : first ++ rest = second ++ after) :
    first = second := by
  induction isFirst generalizing second with
  | closed =>
      cases isSecond with
      | closed =>
          rfl
      | plain _ _ noQuote _ =>
          exact (noQuote (List.cons.inj same).1.symm).elim
      | escaped _ _ =>
          exact (noEscape (List.cons.inj same).1).elim
  | plain isPlain _ noQuote _ inductionHypothesis =>
      cases isSecond with
      | closed =>
          exact (noQuote (List.cons.inj same).1).elim
      | plain _ _ _ isSecond =>
          obtain ⟨rfl, tail⟩ := List.cons.inj same
          rw [inductionHypothesis isSecond tail]
      | escaped _ _ =>
          exact (isPlain (List.cons.inj same).1).elim
  | escaped character _ inductionHypothesis =>
      cases isSecond with
      | closed =>
          exact (noEscape (List.cons.inj same).1.symm).elim
      | plain isPlain _ _ _ =>
          exact (isPlain (List.cons.inj same).1.symm).elim
      | escaped other isSecond =>
          obtain ⟨rfl, tail⟩ := List.cons.inj (List.cons.inj same).2
          rw [inductionHypothesis isSecond tail]

/-- Comments and literals end in one way. -/
theorem Hidden.unique
    (isFirst : Hidden first)
    (isSecond : Hidden second)
    (same : first ++ rest = second ++ after) :
    first = second := by
  -- The first two characters tell the kinds apart; within a kind, the first end does.
  cases isFirst with
  | lineComment free =>
      cases isSecond with
      | lineComment otherFree =>
          simp only [List.cons_append, List.cons.injEq, true_and, List.append_assoc,
            List.nil_append] at same
          rw [eq_of_marked free otherFree same]
      | blockComment _ =>
          simp at same
      | literal isQuote _ =>
          rcases isQuote with rfl | rfl <;> simp at same
      | raw _ =>
          simp at same
  | blockComment free =>
      cases isSecond with
      | lineComment _ =>
          simp at same
      | blockComment otherFree =>
          simp only [List.cons_append, List.cons.injEq, true_and, List.append_assoc,
            List.nil_append] at same
          rw [eq_of_ended free otherFree same]
      | literal isQuote _ =>
          rcases isQuote with rfl | rfl <;> simp at same
      | raw _ =>
          simp at same
  | literal isQuote ends =>
      have noEscape : ∀ quote : Char, quote = '\x22' ∨ quote = '\x27' → quote ≠ '\\' := by
        rintro _ (rfl | rfl) <;> decide
      cases isSecond with
      | lineComment _ =>
          rcases isQuote with rfl | rfl <;> simp at same
      | blockComment _ =>
          rcases isQuote with rfl | rfl <;> simp at same
      | literal _ otherEnds =>
          obtain ⟨rfl, tail⟩ := List.cons.inj same
          rw [ends.unique (noEscape _ isQuote) otherEnds tail]
      | raw _ =>
          rcases isQuote with rfl | rfl <;> simp at same
  | raw free =>
      cases isSecond with
      | lineComment _ =>
          simp at same
      | blockComment _ =>
          simp at same
      | literal isQuote _ =>
          rcases isQuote with rfl | rfl <;> simp at same
      | raw otherFree =>
          simp only [List.cons_append, List.cons.injEq, true_and, List.append_assoc,
            List.nil_append] at same
          rw [eq_of_marked free otherFree same]

/-- A comment or a literal starts with a character that opens it. -/
theorem Hidden.exists_opens
    (isHidden : Hidden first)
    (rest : List Char) :
    ∃ character others, first ++ rest = character :: others ∧ Opens character others := by
  cases isHidden with
  | lineComment _ =>
      exact ⟨'/', _, rfl, Or.inr ⟨rfl, Or.inl rfl⟩⟩
  | blockComment _ =>
      exact ⟨'/', _, rfl, Or.inr ⟨rfl, Or.inr rfl⟩⟩
  | literal isQuote _ =>
      rcases isQuote with rfl | rfl
      · exact ⟨_, _, rfl, Or.inl (by decide)⟩
      · exact ⟨_, _, rfl, Or.inl (by decide)⟩
  | raw _ =>
      exact ⟨_, _, rfl, Or.inl (by decide)⟩

/-- A line comment that ends with its line does not end with the text. -/
theorem Hidden.ne_lastComment
    {body : List Char}
    (isHidden : Hidden first)
    (free : '\n' ∉ body) :
    first ++ rest ≠ '/' :: '/' :: body := by
  intro same
  cases isHidden with
  | lineComment _ =>
      simp only [List.cons_append, List.cons.injEq, true_and] at same
      exact free (by simp [← same])
  | blockComment _ =>
      simp at same
  | literal isQuote _ =>
      rcases isQuote with rfl | rfl <;> simp at same
  | raw _ =>
      simp at same

/-! What a split does at the head of a text is determined by the text. -/

namespace Splits

variable {character : Char} {code : List Char}

theorem of_plain
    (splits : Splits (character :: rest) code)
    (plain : ¬Opens character rest) :
    ∃ later, code = character :: later ∧ Splits rest later := by
  generalize shape : character :: rest = text at splits
  cases splits with
  | done =>
      cases shape
  | code _ splits =>
      cases shape
      exact ⟨_, rfl, splits⟩
  | hidden isHidden _ =>
      obtain ⟨_, _, opened, opens⟩ := isHidden.exists_opens _
      cases shape.trans opened
      exact (plain opens).elim
  | lastComment _ =>
      cases shape
      exact (plain (Or.inr ⟨rfl, Or.inl rfl⟩)).elim

theorem of_hidden
    (splits : Splits (first ++ rest) code)
    (isHidden : Hidden first) :
    Splits rest code := by
  obtain ⟨_, _, opened, opens⟩ := isHidden.exists_opens rest
  generalize shape : first ++ rest = text at splits
  cases splits with
  | done =>
      cases shape.symm.trans opened
  | code plain _ =>
      cases shape.symm.trans opened
      exact (plain opens).elim
  | hidden isOther splits =>
      obtain rfl := isHidden.unique isOther shape
      rw [List.append_cancel_left shape]
      exact splits
  | lastComment free =>
      exact (isHidden.ne_lastComment free shape).elim

theorem of_lastComment
    (splits : Splits ('/' :: '/' :: rest) code)
    (free : '\n' ∉ rest) :
    code = [] := by
  generalize shape : '/' :: '/' :: rest = text at splits
  cases splits with
  | done =>
      rfl
  | code plain _ =>
      cases shape
      exact (plain (Or.inr ⟨rfl, Or.inl rfl⟩)).elim
  | hidden isHidden _ =>
      exact (isHidden.ne_lastComment free shape.symm).elim
  | lastComment _ =>
      rfl

theorem of_nil
    (splits : Splits [] code) :
    code = [] := by
  generalize shape : [] = text at splits
  cases splits with
  | done =>
      rfl
  | code _ _ =>
      cases shape
  | hidden isHidden _ =>
      obtain ⟨_, _, opened, _⟩ := isHidden.exists_opens _
      cases shape.trans opened
  | lastComment _ =>
      cases shape

/-- The characters of code in a text are determined by the text. -/
theorem unique
    {text other : List Char}
    (splits : Splits text code)
    (splitsOther : Splits text other) :
    code = other := by
  induction splits generalizing other with
  | done =>
      exact splitsOther.of_nil.symm
  | code plain _ inductionHypothesis =>
      obtain ⟨later, rfl, splitsLater⟩ := splitsOther.of_plain plain
      rw [inductionHypothesis splitsLater]
  | hidden isHidden _ inductionHypothesis =>
      exact inductionHypothesis (splitsOther.of_hidden isHidden)
  | lastComment free =>
      exact (splitsOther.of_lastComment free).symm

end Splits

end Unique

end RpcStubs.Source
