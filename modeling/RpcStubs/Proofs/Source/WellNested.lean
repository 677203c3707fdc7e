import RpcStubs.Source.Brackets
namespace RpcStubs.Source

/-!
# Well-nested words

A word of brackets is well nested when it is empty, or when it starts with a bracket that is
closed around a well-nested word and goes on with one.  Reading a word with a stack of open
brackets comes to the same: what is left to read closes these brackets from the innermost one
out, and in between it is well nested.
-/

/-- Words in which every bracket is closed by its own kind, one inside or after the other. -/
inductive WellNested : List Char → Prop
  | empty : WellNested []
  | bracket (bracket : Bracket) {inside rest : List Char} :
      WellNested inside →
      WellNested rest →
      WellNested (bracket.opening :: inside ++ bracket.closing :: rest)

/-- Words that close some open brackets, the innermost first, and all that they open. -/
inductive Closes : List Bracket → List Char → Prop
  | done : Closes [] []
  | opens (bracket : Bracket) {opened : List Bracket} {rest : List Char} :
      Closes (bracket :: opened) rest →
      Closes opened (bracket.opening :: rest)
  | closes (bracket : Bracket) {opened : List Bracket} {rest : List Char} :
      Closes opened rest →
      Closes (bracket :: opened) (bracket.closing :: rest)

/-- A well-nested word in front leaves the same brackets to close. -/
theorem WellNested.closes_append
    {word rest : List Char}
    {opened : List Bracket}
    (nested : WellNested word)
    (closes : Closes opened rest) :
    Closes opened (word ++ rest) := by
  induction nested generalizing opened rest with
  | empty =>
      exact closes
  | bracket bracket _ _ insideCloses restCloses =>
      simp only [List.cons_append, List.append_assoc]
      exact .opens bracket (insideCloses (.closes bracket (restCloses closes)))

/-- Well-nested words between the brackets that close the open ones, from the innermost out. -/
def Unwinds : List Bracket → List Char → Prop
  | [], word => WellNested word
  | bracket :: opened, word =>
      ∃ inside rest,
        word = inside ++ bracket.closing :: rest ∧ WellNested inside ∧ Unwinds opened rest

/-- A closed bracket in front belongs to the first of the well-nested words. -/
theorem Unwinds.enclose
    {opened : List Bracket}
    {inside rest : List Char}
    (bracket : Bracket)
    (nested : WellNested inside)
    (unwinds : Unwinds opened rest) :
    Unwinds opened (bracket.opening :: inside ++ bracket.closing :: rest) := by
  cases opened with
  | nil =>
      exact WellNested.bracket bracket nested unwinds
  | cons last others =>
      obtain ⟨next, outside, rfl, nextNested, unwinds⟩ := unwinds
      refine ⟨bracket.opening :: inside ++ bracket.closing :: next, outside, ?_,
        .bracket bracket nested nextNested, unwinds⟩
      simp

/-- What closes open brackets is well nested in between. -/
theorem Closes.unwinds
    {opened : List Bracket}
    {word : List Char}
    (closes : Closes opened word) :
    Unwinds opened word := by
  induction closes with
  | done =>
      exact .empty
  | opens bracket _ inductionHypothesis =>
      obtain ⟨inside, rest, rfl, nested, unwinds⟩ := inductionHypothesis
      exact unwinds.enclose bracket nested
  | closes bracket _ inductionHypothesis =>
      exact ⟨[], _, rfl, .empty, inductionHypothesis⟩

/-- The words that close all that they open are the well-nested ones. -/
theorem closes_nil_iff
    {word : List Char} :
    Closes [] word ↔ WellNested word := by
  constructor
  · exact Closes.unwinds
  · intro nested
    simpa using nested.closes_append .done

end RpcStubs.Source
