import RpcStubs.Text.Pieces
namespace RpcStubs.Text

/-!
# Cutting and joining

How the cuts of a text meet concatenation.  A text is cut at its last mark exactly when what
follows the cut has no mark, and pieces without marks survive being joined and cut again.
-/

/-- Only a text without marks is not cut. -/
theorem cutLast_eq_none_iff
    {mark : Char}
    {text : List Char} :
    cutLast mark text = none ↔ mark ∉ text := by
  induction text with
  | nil =>
      simp [cutLast]
  | cons character rest inductionHypothesis =>
      unfold cutLast
      cases cut : cutLast mark rest with
      | some parts =>
          have marked : mark ∈ rest := by
            rw [cut] at inductionHypothesis
            simpa using inductionHypothesis
          simp [marked]
      | none =>
          have free : mark ∉ rest :=
            inductionHypothesis.mp cut
          by_cases same : character = mark
          · simp [same]
          · simp [same, free, Ne.symm same]

/-- A mark that no mark follows is the last one. -/
theorem cutLast_append
    {mark : Char}
    (before : List Char)
    {after : List Char}
    (free : mark ∉ after) :
    cutLast mark (before ++ mark :: after) = some (before, after) := by
  induction before with
  | nil =>
      simp [cutLast, cutLast_eq_none_iff.mpr free]
  | cons character rest inductionHypothesis =>
      simp [cutLast, inductionHypothesis]

/-- The parts of a cut give the text back, and the second one has no mark. -/
theorem cutLast_eq_some_iff
    {mark : Char}
    {text before after : List Char} :
    cutLast mark text = some (before, after) ↔
      text = before ++ mark :: after ∧ mark ∉ after := by
  constructor
  · intro cut
    have marked : mark ∈ text := by
      by_cases marked : mark ∈ text
      · exact marked
      · rw [cutLast_eq_none_iff.mpr marked] at cut
        simp at cut
    obtain ⟨later, earlier, reversed, free⟩ :=
      List.eq_append_cons_of_mem (List.mem_reverse.mpr marked)
    have shape : text = earlier.reverse ++ mark :: later.reverse := by
      rw [← text.reverse_reverse, reversed]
      simp
    rw [shape, cutLast_append _ (by simpa using free)] at cut
    simp only [Option.some.injEq, Prod.mk.injEq] at cut
    obtain ⟨rfl, rfl⟩ := cut
    exact ⟨shape, by simpa using free⟩
  · rintro ⟨rfl, free⟩
    exact cutLast_append before free

/-- What follows the last mark has no mark, and is the whole text or preceded by one. -/
theorem afterLast_eq_iff
    {mark : Char}
    {text after : List Char} :
    afterLast mark text = after ↔
      mark ∉ after ∧ (text = after ∨ ∃ before, text = before ++ mark :: after) := by
  unfold afterLast
  cases cut : cutLast mark text with
  | some parts =>
      obtain ⟨before, last⟩ := parts
      obtain ⟨shape, free⟩ := cutLast_eq_some_iff.mp cut
      constructor
      · intro equal
        subst equal
        exact ⟨free, .inr ⟨before, shape⟩⟩
      · rintro ⟨unmarked, same | ⟨other, otherShape⟩⟩
        · exact (unmarked (by simp [← same, shape])).elim
        · have recut := cutLast_eq_some_iff.mpr ⟨otherShape, unmarked⟩
          rw [cut] at recut
          simp_all
  | none =>
      have free := cutLast_eq_none_iff.mp cut
      constructor
      · intro equal
        subst equal
        exact ⟨free, .inl rfl⟩
      · rintro ⟨_, same | ⟨before, shape⟩⟩
        · exact same
        · exact (free (by simp [shape])).elim

/-- What is cut at the first mark is the text before it and the text after it. -/
theorem eq_of_cutFirst_eq_some
    {mark : Char}
    {text before after : List Char}
    (cut : cutFirst mark text = some (before, after)) :
    text = before ++ mark :: after := by
  induction text generalizing before with
  | nil =>
      cases cut
  | cons character rest inductionHypothesis =>
      rw [cutFirst] at cut
      split at cut
      · rename_i isMark
        cases cut
        rw [isMark]
        rfl
      · obtain ⟨⟨front, back⟩, restCut, same⟩ := Option.map_eq_some_iff.mp cut
        cases same
        rw [inductionHypothesis restCut]
        rfl

/-- A mark that none precedes is the first one. -/
theorem cutFirst_append
    {mark : Char}
    {before : List Char}
    (free : mark ∉ before)
    (after : List Char) :
    cutFirst mark (before ++ mark :: after) = some (before, after) := by
  induction before with
  | nil =>
      simp [cutFirst]
  | cons character rest inductionHypothesis =>
      simp only [List.mem_cons, not_or] at free
      rw [List.cons_append, cutFirst, if_neg (Ne.symm free.1), inductionHypothesis free.2]
      rfl

theorem pieces_cons_of_mark
    {isMark : Char → Bool}
    {mark : Char}
    (marks : isMark mark = true)
    (text : List Char) :
    pieces isMark (mark :: text) = [] :: pieces isMark text := by
  simp [pieces, marks]

/-- A character that is no mark belongs to the first piece. -/
theorem exists_pieces_cons
    {isMark : Char → Bool}
    {character : Char}
    (plain : isMark character = false)
    (text : List Char) :
    ∃ piece others,
      pieces isMark text = piece :: others ∧
        pieces isMark (character :: text) = (character :: piece) :: others := by
  cases shape : pieces isMark text with
  | nil =>
      exact (pieces_ne_nil isMark text shape).elim
  | cons piece others =>
      exact ⟨piece, others, rfl, by simp [pieces, plain, shape]⟩

/-- A mark between two texts separates their pieces. -/
theorem pieces_append
    (isMark : Char → Bool)
    {mark : Char}
    (marks : isMark mark = true)
    (before after : List Char) :
    pieces isMark (before ++ mark :: after) =
      pieces isMark before ++ pieces isMark after := by
  induction before with
  | nil =>
      simp [pieces, marks]
  | cons character rest inductionHypothesis =>
      cases isOne : isMark character with
      | true =>
          simp [pieces_cons_of_mark isOne, inductionHypothesis]
      | false =>
          obtain ⟨piece, others, restShape, consShape⟩ :=
            exists_pieces_cons isOne rest
          obtain ⟨first, later, wholeShape, wholeCons⟩ :=
            exists_pieces_cons isOne (rest ++ mark :: after)
          rw [inductionHypothesis, restShape, List.cons_append, List.cons.injEq] at wholeShape
          obtain ⟨rfl, rfl⟩ := wholeShape
          rw [List.cons_append, wholeCons, consShape, List.cons_append]

/-- A text without marks is one piece. -/
theorem pieces_of_free
    {isMark : Char → Bool}
    {text : List Char}
    (free : ∀ character ∈ text, isMark character = false) :
    pieces isMark text = [text] := by
  induction text with
  | nil =>
      rfl
  | cons character rest inductionHypothesis =>
      have restFree := inductionHypothesis fun other member => free other (by simp [member])
      simp [pieces, free character (by simp), restFree]

theorem pieces_of_not_mem
    {mark : Char}
    {text : List Char}
    (free : mark ∉ text) :
    pieces (· == mark) text = [text] := by
  apply pieces_of_free
  intro character member
  rw [beq_eq_false_iff_ne]
  rintro rfl
  exact free member

/-- No piece has a mark in it. -/
theorem free_of_mem_pieces
    {isMark : Char → Bool}
    {text piece : List Char}
    (member : piece ∈ pieces isMark text) :
    ∀ character ∈ piece, isMark character = false := by
  induction text generalizing piece with
  | nil =>
      simp only [pieces, List.mem_singleton] at member
      simp [member]
  | cons character rest inductionHypothesis =>
      cases isOne : isMark character with
      | true =>
          rw [pieces_cons_of_mark isOne] at member
          rcases List.mem_cons.mp member with rfl | inRest
          · simp
          · exact inductionHypothesis inRest
      | false =>
          obtain ⟨first, others, restShape, consShape⟩ := exists_pieces_cons isOne rest
          rw [restShape] at inductionHypothesis
          rw [consShape] at member
          rcases List.mem_cons.mp member with rfl | inOthers
          · intro other otherMember
            rcases List.mem_cons.mp otherMember with rfl | inFirst
            · exact isOne
            · exact inductionHypothesis (by simp) other inFirst
          · exact inductionHypothesis (by simp [inOthers])

/-- A character of a text is a mark, or it is in one of the pieces. -/
theorem mem_iff_mem_pieces
    (isMark : Char → Bool)
    {text : List Char}
    {character : Char}
    (plain : isMark character = false) :
    character ∈ text ↔ ∃ piece ∈ pieces isMark text, character ∈ piece := by
  induction text with
  | nil =>
      simp [pieces]
  | cons first rest inductionHypothesis =>
      cases isOne : isMark first with
      | true =>
          have differs : character ≠ first := by
            rintro rfl
            exact Bool.false_ne_true (plain.symm.trans isOne)
          simp [pieces_cons_of_mark isOne, differs, inductionHypothesis]
      | false =>
          obtain ⟨piece, others, restShape, consShape⟩ := exists_pieces_cons isOne rest
          rw [restShape] at inductionHypothesis
          rw [consShape, List.mem_cons, inductionHypothesis]
          simp [or_assoc]

/-- The pieces of a text hold everything but the marks, in order. -/
theorem flatten_pieces
    (isMark : Char → Bool)
    (text : List Char) :
    (pieces isMark text).flatten = text.filter (!isMark ·) := by
  induction text with
  | nil =>
      rfl
  | cons character rest inductionHypothesis =>
      cases marks : isMark character with
      | true =>
          rw [pieces_cons_of_mark marks, List.flatten_cons, List.nil_append, inductionHypothesis,
            List.filter_cons_of_neg (by simp [marks])]
      | false =>
          obtain ⟨piece, others, restShape, wholeShape⟩ := exists_pieces_cons marks rest
          rw [restShape] at inductionHypothesis
          rw [wholeShape, List.filter_cons_of_pos (by simp [marks]), ← inductionHypothesis]
          rfl

theorem segments_append
    (mark : Char)
    (before after : String) :
    segments mark (before ++ String.singleton mark ++ after) =
      segments mark before ++ segments mark after := by
  have marks : (mark == mark) = true := by
    simp
  simp [segments, pieces_append (· == mark) marks]

theorem not_mem_of_mem_segments
    {mark : Char}
    {text segment : String}
    (member : segment ∈ segments mark text) :
    mark ∉ segment.toList := by
  obtain ⟨piece, pieceMember, rfl⟩ := List.mem_map.mp member
  intro marked
  simpa using free_of_mem_pieces pieceMember mark (by simpa using marked)

theorem segments_of_not_mem
    {mark : Char}
    {text : String}
    (free : mark ∉ text.toList) :
    segments mark text = [text] := by
  simp [segments, pieces_of_not_mem free]

/-- Names without slashes survive being joined by slashes and cut again. -/
theorem segments_join
    {names : List String}
    (nonempty : names ≠ [])
    (free : ∀ name ∈ names, '/' ∉ name.toList) :
    segments '/' (join "/" names) = names := by
  induction names with
  | nil =>
      exact (nonempty rfl).elim
  | cons name rest inductionHypothesis =>
      cases rest with
      | nil =>
          exact segments_of_not_mem (free name (by simp))
      | cons next others =>
          have restFree : ∀ other ∈ next :: others, '/' ∉ other.toList :=
            fun other member => free other (by simp [List.mem_cons.mp member])
          calc
            segments '/' (join "/" (name :: next :: others)) =
                segments '/' name ++ segments '/' (join "/" (next :: others)) :=
              segments_append '/' name _
            _ = [name] ++ (next :: others) := by
              rw [segments_of_not_mem (free name (by simp)),
                inductionHypothesis (by simp) restFree]

/-- A text occurs inside another one exactly when it is a part of it. -/
theorem occursIn_iff
    {wanted text : List Char} :
    occursIn wanted text = true ↔ wanted <:+: text := by
  induction text with
  | nil =>
      simp [occursIn]
  | cons character rest inductionHypothesis =>
      rw [occursIn, Bool.or_eq_true, List.isPrefixOf_iff_prefix, inductionHypothesis,
        List.infix_cons_iff]

end RpcStubs.Text
