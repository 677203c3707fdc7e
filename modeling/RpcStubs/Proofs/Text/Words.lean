import Mathlib.Data.List.Chain
import RpcStubs.Proofs.Text.Joined
namespace RpcStubs.Text

/-!
# Words on one line

A text is on one line when its only blanks are single spaces between words.  Such a text is its
words joined by spaces, and words joined by spaces are such a text.
-/

/-- A text whose only blanks are single spaces inside it. -/
structure IsOneLine (text : List Char) : Prop where
  onlySpaces : ∀ character ∈ text, isBlank character = true → character = ' '
  startsSolid : text.head? ≠ some ' '
  endsSolid : text.getLast? ≠ some ' '
  noDouble : ¬[' ', ' '] <:+: text

/-- A text without blanks, and not empty. -/
def IsWord (text : List Char) : Prop :=
  text ≠ [] ∧ ∀ character ∈ text, isBlank character = false

/-- Two characters stand side by side nowhere exactly when no neighbours are these two. -/
theorem not_pair_infix_iff
    {first second : Char}
    {text : List Char} :
    ¬[first, second] <:+: text ↔
      text.IsChain fun left right => ¬(left = first ∧ right = second) := by
  constructor
  · intro apart
    rw [List.isChain_iff_forall_rel_of_append_cons_cons]
    rintro left right before after rfl ⟨rfl, rfl⟩
    exact apart ⟨before, after, by simp⟩
  · intro chain pair
    have apart := chain.infix pair
    rw [List.isChain_pair] at apart
    exact apart ⟨rfl, rfl⟩

/-! Pieces and words. -/

theorem isWord_of_mem_words
    {text word : List Char}
    (member : word ∈ words text) :
    IsWord word := by
  obtain ⟨isPiece, nonempty⟩ := List.mem_filter.mp member
  exact ⟨by simpa using nonempty, free_of_mem_pieces isPiece⟩

/-- The words of a text hold everything but the blanks, in order. -/
theorem flatten_words
    (text : List Char) :
    (words text).flatten = text.filter (!isBlank ·) := by
  rw [words, List.flatten_filter_not_isEmpty, flatten_pieces]

theorem pieces_congr
    {isMark isOther : Char → Bool}
    {text : List Char}
    (same : ∀ character ∈ text, isMark character = isOther character) :
    pieces isMark text = pieces isOther text := by
  induction text with
  | nil =>
      rfl
  | cons character rest inductionHypothesis =>
      rw [pieces, pieces, same character (by simp),
        inductionHypothesis fun other member => same other (by simp [member])]

/-- Single marks that stand inside a text leave no piece empty. -/
theorem exists_pieces_of_apart
    {isMark : Char → Bool}
    {text : List Char}
    (nonempty : text ≠ [])
    (apart : text.IsChain fun left right => ¬(isMark left = true ∧ isMark right = true))
    (ends : ∀ character ∈ text.getLast?, isMark character = false) :
    ∃ piece others,
      pieces isMark text = piece :: others ∧
        [] ∉ others ∧
        ((∀ character ∈ text.head?, isMark character = false) → piece ≠ []) := by
  induction text with
  | nil =>
      exact (nonempty rfl).elim
  | cons character rest inductionHypothesis =>
      cases rest with
      | nil =>
          have plain : isMark character = false := ends character (by simp)
          exact ⟨[character], [], by simp [pieces, plain], by simp, by simp⟩
      | cons next later =>
          rw [List.isChain_cons_cons] at apart
          obtain ⟨piece, others, shape, full, starts⟩ :=
            inductionHypothesis (by simp) apart.2 (by simpa using ends)
          cases marks : isMark character with
          | true =>
              have nextPlain : isMark next = false := by
                simpa [marks] using apart.1
              have pieceFull : piece ≠ [] :=
                starts (by simpa using nextPlain)
              refine ⟨[], piece :: others, ?_, ?_, ?_⟩
              · rw [pieces_cons_of_mark marks, shape]
              · simp [pieceFull.symm, full]
              · simp [marks]
          | false =>
              refine ⟨character :: piece, others, ?_, full, ?_⟩
              · rw [pieces, if_neg (by simp [marks]), shape]
              · simp

/-- A text on one line is its words with a space between neighbours. -/
theorem IsOneLine.joined_words
    {text : List Char}
    (oneLine : IsOneLine text) :
    joined [' '] (words text) = text := by
  by_cases empty : text = []
  · rw [empty]
    rfl
  · have spaces : ∀ character ∈ text, isBlank character = (character == ' ') := by
      intro character member
      rw [Bool.eq_iff_iff, beq_iff_eq]
      constructor
      · exact oneLine.onlySpaces character member
      · rintro rfl
        rfl
    have apart :
        text.IsChain fun left right => ¬((left == ' ') = true ∧ (right == ' ') = true) := by
      simpa only [beq_iff_eq] using not_pair_infix_iff.mp oneLine.noDouble
    have solid {found : Option Char} (differs : found ≠ some ' ') :
        ∀ character ∈ found, (character == ' ') = false := by
      intro character isFound
      rw [beq_eq_false_iff_ne]
      rintro rfl
      exact differs isFound
    obtain ⟨piece, others, shape, full, starts⟩ :=
      exists_pieces_of_apart empty apart (solid oneLine.endsSolid)
    have allFull : ∀ part ∈ pieces (· == ' ') text, (!part.isEmpty) = true := by
      rw [shape]
      intro part member
      rcases List.mem_cons.mp member with rfl | later
      · simpa using starts (solid oneLine.startsSolid)
      · rw [Bool.not_eq_true', List.isEmpty_eq_false_iff]
        rintro rfl
        exact full later
    rw [words, pieces_congr spaces, List.filter_eq_self.mpr allFull, joined_pieces]

/-! Joined words. -/

namespace IsWord

variable {word : List Char}

/-- A word is no space anywhere. -/
theorem ne_space
    (isWord : IsWord word) :
    ' ' ∉ word := by
  intro member
  exact Bool.false_ne_true ((isWord.2 ' ' member).symm.trans (by decide))

theorem isOneLine
    (isWord : IsWord word) :
    IsOneLine word where
  onlySpaces := by
    intro character member blank
    rw [isWord.2 character member] at blank
    cases blank
  startsSolid := fun starts => isWord.ne_space (List.mem_of_mem_head? starts)
  endsSolid := fun ends => isWord.ne_space (List.mem_of_mem_getLast? ends)
  noDouble := fun pair => isWord.ne_space (pair.subset (by simp))

/-- A word, a space and a text on one line are on one line. -/
theorem isOneLine_append
    (isWord : IsWord word)
    {rest : List Char}
    (nonempty : rest ≠ [])
    (oneLine : IsOneLine rest) :
    IsOneLine (word ++ ' ' :: rest) where
  onlySpaces := by
    intro character member blank
    rcases List.mem_append.mp member with inWord | inRest
    · rw [isWord.2 character inWord] at blank
      cases blank
    · rcases List.mem_cons.mp inRest with isSpace | later
      · exact isSpace
      · exact oneLine.onlySpaces character later blank
  startsSolid := by
    rw [List.head?_append_of_ne_nil _ isWord.1]
    exact isWord.isOneLine.startsSolid
  endsSolid := by
    rw [List.getLast?_append_of_ne_nil _ (List.cons_ne_nil _ _),
      List.getLast?_cons_of_ne_nil nonempty]
    exact oneLine.endsSolid
  noDouble := by
    rw [not_pair_infix_iff, List.isChain_append, List.isChain_cons]
    refine ⟨not_pair_infix_iff.mp isWord.isOneLine.noDouble, ⟨?_, ?_⟩, ?_⟩
    · rintro next isNext ⟨_, rfl⟩
      exact oneLine.startsSolid isNext
    · exact not_pair_infix_iff.mp oneLine.noDouble
    · rintro last isLast _ _ ⟨rfl, _⟩
      exact isWord.isOneLine.endsSolid isLast

end IsWord

/-- Words joined by spaces are on one line. -/
theorem isOneLine_joined
    {parts : List (List Char)}
    (areWords : ∀ part ∈ parts, IsWord part) :
    IsOneLine (joined [' '] parts) := by
  induction parts using joined.induct with
  | case1 =>
      exact ⟨by simp [joined], by simp [joined], by simp [joined], by simp [joined]⟩
  | case2 part =>
      exact (areWords part (by simp)).isOneLine
  | case3 part next others inductionHypothesis =>
      have later := inductionHypothesis fun other member => areWords other (by simp [member])
      have nonempty : joined [' '] (next :: others) ≠ [] := by
        cases others with
        | nil =>
            exact (areWords next (by simp)).1
        | cons =>
            simp [joined]
      rw [joined, List.append_assoc]
      exact (areWords part (by simp)).isOneLine_append nonempty later

/-- Without its spaces, a joined text is its words. -/
theorem filter_joined
    {parts : List (List Char)}
    (areWords : ∀ part ∈ parts, IsWord part) :
    (joined [' '] parts).filter (!isBlank ·) = parts.flatten := by
  have solid {part : List Char} (isWord : IsWord part) :
      part.filter (!isBlank ·) = part :=
    List.filter_eq_self.mpr fun character member => by simp [isWord.2 character member]
  have space : [' '].filter (!isBlank ·) = [] := by
    decide
  induction parts using joined.induct with
  | case1 =>
      rfl
  | case2 part =>
      rw [joined, solid (areWords part (by simp))]
      simp
  | case3 part next others inductionHypothesis =>
      have later := inductionHypothesis fun other member => areWords other (by simp [member])
      rw [joined, List.filter_append, List.filter_append, space, List.append_nil, later,
        solid (areWords part (by simp))]
      rfl

end RpcStubs.Text
