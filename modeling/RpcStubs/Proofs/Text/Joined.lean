import RpcStubs.Proofs.Text.Pieces
namespace RpcStubs.Text

/-!
# Joined texts

What a joined text consists of.  Joining lists one after the other joins what they are joined
to, and joining what a text is cut into gives the text back.  The ends of a joined text are the
ends of its first and its last piece.
-/

theorem join_cons
    (separator piece : String)
    {others : List String}
    (nonempty : others ≠ []) :
    join separator (piece :: others) = piece ++ separator ++ join separator others := by
  obtain ⟨next, later, rfl⟩ := List.exists_cons_of_ne_nil nonempty
  rfl

theorem join_append
    (separator : String)
    {first second : List String}
    (firstNonempty : first ≠ [])
    (secondNonempty : second ≠ []) :
    join separator (first ++ second) =
      join separator first ++ separator ++ join separator second := by
  induction first with
  | nil =>
      exact (firstNonempty rfl).elim
  | cons piece rest inductionHypothesis =>
      by_cases last : rest = []
      · subst last
        exact join_cons separator piece secondNonempty
      · rw [List.cons_append, join_cons separator piece (by simp [last]),
          inductionHypothesis last, join_cons separator piece last]
        simp [String.append_assoc]

/-- What is joined behind the same front is told by the texts. -/
theorem join_append_right_inj
    (separator : String)
    (front : List String)
    {first second : List String}
    (firstNonempty : first ≠ [])
    (secondNonempty : second ≠ []) :
    join separator (front ++ first) = join separator (front ++ second) ↔
      join separator first = join separator second := by
  by_cases empty : front = []
  · subst empty
    rfl
  · rw [join_append separator empty firstNonempty, join_append separator empty secondNonempty,
      String.append_right_inj]

/-- A joined text may be joined with others, or what it is joined to. -/
theorem join_joined
    (separator : String)
    (before : List String)
    {inner : List String}
    (nonempty : inner ≠ [])
    (after : List String) :
    join separator (before ++ join separator inner :: after) =
      join separator (before ++ (inner ++ after)) := by
  rw [join_append_right_inj separator before (by simp) (by simp [nonempty])]
  by_cases last : after = []
  · subst last
    rw [List.append_nil, join]
  · rw [join_cons separator _ last, join_append separator nonempty last]

theorem toList_join
    (separator : String)
    (parts : List String) :
    (join separator parts).toList = joined separator.toList (parts.map String.toList) := by
  induction parts with
  | nil =>
      rfl
  | cons part rest inductionHypothesis =>
      cases rest with
      | nil =>
          rfl
      | cons next others =>
          rw [join, String.toList_append, String.toList_append, inductionHypothesis]
          rfl

/-- The pieces of a text give it back. -/
theorem joined_pieces
    (mark : Char)
    (text : List Char) :
    joined [mark] (pieces (· == mark) text) = text := by
  induction text with
  | nil =>
      rfl
  | cons character rest inductionHypothesis =>
      cases isOne : character == mark with
      | true =>
          obtain rfl := beq_iff_eq.mp isOne
          rw [@pieces_cons_of_mark (· == character) character isOne]
          obtain ⟨piece, others, shape⟩ :=
            List.exists_cons_of_ne_nil (pieces_ne_nil (· == character) rest)
          rw [shape] at inductionHypothesis ⊢
          rw [joined, inductionHypothesis]
          rfl
      | false =>
          obtain ⟨piece, others, restShape, wholeShape⟩ :=
            @exists_pieces_cons (· == mark) character isOne rest
          rw [restShape] at inductionHypothesis
          rw [wholeShape]
          cases others with
          | nil =>
              rw [joined] at inductionHypothesis ⊢
              rw [inductionHypothesis]
          | cons next later =>
              rw [joined] at inductionHypothesis ⊢
              rw [List.cons_append, List.cons_append, inductionHypothesis]

/-- A text has two pieces exactly when there is one mark between them. -/
theorem pieces_eq_pair_iff
    {mark : Char}
    {text first second : List Char} :
    pieces (· == mark) text = [first, second] ↔
      text = first ++ mark :: second ∧ mark ∉ first ∧ mark ∉ second := by
  constructor
  · intro two
    have whole := joined_pieces mark text
    have free : ∀ piece ∈ [first, second], mark ∉ piece := by
      intro piece member marked
      rw [← two] at member
      simpa using free_of_mem_pieces member mark marked
    rw [two, joined, joined] at whole
    simp only [List.append_assoc, List.singleton_append] at whole
    exact ⟨whole.symm, free first (by simp), free second (by simp)⟩
  · rintro ⟨rfl, firstFree, secondFree⟩
    rw [pieces_append (· == mark) (beq_self_eq_true mark), pieces_of_not_mem firstFree,
      pieces_of_not_mem secondFree]
    rfl

theorem segments_ne_nil
    (mark : Char)
    (text : String) :
    segments mark text ≠ [] := by
  rw [segments, ne_eq, List.map_eq_nil_iff]
  exact pieces_ne_nil _ _

/-- The segments of a joined text are those of the joined ones. -/
theorem segments_join_eq_flatMap
    {texts : List String}
    (nonempty : texts ≠ []) :
    segments '/' (join "/" texts) = texts.flatMap (segments '/') := by
  induction texts with
  | nil =>
      exact (nonempty rfl).elim
  | cons text rest inductionHypothesis =>
      by_cases last : rest = []
      · subst last
        simp [join]
      · have cut := segments_append '/' text (join "/" rest)
        rw [join_cons "/" text last, List.flatMap_cons, ← inductionHypothesis last]
        exact cut

/-- The segments of a path give it back. -/
theorem join_segments
    (text : String) :
    join "/" (segments '/' text) = text := by
  apply String.toList_inj.mp
  rw [toList_join, segments, List.map_map]
  have same : String.toList ∘ String.ofList = id := by
    funext piece
    simp
  rw [same, List.map_id]
  exact joined_pieces '/' text.toList

/-- Names without slashes are told by the text that they are joined to. -/
theorem join_injective
    {first second : List String}
    (firstNonempty : first ≠ [])
    (secondNonempty : second ≠ [])
    (firstFree : ∀ name ∈ first, '/' ∉ name.toList)
    (secondFree : ∀ name ∈ second, '/' ∉ name.toList)
    (same : join "/" first = join "/" second) :
    first = second := by
  rw [← segments_join firstNonempty firstFree, same, segments_join secondNonempty secondFree]

/-- A joined text starts like its first piece. -/
theorem head?_join
    (separator : String)
    {first : String}
    (nonempty : first ≠ "")
    (rest : List String) :
    (join separator (first :: rest)).toList.head? = first.toList.head? := by
  by_cases last : rest = []
  · subst last
    rfl
  · obtain ⟨character, later, shape⟩ :=
      List.exists_cons_of_ne_nil fun empty => nonempty (String.toList_inj.mp empty)
    rw [join_cons separator first last, String.append_assoc, String.toList_append, shape]
    rfl

theorem join_ne_empty
    (separator : String)
    {first : String}
    (nonempty : first ≠ "")
    (rest : List String) :
    join separator (first :: rest) ≠ "" := by
  intro empty
  have starts := head?_join separator nonempty rest
  rw [empty, eq_comm] at starts
  exact nonempty (String.toList_eq_nil_iff.mp (List.head?_eq_none_iff.mp starts))

/-- A joined text ends like its last piece. -/
theorem getLast?_join
    (separator : String)
    (front : List String)
    {last : String}
    (nonempty : last ≠ "") :
    (join separator (front ++ [last])).toList.getLast? = last.toList.getLast? := by
  by_cases only : front = []
  · subst only
    rfl
  · have some := List.getLast?_eq_some_getLast fun empty =>
      nonempty (String.toList_inj.mp empty)
    rw [join_append separator only (by simp), String.toList_append, List.getLast?_append, join,
      some, Option.some_or]

end RpcStubs.Text
