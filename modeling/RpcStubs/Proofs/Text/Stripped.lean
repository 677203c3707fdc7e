import Mathlib.Data.List.DropRight
import RpcStubs.Proofs.Source.Layout
namespace RpcStubs.Text

/-!
# Texts without some characters at their ends

Trimming drops the blanks at the ends of a text, and other characters are dropped there alike.
What is left is the one bare part of the text that has only dropped characters around it.
-/

/-- A text that neither starts nor ends with an edge character. -/
structure IsBare (isEdge : Char → Bool) (text : List Char) : Prop where
  start : ∀ character ∈ text.head?, isEdge character = false
  finish : ∀ character ∈ text.getLast?, isEdge character = false

instance (isEdge : Char → Bool) (text : List Char) : Decidable (IsBare isEdge text) :=
  decidable_of_iff
    (text.head?.all (!isEdge ·) = true ∧ text.getLast?.all (!isEdge ·) = true) (by
      simp only [Option.all_eq_true, Bool.not_eq_true']
      exact ⟨fun ends => ⟨ends.1, ends.2⟩, fun bare => ⟨bare.start, bare.finish⟩⟩)

/-- What is left of a text when the edge characters at its ends are dropped. -/
def stripped (isEdge : Char → Bool) (text : List Char) : List Char :=
  (text.dropWhile isEdge).rdropWhile isEdge

variable {isEdge : Char → Bool}

theorem not_mem_of_edges
    {text : List Char}
    (edges : ∀ character ∈ text, isEdge character = true)
    {character : Char}
    (inner : isEdge character = false) :
    character ∉ text := by
  intro member
  simp [edges character member] at inner

theorem dropWhile_of_start
    {text : List Char}
    (start : ∀ character ∈ text.head?, isEdge character = false) :
    text.dropWhile isEdge = text := by
  cases text with
  | nil =>
      rfl
  | cons first rest =>
      rw [List.dropWhile_cons_of_neg (by simp [start first rfl])]

/-- A bare text is what is left of itself between edge characters. -/
theorem stripped_append
    {before inner after : List Char}
    (beforeEdges : ∀ character ∈ before, isEdge character = true)
    (bare : IsBare isEdge inner)
    (afterEdges : ∀ character ∈ after, isEdge character = true) :
    stripped isEdge (before ++ (inner ++ after)) = inner := by
  have afterDropped : (inner ++ after).rdropWhile isEdge = inner := by
    rw [List.rdropWhile, List.reverse_append,
      List.dropWhile_append_of_pos (by simpa using afterEdges),
      dropWhile_of_start (by simpa using bare.finish), List.reverse_reverse]
  rw [stripped, List.dropWhile_append_of_pos beforeEdges]
  cases inner with
  | nil =>
      rw [List.nil_append, List.dropWhile_eq_nil_iff.mpr afterEdges, List.rdropWhile_nil]
  | cons first rest =>
      rw [dropWhile_of_start (by simpa using bare.start), afterDropped]

/-- A stripped text is bare. -/
theorem isBare_stripped
    (text : List Char) :
    IsBare isEdge (stripped isEdge text) where
  start := by
    intro first isFirst
    obtain ⟨later, shape⟩ := List.rdropWhile_prefix isEdge (text.dropWhile isEdge)
    have dropped : (text.dropWhile isEdge).head? = some first := by
      rw [← shape, List.head?_append, ← stripped, Option.mem_def.mp isFirst]
      rfl
    simpa [dropped] using List.head?_dropWhile_not isEdge text
  finish := by
    intro last isLast
    obtain ⟨nonempty, rfl⟩ := List.mem_getLast?_eq_getLast isLast
    exact Bool.eq_false_iff.mpr (List.rdropWhile_last_not _ _ nonempty)

/-- What is left of a text is the bare part of it that has only edge characters around it. -/
theorem stripped_eq_iff
    {text inner : List Char} :
    stripped isEdge text = inner ↔
      ∃ before after,
        text = before ++ (inner ++ after) ∧
          (∀ character ∈ before, isEdge character = true) ∧
          IsBare isEdge inner ∧
          ∀ character ∈ after, isEdge character = true := by
  constructor
  · rintro rfl
    refine
      ⟨text.takeWhile isEdge, (text.dropWhile isEdge).rtakeWhile isEdge, ?_,
        fun _ member => List.mem_takeWhile_imp member, isBare_stripped text,
        fun _ member => List.mem_rtakeWhile_imp member⟩
    rw [stripped, List.rdropWhile_append_rtakeWhile, List.takeWhile_append_dropWhile]
  · rintro ⟨before, after, rfl, beforeEdges, bare, afterEdges⟩
    exact stripped_append beforeEdges bare afterEdges

theorem trimEnd_eq_rdropWhile
    (text : List Char) :
    trimEnd text = text.rdropWhile isBlank := by
  induction text using List.reverseRecOn with
  | nil =>
      rfl
  | append_singleton front last inductionHypothesis =>
      cases blank : isBlank last with
      | true =>
          rw [trimEnd_append_blank blank, inductionHypothesis,
            List.rdropWhile_concat_pos _ _ _ blank]
      | false =>
          rw [trimEnd_append_solid blank, List.rdropWhile_concat_neg _ _ _ (by simp [blank])]

theorem trim_eq_stripped
    (text : List Char) :
    trim text = stripped isBlank text :=
  trimEnd_eq_rdropWhile _

/-- A blank at the end makes no difference to a trimmed text. -/
theorem trim_append_blank
    {character : Char}
    (blank : isBlank character = true)
    (text : List Char) :
    trim (text ++ [character]) = trim text := by
  obtain ⟨before, after, shape, beforeBlank, bare, afterBlank⟩ :=
    stripped_eq_iff.mp (trim_eq_stripped text).symm
  rw [trim_eq_stripped, stripped_eq_iff]
  refine ⟨before, after ++ [character], ?_, beforeBlank, bare, ?_⟩
  · simpa using congrArg (· ++ [character]) shape
  · simpa [or_imp, forall_and] using ⟨afterBlank, blank⟩

end RpcStubs.Text
