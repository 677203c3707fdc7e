import RpcStubs.ImportPath
import RpcStubs.Proofs.Files.Canonical
namespace RpcStubs.ImportPath

/-!
# Elements of import paths

An import path is joined from elements without slashes at their ends, and those that are empty
do not count.  An element that is itself joined from pieces loses the empty pieces at its end,
and none in its middle.
-/

/-- An element without the slashes at its ends. -/
def trimmed (part : String) : String :=
  String.ofList (trimSlashes part.toList)

/-- The elements that count, without the slashes at their ends. -/
def elements (parts : List String) : List String :=
  (parts.map trimmed).filter (· ≠ "")

theorem elements_append
    (first second : List String) :
    elements (first ++ second) = elements first ++ elements second := by
  simp [elements]

theorem ne_empty_of_mem_elements
    {parts : List String}
    {element : String}
    (member : element ∈ elements parts) :
    element ≠ "" := by
  simpa using (List.mem_filter.mp member).2

/-- An import path is joined from the elements that count. -/
theorem join_eq
    (parts : List String) :
    join parts = Text.join "/" (elements parts) := by
  have sameTexts : String.toList ∘ trimmed = fun part => trimSlashes part.toList := by
    funext part
    simp [trimmed]
  have sameChoice :
      ((fun text : List Char => !text.isEmpty) ∘ fun part : String => trimSlashes part.toList) =
        (fun part => decide (part ≠ "")) ∘ trimmed := by
    funext part
    cases shape : trimSlashes part.toList <;> simp [trimmed, shape]
  have sameElements :
      (parts.map fun part => trimSlashes part.toList).filter (!·.isEmpty) =
        (elements parts).map String.toList := by
    rw [elements, List.filter_map, List.filter_map, List.map_map, sameTexts, sameChoice]
  apply String.toList_inj.mp
  rw [Text.toList_join, join, String.toList_ofList, sameElements]
  rfl

/-- An import path is continued by one more element that counts. -/
theorem join_snoc
    (parts : List String)
    {part : String}
    (counts : trimmed part ≠ "") :
    join (parts ++ [part]) =
      Text.join "/" ([join parts].filter (· ≠ "") ++ [trimmed part]) := by
  have last : elements [part] = [trimmed part] := by
    simp [elements, counts]
  rw [join_eq, join_eq, elements_append, last]
  cases shape : elements parts with
  | nil =>
      simp [Text.join]
  | cons first rest =>
      have member : first ∈ elements parts := by simp [shape]
      have isFirst := ne_empty_of_mem_elements member
      rw [List.filter_cons_of_pos (by simpa using Text.join_ne_empty "/" isFirst rest),
        List.filter_nil, Text.join_append "/" (List.cons_ne_nil first rest) (by simp),
        Text.join_append "/" (List.cons_ne_nil _ _) (by simp)]
      rfl

/-- Trimming takes off the slashes behind a text without slashes at its ends. -/
theorem trimSlashes_append
    {text : List Char}
    (front : text.head? ≠ some '/')
    (back : text.getLast? ≠ some '/')
    (count : Nat)
    (nonempty : text ≠ []) :
    trimSlashes (text ++ List.replicate count '/') = text := by
  have whole : (text ++ List.replicate count '/').dropWhile (· == '/') =
      text ++ List.replicate count '/' := by
    obtain ⟨first, rest, rfl⟩ := List.exists_cons_of_ne_nil nonempty
    rw [List.cons_append, List.dropWhile_cons_of_neg]
    simpa using front
  have ending : text.reverse.dropWhile (· == '/') = text.reverse := by
    rw [← List.head?_reverse] at back
    cases shape : text.reverse with
    | nil =>
        rfl
    | cons last others =>
        rw [List.dropWhile_cons_of_neg]
        simpa [shape] using back
  rw [trimSlashes, whole, List.reverse_append, List.reverse_replicate,
    List.dropWhile_append_of_pos, ending, List.reverse_reverse]
  intro character member
  simp [List.eq_of_mem_replicate member]

/-- Empty pieces at the end of a joined text are slashes there. -/
theorem toList_join_replicate
    {pieces : List String}
    (nonempty : pieces ≠ [])
    (count : Nat) :
    (Text.join "/" (pieces ++ List.replicate count "")).toList =
      (Text.join "/" pieces).toList ++ List.replicate count '/' := by
  induction count with
  | zero =>
      simp
  | succ count inductionHypothesis =>
      rw [List.replicate_succ', ← List.append_assoc,
        Text.join_append "/" (by simp [nonempty]) (by simp), String.toList_append,
        String.toList_append, inductionHypothesis, List.replicate_succ', List.append_assoc,
        List.append_assoc]
      rfl

/-- Trimming a joined text takes off the empty pieces at its end. -/
theorem trimmed_join
    {pieces : List String}
    (nonempty : pieces ≠ [])
    (free : ∀ piece ∈ pieces, '/' ∉ piece.toList)
    (front : pieces.head? ≠ some "")
    (back : pieces.getLast? ≠ some "")
    (count : Nat) :
    trimmed (Text.join "/" (pieces ++ List.replicate count "")) = Text.join "/" pieces := by
  have starts : (Text.join "/" pieces).toList.head? ≠ some '/' := by
    obtain ⟨first, rest, rfl⟩ := List.exists_cons_of_ne_nil nonempty
    rw [Text.head?_join "/" (by simpa using front)]
    exact fun slash => free first (by simp) (List.mem_of_head? slash)
  have ends : (Text.join "/" pieces).toList.getLast? ≠ some '/' := by
    obtain ⟨others, last, rfl⟩ := (List.eq_nil_or_concat pieces).resolve_left nonempty
    rw [List.concat_eq_append] at back free ⊢
    rw [Text.getLast?_join "/" others (by simpa using back)]
    exact fun slash => free last (by simp) (List.mem_of_getLast? slash)
  have solid : (Text.join "/" pieces).toList ≠ [] := by
    obtain ⟨first, rest, rfl⟩ := List.exists_cons_of_ne_nil nonempty
    rw [ne_eq, String.toList_eq_nil_iff]
    exact Text.join_ne_empty "/" (by simpa using front) rest
  rw [trimmed, toList_join_replicate nonempty, trimSlashes_append starts ends count solid,
    String.ofList_toList]

end RpcStubs.ImportPath
