import RpcStubs.Proofs.Text.Words
import RpcStubs.Summary
namespace RpcStubs.Summary

open Text

/-!
# Summaries in comments

What a summary is made of.  It is one line of words, has plain punctuation only, and nowhere ends
a block comment; apart from blanks it says what the text says.  Each pass keeps what the passes
before it have established, so that a summary is its own summary.
-/

/-- The typographic quotes and dashes, each with its plain form. -/
def typographic : List (Char × Char) := [
  ('\u2018', '\x27'), ('\u2019', '\x27'), ('\u201C', '\x22'), ('\u201D', '\x22'),
  ('\u2013', '-'), ('\u2014', '-')]

/-! Punctuation. -/

/-- Characters that are not typographic stay as they are. -/
theorem plain_of_ne
    {character : Char}
    (differs : ∀ pair ∈ typographic, pair.1 ≠ character) :
    plain character = character := by
  have fresh : character ∉ typographic.map (·.1) := by
    intro member
    obtain ⟨pair, isPair, same⟩ := List.mem_map.mp member
    exact differs pair isPair same
  unfold plain
  split
  case h_7 =>
    rfl
  all_goals exact (fresh (by decide)).elim

/-- A character stays as it is, or is typographic and gets its plain form. -/
theorem plain_cases
    (character : Char) :
    (plain character = character ∧ ∀ pair ∈ typographic, pair.1 ≠ character) ∨
      ∃ pair ∈ typographic, pair.1 = character ∧ plain character = pair.2 := by
  by_cases differs : ∀ pair ∈ typographic, pair.1 ≠ character
  · exact .inl ⟨plain_of_ne differs, differs⟩
  · push Not at differs
    obtain ⟨pair, member, rfl⟩ := differs
    have replaced : ∀ pair ∈ typographic, plain pair.1 = pair.2 := by
      decide
    exact .inr ⟨pair, member, rfl, replaced pair member⟩

/-- Characters are replaced by their plain forms if they have any. -/
theorem plain_eq
    (character : Char) :
    plain character = (typographic.lookup character).getD character := by
  rcases plain_cases character with ⟨same, differs⟩ | ⟨pair, member, rfl, isPlain⟩
  · have none : typographic.lookup character = none := by
      rw [List.lookup_eq_none_iff]
      intro pair member
      rw [bne_iff_ne]
      exact (differs pair member).symm
    rw [same, none, Option.getD_none]
  · have found : ∀ pair ∈ typographic, typographic.lookup pair.1 = some pair.2 := by
      decide
    rw [isPlain, found pair member, Option.getD_some]

theorem plain_ne
    (character : Char) :
    ∀ pair ∈ typographic, pair.1 ≠ plain character := by
  rcases plain_cases character with ⟨same, differs⟩ | ⟨pair, member, _, isPlain⟩
  · rw [same]
    exact differs
  · have apart : ∀ pair ∈ typographic, ∀ other ∈ typographic, other.1 ≠ pair.2 := by
      decide
    rw [isPlain]
    exact apart pair member

theorem isBlank_plain
    (character : Char) :
    isBlank (plain character) = isBlank character := by
  rcases plain_cases character with ⟨same, _⟩ | ⟨pair, member, rfl, isPlain⟩
  · rw [same]
  · have solid : ∀ pair ∈ typographic, isBlank pair.2 = isBlank pair.1 := by
      decide
    rw [isPlain]
    exact solid pair member

/-! Ends of comments. -/

theorem defuse_mark
    (rest : List Char) :
    defuse ('*' :: '/' :: rest) = '*' :: ' ' :: '/' :: defuse rest := by
  rw [defuse]

/-- A character that starts no mark is kept. -/
theorem defuse_cons
    {character : Char}
    {rest : List Char}
    (noMark : ∀ later, character = '*' → rest = '/' :: later → False) :
    defuse (character :: rest) = character :: defuse rest := by
  rw [defuse]
  exact noMark

theorem head?_defuse
    (text : List Char) :
    (defuse text).head? = text.head? := by
  cases text using defuse.fun_cases with
  | case1 =>
      rfl
  | case2 rest =>
      rw [defuse_mark, List.head?_cons, List.head?_cons]
  | case3 character rest noMark =>
      rw [defuse_cons noMark, List.head?_cons, List.head?_cons]

theorem getLast?_defuse
    (text : List Char) :
    (defuse text).getLast? = text.getLast? := by
  induction text using defuse.induct with
  | case1 =>
      rfl
  | case2 rest inductionHypothesis =>
      simp only [defuse_mark, List.getLast?_cons, inductionHypothesis, Option.getD_some]
  | case3 character rest noMark inductionHypothesis =>
      rw [defuse_cons noMark, List.getLast?_cons, List.getLast?_cons, inductionHypothesis]

/-- Nothing but spaces is written into a text. -/
theorem mem_defuse
    {text : List Char}
    {character : Char}
    (member : character ∈ defuse text) :
    character ∈ text ∨ character = ' ' := by
  induction text using defuse.induct with
  | case1 =>
      exact .inl member
  | case2 rest inductionHypothesis =>
      rw [defuse_mark] at member
      simp only [List.mem_cons] at member ⊢
      tauto
  | case3 first rest noMark inductionHypothesis =>
      rw [defuse_cons noMark] at member
      simp only [List.mem_cons] at member ⊢
      tauto

theorem filter_defuse
    (text : List Char) :
    (defuse text).filter (!isBlank ·) = text.filter (!isBlank ·) := by
  induction text using defuse.induct with
  | case1 =>
      rfl
  | case2 rest inductionHypothesis =>
      have space : isBlank ' ' = true := by
        decide
      rw [defuse_mark]
      simp [List.filter_cons, space, inductionHypothesis]
  | case3 first rest noMark inductionHypothesis =>
      rw [defuse_cons noMark, List.filter_cons, List.filter_cons, inductionHypothesis]

/-- The space that is written into a mark stands between two characters that are none. -/
theorem defuse_noDouble
    {text : List Char}
    (noDouble : ¬[' ', ' '] <:+: text) :
    ¬[' ', ' '] <:+: defuse text := by
  rw [not_pair_infix_iff] at noDouble ⊢
  induction text using defuse.induct with
  | case1 =>
      exact noDouble
  | case2 rest inductionHypothesis =>
      rw [List.isChain_cons_cons, List.isChain_cons] at noDouble
      rw [defuse_mark, List.isChain_cons_cons, List.isChain_cons_cons, List.isChain_cons]
      exact ⟨by decide, by decide, by simp, inductionHypothesis noDouble.2.2⟩
  | case3 character rest noMark inductionHypothesis =>
      rw [List.isChain_cons] at noDouble
      rw [defuse_cons noMark, List.isChain_cons, head?_defuse]
      exact ⟨noDouble.1, inductionHypothesis noDouble.2⟩

/-- No mark is left, and none arises from the characters around one. -/
theorem defuse_safe
    (text : List Char) :
    ¬['*', '/'] <:+: defuse text := by
  rw [not_pair_infix_iff]
  induction text using defuse.induct with
  | case1 =>
      exact .nil
  | case2 rest inductionHypothesis =>
      rw [defuse_mark, List.isChain_cons_cons, List.isChain_cons_cons, List.isChain_cons]
      exact ⟨by decide, by decide, by simp, inductionHypothesis⟩
  | case3 character rest noMark inductionHypothesis =>
      rw [defuse_cons noMark, List.isChain_cons, head?_defuse]
      refine ⟨?_, inductionHypothesis⟩
      rintro next isNext ⟨isStar, rfl⟩
      obtain ⟨later, shape⟩ := List.head?_eq_some_iff.mp isNext
      exact noMark later isStar shape

/-- A text without marks is left as it is. -/
theorem defuse_of_safe
    {text : List Char}
    (safe : ¬['*', '/'] <:+: text) :
    defuse text = text := by
  rw [not_pair_infix_iff] at safe
  induction text using defuse.induct with
  | case1 =>
      rfl
  | case2 rest inductionHypothesis =>
      rw [List.isChain_cons_cons] at safe
      exact (safe.1 ⟨rfl, rfl⟩).elim
  | case3 character rest noMark inductionHypothesis =>
      rw [List.isChain_cons] at safe
      rw [defuse_cons noMark, inductionHypothesis safe.2]

/-- A text on one line stays on one line. -/
theorem isOneLine_defuse
    {text : List Char}
    (oneLine : IsOneLine text) :
    IsOneLine (defuse text) where
  onlySpaces := by
    intro character member blank
    rcases mem_defuse member with before | isSpace
    · exact oneLine.onlySpaces character before blank
    · exact isSpace
  startsSolid := by
    rw [head?_defuse]
    exact oneLine.startsSolid
  endsSolid := by
    rw [getLast?_defuse]
    exact oneLine.endsSolid
  noDouble := defuse_noDouble oneLine.noDouble

/-! Summaries. -/

theorem isOneLine_flatten
    (text : List Char) :
    IsOneLine (flatten text) :=
  isOneLine_defuse (isOneLine_joined fun _ member => isWord_of_mem_words member)

/-- A summary says what the text says, in plain punctuation. -/
theorem filter_flatten
    (text : List Char) :
    (flatten text).filter (!isBlank ·) = (text.filter (!isBlank ·)).map plain := by
  have solid :
      (fun character => !isBlank character) ∘ plain = fun character => !isBlank character :=
    funext fun character => congrArg not (isBlank_plain character)
  rw [flatten, filter_defuse, filter_joined fun _ member => isWord_of_mem_words member,
    flatten_words, List.filter_map, solid]

/-- No character of a summary is typographic. -/
theorem ne_of_mem_flatten
    {text : List Char}
    {character : Char}
    (member : character ∈ flatten text) :
    ∀ pair ∈ typographic, pair.1 ≠ character := by
  cases blank : isBlank character with
  | true =>
      have solid : ∀ pair ∈ typographic, isBlank pair.1 = false := by
        decide
      rintro pair isPair rfl
      rw [solid pair isPair] at blank
      cases blank
  | false =>
      have kept : character ∈ (flatten text).filter (!isBlank ·) :=
        List.mem_filter.mpr ⟨member, by simp [blank]⟩
      rw [filter_flatten] at kept
      obtain ⟨original, _, rfl⟩ := List.mem_map.mp kept
      exact plain_ne original

/-- A summary is its own summary. -/
theorem flatten_flatten
    (text : List Char) :
    flatten (flatten text) = flatten text := by
  have isPlain : (flatten text).map plain = flatten text := by
    rw [List.map_congr_left fun _ member => plain_of_ne (ne_of_mem_flatten member), List.map_id']
  have safe : ¬['*', '/'] <:+: flatten text :=
    defuse_safe _
  calc
    flatten (flatten text) = defuse (joined [' '] (words (flatten text))) := by
      rw [flatten.eq_def (flatten text), isPlain]
    _ = defuse (flatten text) := by
      rw [(isOneLine_flatten text).joined_words]
    _ = flatten text :=
      defuse_of_safe safe

/--
A summary is safe in a comment, and stable.

It is on one line: it has no blank but single spaces inside it.  It does not end a block comment,
and none of its characters is typographic.  Without blanks it is the text without blanks, with
plain forms in place of typographic characters; and it is its own summary.
-/
theorem ofText_safe
    (text : String) :
    IsOneLine (ofText text).toList ∧
      ¬['*', '/'] <:+: (ofText text).toList ∧
      (∀ pair ∈ typographic, pair.1 ∉ (ofText text).toList) ∧
      (ofText text).toList.filter (!isBlank ·) =
        (text.toList.filter (!isBlank ·)).map
          (fun character => (typographic.lookup character).getD character) ∧
      ofText (ofText text) = ofText text := by
  simp only [ofText, String.toList_ofList]
  refine ⟨isOneLine_flatten _, defuse_safe _, ?_, ?_, ?_⟩
  · intro pair isPair member
    exact ne_of_mem_flatten member pair isPair rfl
  · rw [filter_flatten]
    exact List.map_congr_left fun character _ => plain_eq character
  · rw [flatten_flatten]

/-- Marks that overlap are taken apart without new ones, and quotes become plain. -/
example :
    ofText " It\u2019s\n\u201C**//\u201D \u2014 */*/ " = "It\x27s \x22** //\x22 - * /* /" := by
  decide

end RpcStubs.Summary
