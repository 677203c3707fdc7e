import RpcStubs.Proofs.Route.Grammar
namespace RpcStubs.Route

open Text

/-!
# Identifiers of routes

What the names of methods and constants are made of.  The identifier of a segment is read from
the left: separators are left out, and the character that starts a word is in its capital form.
So it is a capital letter followed by letters and digits, keeps every character that is no
separator up to its case, and does not depend on which separators stand between words.
-/

/-- A name that is visible outside its package: a capital letter, then letters and digits. -/
def IsExported (name : List Char) : Prop :=
  ∃ first rest,
    name = first :: rest ∧
      IsCapital first ∧
      ∀ character ∈ rest, IsLetter character ∨ IsDigit character

/-- Segments that differ in the kinds and the numbers of the separators between words only. -/
inductive Respelled : List Char → List Char → Prop
  | nil :
      Respelled [] []
  | plain {first second : List Char} {character : Char} :
      isSeparator character = false →
      Respelled first second →
      Respelled (character :: first) (character :: second)
  | separators {first second run other : List Char} :
      run ≠ [] →
      (∀ character ∈ run, isSeparator character = true) →
      other ≠ [] →
      (∀ character ∈ other, isSeparator character = true) →
      Respelled first second →
      Respelled (run ++ first) (other ++ second)

/-- The identifier that is read from a text; `start` tells whether a word starts there. -/
def spelled (start : Bool) : List Char → List Char
  | [] => []
  | character :: rest =>
      if isSeparator character then
        spelled true rest
      else
        (if start then capital character else [character]) ++ spelled false rest

theorem spelled_separator
    {character : Char}
    (separates : isSeparator character = true)
    (start : Bool)
    (rest : List Char) :
    spelled start (character :: rest) = spelled true rest := by
  rw [spelled, if_pos separates]

theorem spelled_start
    {character : Char}
    (plain : isSeparator character = false)
    (rest : List Char) :
    spelled true (character :: rest) = capital character ++ spelled false rest := by
  simp [spelled, plain]

theorem spelled_inside
    {character : Char}
    (plain : isSeparator character = false)
    (rest : List Char) :
    spelled false (character :: rest) = character :: spelled false rest := by
  simp [spelled, plain]

/-- The words among some pieces, each with a capital first letter. -/
def capitalizedWords (parts : List (List Char)) : List Char :=
  (parts.filter (!·.isEmpty)).flatMap capitalized

theorem capitalizedWords_empty
    (parts : List (List Char)) :
    capitalizedWords ([] :: parts) = capitalizedWords parts := rfl

theorem capitalizedWords_word
    (character : Char)
    (word : List Char)
    (parts : List (List Char)) :
    capitalizedWords ((character :: word) :: parts) =
      capital character ++ word ++ capitalizedWords parts := rfl

/--
Reading from the left gives the words between separators.

Inside a word, its rest is read as it is; the other pieces are read like at a start.
-/
theorem spelled_eq
    (text : List Char) :
    ∃ piece others,
      pieces isSeparator text = piece :: others ∧
        spelled true text = capitalizedWords (piece :: others) ∧
        spelled false text = piece ++ capitalizedWords others := by
  induction text with
  | nil =>
      exact ⟨[], [], rfl, rfl, rfl⟩
  | cons character rest inductionHypothesis =>
      obtain ⟨piece, others, shape, fromStart, fromInside⟩ := inductionHypothesis
      cases separates : isSeparator character with
      | true =>
          refine ⟨[], piece :: others, ?_, ?_, ?_⟩
          · rw [pieces_cons_of_mark separates, shape]
          · rw [spelled_separator separates, fromStart, capitalizedWords_empty]
          · rw [spelled_separator separates, fromStart, List.nil_append]
      | false =>
          refine ⟨character :: piece, others, ?_, ?_, ?_⟩
          · simp [pieces, separates, shape]
          · rw [spelled_start separates, fromInside, capitalizedWords_word, List.append_assoc]
          · rw [spelled_inside separates, fromInside, List.cons_append]

/-- The identifier of a segment is what is read from it. -/
theorem identifier_eq_spelled
    (segment : List Char) :
    identifier segment = spelled true segment := by
  obtain ⟨piece, others, shape, fromStart, _⟩ := spelled_eq segment
  rw [fromStart, identifier, shape]
  rfl

/-! Characters. -/

/-- Every character of a subject or a method is a letter, a digit or a separator. -/
theorem SpellsName.characters
    {segment : List Char}
    (name : SpellsName segment) :
    ∀ character ∈ segment,
      character.isAlphanum = true ∨ isSeparator character = true := by
  obtain ⟨first, rest, rfl, isFirst, others⟩ := name
  intro character member
  simp only [isAlphanum_iff, isSeparator, Bool.or_eq_true, beq_iff_eq, or_assoc]
  rcases List.mem_cons.mp member with rfl | later
  · exact .inl isFirst
  · exact others character later

theorem not_isSeparator_of_isAlphanum
    {character : Char}
    (alphanum : character.isAlphanum = true) :
    isSeparator character = false := by
  rw [isSeparator, Bool.or_eq_false_iff, beq_eq_false_iff_ne, beq_eq_false_iff_ne]
  constructor
  · rintro rfl
    exact absurd alphanum (by decide)
  · rintro rfl
    exact absurd alphanum (by decide)

section Characters

variable
  {text : List Char}
  (known : ∀ character ∈ text, character.isAlphanum = true ∨ isSeparator character = true)

include known

/-- What is read from a text has letters and digits only. -/
theorem isAlphanum_of_mem_spelled
    (start : Bool) :
    ∀ character ∈ spelled start text, character.isAlphanum = true := by
  induction text generalizing start with
  | nil =>
      simp [spelled]
  | cons character rest inductionHypothesis =>
      have restKnown := inductionHypothesis fun other member => known other (by simp [member])
      rcases known character (by simp) with alphanum | separates
      · have plain := not_isSeparator_of_isAlphanum alphanum
        cases start with
        | true =>
            rw [spelled_start plain, capital_of_ascii (toNat_lt_of_isAlphanum alphanum)]
            intro other member
            rcases List.mem_cons.mp member with rfl | later
            · exact isAlphanum_toUpper alphanum
            · exact restKnown false other later
        | false =>
            rw [spelled_inside plain]
            intro other member
            rcases List.mem_cons.mp member with rfl | later
            · exact alphanum
            · exact restKnown false other later
      · rw [spelled_separator separates]
        exact restKnown true

/-- What is read from a text is the text without separators, up to the case of letters. -/
theorem map_toLower_spelled
    (start : Bool) :
    (spelled start text).map Char.toLower =
      (text.filter (!isSeparator ·)).map Char.toLower := by
  induction text generalizing start with
  | nil =>
      rfl
  | cons character rest inductionHypothesis =>
      have restKnown := inductionHypothesis fun other member => known other (by simp [member])
      rcases known character (by simp) with alphanum | separates
      · have plain := not_isSeparator_of_isAlphanum alphanum
        have ascii := toNat_lt_of_isAlphanum alphanum
        rw [List.filter_cons_of_pos (by simp [plain])]
        cases start with
        | true =>
            rw [spelled_start plain, capital_of_ascii ascii, List.map_append, List.map_singleton,
              toLower_toUpper_of_ascii ascii, restKnown]
            rfl
        | false =>
            rw [spelled_inside plain, List.map_cons, restKnown, List.map_cons]
      · rw [List.filter_cons_of_neg (by simp [separates]), spelled_separator separates, restKnown]

end Characters

/-! Exported names. -/

/-- The identifier of a subject or a method is an exported name. -/
theorem SpellsName.isExported
    {segment : List Char}
    (name : SpellsName segment) :
    IsExported (identifier segment) := by
  have known := name.characters
  obtain ⟨first, rest, rfl, isFirst, _⟩ := name
  have alpha := isAlpha_iff.mpr isFirst
  have alphanum := isAlphanum_iff.mpr (.inl isFirst)
  refine ⟨first.toUpper, spelled false rest, ?_, isUpper_iff.mp (isUpper_toUpper alpha), ?_⟩
  · rw [identifier_eq_spelled, spelled_start (not_isSeparator_of_isAlphanum alphanum),
      capital_of_ascii (toNat_lt_of_isAlphanum alphanum), List.singleton_append]
  · intro character member
    have restKnown := fun other member => known other (List.mem_cons_of_mem first member)
    exact isAlphanum_iff.mp (isAlphanum_of_mem_spelled restKnown false character member)

theorem IsExported.append
    {first second : List Char}
    (isFirst : IsExported first)
    (isSecond : IsExported second) :
    IsExported (first ++ second) := by
  obtain ⟨start, rest, rfl, capital, others⟩ := isFirst
  obtain ⟨next, later, rfl, nextCapital, lastOthers⟩ := isSecond
  refine ⟨start, rest ++ next :: later, rfl, capital, fun character member => ?_⟩
  rcases List.mem_append.mp member with inFirst | inSecond
  · exact others character inFirst
  · rcases List.mem_cons.mp inSecond with rfl | inLater
    · exact .inl (.inl nextCapital)
    · exact lastOthers character inLater

/-- Without separators, nothing changes inside a word. -/
theorem spelled_false_of_free
    {text : List Char}
    (free : ∀ character ∈ text, isSeparator character = false) :
    spelled false text = text := by
  induction text with
  | nil =>
      rfl
  | cons character rest inductionHypothesis =>
      rw [spelled_inside (free character (by simp)),
        inductionHypothesis fun other member => free other (by simp [member])]

/-- An exported name is its own identifier. -/
theorem IsExported.identifier_eq
    {name : List Char}
    (exported : IsExported name) :
    identifier name = name := by
  obtain ⟨first, rest, rfl, capital, others⟩ := exported
  have alphanum : first.isAlphanum = true := isAlphanum_iff.mpr (.inl (.inl capital))
  have free : ∀ character ∈ rest, isSeparator character = false :=
    fun character member =>
      not_isSeparator_of_isAlphanum (isAlphanum_iff.mpr (others character member))
  rw [identifier_eq_spelled, spelled_start (not_isSeparator_of_isAlphanum alphanum),
    capital_of_ascii (toNat_lt_of_isAlphanum alphanum),
    toUpper_of_isUpper (isUpper_iff.mpr capital), spelled_false_of_free free,
    List.singleton_append]

/-! Other separators. -/

namespace Respelled

variable {first second : List Char}

theorem refl
    (segment : List Char) :
    Respelled segment segment := by
  induction segment with
  | nil =>
      exact .nil
  | cons character rest inductionHypothesis =>
      cases separates : isSeparator character with
      | true =>
          have only : ∀ other ∈ [character], isSeparator other = true := by
            simpa using separates
          exact .separators (by simp) only (by simp) only inductionHypothesis
      | false =>
          exact .plain separates inductionHypothesis

/-- A run of separators is passed over, and a word starts behind it. -/
theorem spelled_run
    {run : List Char}
    (nonempty : run ≠ [])
    (separate : ∀ character ∈ run, isSeparator character = true)
    (start : Bool)
    (rest : List Char) :
    spelled start (run ++ rest) = spelled true rest := by
  induction run generalizing start with
  | nil =>
      exact (nonempty rfl).elim
  | cons character others inductionHypothesis =>
      rw [List.cons_append, spelled_separator (separate character (by simp))]
      by_cases last : others = []
      · rw [last, List.nil_append]
      · exact inductionHypothesis last (fun other member => separate other (by simp [member])) true

theorem spelled_eq
    (respelled : Respelled first second)
    (start : Bool) :
    spelled start first = spelled start second := by
  induction respelled generalizing start with
  | nil =>
      rfl
  | plain isPlain _ inductionHypothesis =>
      cases start with
      | true =>
          rw [spelled_start isPlain, spelled_start isPlain, inductionHypothesis]
      | false =>
          rw [spelled_inside isPlain, spelled_inside isPlain, inductionHypothesis]
  | separators nonempty separate otherNonempty otherSeparate _ inductionHypothesis =>
      rw [spelled_run nonempty separate, spelled_run otherNonempty otherSeparate,
        inductionHypothesis]

/-- Segments that differ in separators only have the same identifier. -/
theorem identifier_eq
    (respelled : Respelled first second) :
    identifier first = identifier second := by
  rw [identifier_eq_spelled, identifier_eq_spelled, respelled.spelled_eq]

theorem mem_or_isSeparator
    (respelled : Respelled first second) :
    ∀ character ∈ second, character ∈ first ∨ isSeparator character = true := by
  induction respelled with
  | nil =>
      simp
  | plain _ _ inductionHypothesis =>
      intro character member
      rcases List.mem_cons.mp member with rfl | later
      · exact .inl (by simp)
      · exact (inductionHypothesis character later).imp (List.mem_cons_of_mem _) id
  | separators _ _ _ otherSeparate _ inductionHypothesis =>
      intro character member
      rcases List.mem_append.mp member with inOther | later
      · exact .inr (otherSeparate character inOther)
      · exact (inductionHypothesis character later).imp (List.mem_append_right _) id

/-- A subject or a method is one with other separators, too. -/
theorem spellsName
    (respelled : Respelled first second)
    (name : SpellsName first) :
    SpellsName second := by
  have known := name.characters
  have mem := respelled.mem_or_isSeparator
  obtain ⟨start, rest, shape, isLetter, _⟩ := name
  have plain : isSeparator start = false :=
    not_isSeparator_of_isAlphanum (isAlphanum_iff.mpr (.inl isLetter))
  cases respelled with
  | nil =>
      cases shape
  | plain _ later =>
      cases shape
      refine ⟨_, _, rfl, isLetter, fun character member => ?_⟩
      have allowed : character.isAlphanum = true ∨ isSeparator character = true := by
        rcases mem character (List.mem_cons_of_mem _ member) with inFirst | separates
        · exact known character inFirst
        · exact .inr separates
      simpa only [isAlphanum_iff, isSeparator, Bool.or_eq_true, beq_iff_eq, or_assoc] using allowed
  | separators nonempty separate _ _ _ =>
      obtain ⟨leading, others, rfl⟩ := List.exists_cons_of_ne_nil nonempty
      cases shape
      rw [separate start (by simp)] at plain
      cases plain

end Respelled

/--
The names derived from a path are exported names that keep every character.

The name of the method is a capital letter followed by letters and digits, and the name of the
constant puts `RPC` in front.  Up to the case of letters it is the subject and the method without
separators.  A path with any other version, or with other separators at the same places, is read
and has the same names; and the identifier of a segment is its own identifier.
-/
theorem identifiers_exported
    {text : String}
    {route : Route}
    (parsed : parse text = .ok route) :
    IsExported route.methodName.toList ∧
      route.constantName = "RPC" ++ route.methodName ∧
      route.methodName.toList.map Char.toLower =
        ((route.subject ++ route.method).toList.filter (!isSeparator ·)).map Char.toLower ∧
      (∀ other : Route,
        SpellsVersion other.version.toList →
          Respelled route.subject.toList other.subject.toList →
          Respelled route.method.toList other.method.toList →
            parse other.path = .ok other ∧
              other.methodName = route.methodName ∧
              other.constantName = route.constantName) ∧
      ∀ segment, SpellsName segment → identifier (identifier segment) = identifier segment := by
  obtain ⟨wellFormed, _⟩ := parse_eq_ok_iff.mp parsed
  refine ⟨?_, rfl, ?_, ?_, fun _ name => name.isExported.identifier_eq⟩
  · rw [methodName, String.toList_ofList]
    exact wellFormed.subject.isExported.append wellFormed.method.isExported
  · rw [methodName, String.toList_ofList, identifier_eq_spelled, identifier_eq_spelled,
      List.map_append, map_toLower_spelled wellFormed.subject.characters,
      map_toLower_spelled wellFormed.method.characters, String.toList_append, List.filter_append,
      List.map_append]
  · intro other version subject method
    have otherWellFormed : other.IsWellFormed :=
      ⟨version, subject.spellsName wellFormed.subject, method.spellsName wellFormed.method⟩
    have sameName : other.methodName = route.methodName := by
      rw [methodName, methodName, subject.identifier_eq, method.identifier_eq]
    refine ⟨parse_eq_ok_iff.mpr ⟨otherWellFormed, rfl⟩, sameName, ?_⟩
    rw [constantName, constantName, sameName]

/-- A route with two hyphens in a row is named like one of another version with an underscore. -/
theorem hyphenRoute_identifiers :
    parse "/v1/a--b.get" = .ok ⟨"v1", "a--b", "get"⟩ ∧
      IsExported "ABGet".toList ∧
      parse "/v2/a_b.get" = .ok ⟨"v2", "a_b", "get"⟩ ∧
      (⟨"v2", "a_b", "get"⟩ : Route).methodName = "ABGet" := by
  have parsed : parse "/v1/a--b.get" = .ok ⟨"v1", "a--b", "get"⟩ := by
    rfl
  have named : (⟨"v1", "a--b", "get"⟩ : Route).methodName = "ABGet" := by
    decide
  have version : SpellsVersion "v2".toList :=
    isVersion_iff.mp (by decide)
  have subject : Respelled ['a', '-', '-', 'b'] ['a', '_', 'b'] := by
    have hyphens : ∀ character ∈ ['-', '-'], isSeparator character = true := by
      simp [isSeparator]
    have underscore : ∀ character ∈ ['_'], isSeparator character = true := by
      simp [isSeparator]
    exact .plain (by decide) (.separators (by simp) hyphens (by simp) underscore (.refl ['b']))
  obtain ⟨exported, _, _, others, _⟩ := identifiers_exported parsed
  obtain ⟨otherParsed, otherNamed, _⟩ :=
    others ⟨"v2", "a_b", "get"⟩ version subject (.refl _)
  rw [named] at exported otherNamed
  exact ⟨parsed, exported, otherParsed, otherNamed⟩

end RpcStubs.Route
