import RpcStubs.Manifest
import RpcStubs.Proofs.Text.Stripped
import RpcStubs.Proofs.Text.Words
namespace RpcStubs.Manifest

open Text

/-!
# Module directives

A directive is a line that declares a module path, written out in its parts.  Exactly the
directives declare a path, so a manifest declares the path of the first directive in it, however
that is laid out and whatever stands around it.
-/

/-! Comments. -/

/-- Code and a comment behind it: the first two slashes in a row, if any, start the comment. -/
structure Divides (code comment : List Char) : Prop where
  marked : comment = [] ∨ ['/', '/'] <+: comment
  unmarked : ¬['/', '/'] <:+: code ++ comment.take 1

theorem not_marked_of_not_mem
    {text : List Char}
    (noSlash : '/' ∉ text) :
    ¬['/', '/'] <:+: text :=
  fun pair => noSlash (pair.subset (by simp))

/-- Texts without a mark make one without a mark, unless slashes meet between them. -/
theorem not_marked_append
    {first second : List Char}
    (firstUnmarked : ¬['/', '/'] <:+: first)
    (secondUnmarked : ¬['/', '/'] <:+: second)
    (apart : first.getLast? ≠ some '/' ∨ second.head? ≠ some '/') :
    ¬['/', '/'] <:+: first ++ second := by
  rw [not_pair_infix_iff] at firstUnmarked secondUnmarked ⊢
  refine List.isChain_append.mpr ⟨firstUnmarked, secondUnmarked, ?_⟩
  rintro last isLast next isNext ⟨rfl, rfl⟩
  rcases apart with notLast | notNext
  · exact notLast isLast
  · exact notNext isNext

theorem head?_append_take_one
    (code comment : List Char) :
    (code ++ comment.take 1).head? = (code ++ comment).head? := by
  simp [List.head?_append, List.head?_take]

theorem withoutComment_append
    {code comment : List Char}
    (divides : Divides code comment) :
    withoutComment (code ++ comment) = code := by
  obtain ⟨marked, unmarked⟩ := divides
  induction code with
  | nil =>
      rcases marked with rfl | ⟨rest, rfl⟩ <;> rfl
  | cons character rest inductionHypothesis =>
      rw [List.cons_append, not_pair_infix_iff, List.isChain_cons, head?_append_take_one]
        at unmarked
      obtain ⟨apart, laterUnmarked⟩ := unmarked
      have noMark : ∀ after, character = '/' → rest ++ comment = '/' :: after → False := by
        intro after isSlash shape
        exact apart '/' (by rw [shape]; rfl) ⟨isSlash, rfl⟩
      rw [List.cons_append, withoutComment.eq_3 _ _ noMark,
        inductionHypothesis (not_pair_infix_iff.mpr laterUnmarked)]

/-- A line falls into its code and a comment. -/
theorem exists_comment
    (line : List Char) :
    ∃ comment, line = withoutComment line ++ comment ∧ Divides (withoutComment line) comment := by
  fun_induction withoutComment line with
  | case1 =>
      exact ⟨[], rfl, .inl rfl, by simp⟩
  | case2 rest =>
      refine ⟨'/' :: '/' :: rest, rfl, .inr ⟨rest, rfl⟩, fun pair => ?_⟩
      have lengths := pair.length_le
      simp at lengths
  | case3 character rest noMark inductionHypothesis =>
      obtain ⟨comment, shape, divides⟩ := inductionHypothesis
      refine ⟨comment, by rw [List.cons_append, ← shape], divides.marked, ?_⟩
      rw [List.cons_append, not_pair_infix_iff, List.isChain_cons, head?_append_take_one,
        ← shape]
      refine ⟨?_, not_pair_infix_iff.mp divides.unmarked⟩
      rintro second isSecond ⟨isSlash, rfl⟩
      obtain ⟨later, same⟩ := List.head?_eq_some_iff.mp isSecond
      exact noMark later isSlash same

/-- A carriage return at the end of a line ends up in its code or in its comment. -/
theorem withoutComment_append_return
    (line : List Char) :
    withoutComment (line ++ ['\r']) = withoutComment line ++ ['\r'] ∨
      withoutComment (line ++ ['\r']) = withoutComment line := by
  obtain ⟨comment, shape, marked, unmarked⟩ := exists_comment line
  rcases marked with rfl | ⟨rest, rfl⟩
  · left
    have divides : Divides (withoutComment line ++ ['\r']) [] := by
      refine ⟨.inl rfl, ?_⟩
      rw [List.take_nil, List.append_nil] at unmarked ⊢
      exact not_marked_append unmarked (not_marked_of_not_mem (by decide)) (.inr (by decide))
    have same : line = withoutComment line := by
      simpa using shape
    have read := withoutComment_append divides
    rw [List.append_nil, ← same] at read
    rw [read, ← same]
  · right
    have divides : Divides (withoutComment line) (['/', '/'] ++ (rest ++ ['\r'])) :=
      ⟨.inr (List.prefix_append _ _), unmarked⟩
    have read := withoutComment_append divides
    rwa [← List.append_assoc, ← List.append_assoc, List.append_assoc (withoutComment line),
      ← shape] at read

/-! Directives. -/

/-- The word that starts a directive. -/
def keyword : List Char := ['m', 'o', 'd', 'u', 'l', 'e']

theorem toList_module :
    "module".toList = keyword := rfl

/-- The code of a line that declares a path: the keyword, a gap and the path, maybe quoted. -/
structure Statement where
  indentation : List Char
  gap : List Char
  opening : List Char
  path : List Char
  closing : List Char
  trailing : List Char
  indentation_blank : ∀ character ∈ indentation, isBlank character = true
  gap_blank : ∀ character ∈ gap, isBlank character = true
  gap_ne_nil : gap ≠ []
  opening_quotes : ∀ character ∈ opening, isQuote character = true
  path_ne_nil : path ≠ []
  path_bare : IsBare isQuote path
  closing_quotes : ∀ character ∈ closing, isQuote character = true
  quoted_bare : IsBare isBlank (opening ++ (path ++ closing))
  trailing_blank : ∀ character ∈ trailing, isBlank character = true

namespace Statement

/-- The path of a statement with the quotes around it. -/
def quoted (statement : Statement) : List Char :=
  statement.opening ++ (statement.path ++ statement.closing)

/-- A statement without the blanks around it. -/
def core (statement : Statement) : List Char :=
  keyword ++ (statement.gap ++ statement.quoted)

/-- A statement as it is written. -/
def code (statement : Statement) : List Char :=
  statement.indentation ++ (statement.core ++ statement.trailing)

variable (statement : Statement)

theorem isBare_core :
    IsBare isBlank statement.core where
  start := by
    intro first isFirst
    have starts : statement.core.head? = some 'm' := rfl
    obtain rfl := Option.some.inj (starts.symm.trans isFirst)
    rfl
  finish := by
    intro last isLast
    have nonempty : statement.quoted ≠ [] := by
      simp [quoted, statement.path_ne_nil]
    apply statement.quoted_bare.finish last
    rwa [core, ← List.append_assoc, List.getLast?_append_of_ne_nil _ nonempty] at isLast

theorem trim_code :
    trim statement.code = statement.core := by
  rw [trim_eq_stripped]
  exact stripped_append statement.indentation_blank statement.isBare_core statement.trailing_blank

theorem trim_gap_append_quoted :
    trim (statement.gap ++ statement.quoted) = statement.quoted := by
  rw [trim_eq_stripped, stripped_eq_iff]
  exact ⟨statement.gap, [], by simp, statement.gap_blank, statement.quoted_bare, by simp⟩

theorem unquoted_quoted :
    unquoted statement.quoted = statement.path :=
  stripped_append statement.opening_quotes statement.path_bare statement.closing_quotes

end Statement

/-- A line that declares a path, in its parts. -/
structure Directive extends Statement where
  comment : List Char
  divides : Divides toStatement.code comment

/-- A directive as it is written. -/
def Directive.line (directive : Directive) : List Char :=
  directive.code ++ directive.comment

/-- What a path is read from: behind the keyword and a blank, without blanks and quotes. -/
theorem declaredIn?_eq_some_iff_trim
    {line path : List Char} :
    declaredIn? line = some path ↔
      ∃ first rest,
        trim (withoutComment line) = keyword ++ first :: rest ∧
          isBlank first = true ∧
          unquoted (trim (first :: rest)) = path ∧
          path ≠ [] := by
  constructor
  · intro declared
    rw [declaredIn?, toList_module] at declared
    split at declared
    · rename_i starts
      obtain ⟨after, shape⟩ := List.isPrefixOf_iff_prefix.mp starts
      rw [← shape] at declared
      split at declared
      · cases declared
      · rename_i first rest behind
        obtain rfl : after = first :: rest := behind
        split at declared
        · rename_i blank
          dsimp only at declared
          split at declared
          · cases declared
          · rename_i nonempty
            obtain rfl := Option.some.inj declared
            exact ⟨first, rest, shape.symm, blank, rfl, nonempty⟩
        · cases declared
    · cases declared
  · rintro ⟨first, rest, shape, blank, rfl, nonempty⟩
    simp [declaredIn?, toList_module, keyword, shape, blank, nonempty]

/-- A directive declares its path. -/
theorem declaredIn?_line
    (directive : Directive) :
    declaredIn? directive.line = some directive.path := by
  obtain ⟨first, rest, gapShape⟩ := List.exists_cons_of_ne_nil directive.gap_ne_nil
  rw [declaredIn?_eq_some_iff_trim]
  refine ⟨first, rest ++ directive.quoted, ?_, ?_, ?_, directive.path_ne_nil⟩
  · rw [Directive.line, withoutComment_append directive.divides, directive.trim_code,
      Statement.core, gapShape, List.cons_append]
  · exact directive.gap_blank first (by simp [gapShape])
  · rw [← List.cons_append, ← gapShape, directive.trim_gap_append_quoted,
      directive.unquoted_quoted]

/-- Code that a path is read from is a statement of that path. -/
theorem exists_statement
    {code rest path : List Char}
    {first : Char}
    (shape : trim code = keyword ++ first :: rest)
    (blank : isBlank first = true)
    (isPath : unquoted (trim (first :: rest)) = path)
    (nonempty : path ≠ []) :
    ∃ statement : Statement, statement.code = code ∧ statement.path = path := by
  obtain ⟨indentation, trailing, codeShape, indentationBlank, _, trailingBlank⟩ :=
    stripped_eq_iff.mp ((trim_eq_stripped _).symm.trans shape)
  obtain ⟨gap, after, restShape, gapBlank, quotedBare, afterBlank⟩ :=
    stripped_eq_iff.mp (trim_eq_stripped (first :: rest)).symm
  generalize trim (first :: rest) = quoted at isPath restShape quotedBare
  have gapNonempty : gap ≠ [] := by
    rintro rfl
    cases quoted with
    | nil =>
        exact nonempty isPath.symm
    | cons start others =>
        obtain rfl : first = start := by
          simpa using congrArg List.head? restShape
        simp [quotedBare.start first rfl] at blank
  obtain ⟨opening, closing, rfl, openingQuotes, pathBare, closingQuotes⟩ :=
    stripped_eq_iff.mp isPath
  let statement : Statement :=
    { indentation, gap, opening, path, closing
      trailing := after ++ trailing
      indentation_blank := indentationBlank
      gap_blank := gapBlank
      gap_ne_nil := gapNonempty
      opening_quotes := openingQuotes
      path_ne_nil := nonempty
      path_bare := pathBare
      closing_quotes := closingQuotes
      quoted_bare := quotedBare
      trailing_blank := by
        intro character member
        exact (List.mem_append.mp member).elim (afterBlank character) (trailingBlank character) }
  refine ⟨statement, ?_, rfl⟩
  rw [codeShape, restShape]
  simp [statement, Statement.code, Statement.core, Statement.quoted]

/-- The lines that declare a path are the directives for it. -/
theorem declaredIn?_eq_some_iff
    {line path : List Char} :
    declaredIn? line = some path ↔
      ∃ directive : Directive, directive.line = line ∧ directive.path = path := by
  constructor
  · intro declared
    obtain ⟨first, rest, shape, blank, isPath, nonempty⟩ :=
      declaredIn?_eq_some_iff_trim.mp declared
    obtain ⟨comment, whole, divides⟩ := exists_comment line
    obtain ⟨statement, sameCode, samePath⟩ := exists_statement shape blank isPath nonempty
    rw [← sameCode] at whole divides
    exact ⟨⟨statement, comment, divides⟩, whole.symm, samePath⟩
  · rintro ⟨directive, rfl, rfl⟩
    exact declaredIn?_line directive

/-- A line that declares some path. -/
def IsDirective (line : List Char) : Prop :=
  ∃ directive : Directive, directive.line = line

theorem declaredIn?_eq_none_iff
    {line : List Char} :
    declaredIn? line = none ↔ ¬IsDirective line := by
  rw [Option.eq_none_iff_forall_ne_some]
  simp [declaredIn?_eq_some_iff, IsDirective]

instance : DecidablePred IsDirective := fun line =>
  decidable_of_iff (declaredIn? line ≠ none) (by
    rw [ne_eq, declaredIn?_eq_none_iff, not_not])

/-! Manifests. -/

/-- A manifest declares the path of the first directive among its lines. -/
theorem modulePath?_eq_some_iff
    {content path : String} :
    modulePath? content = some path ↔
      ∃ passed directive later,
        lines content.toList = passed ++ Directive.line directive :: later ∧
          (∀ line ∈ passed, ¬IsDirective line) ∧
          path = String.ofList directive.path := by
  rw [modulePath?, Option.map_eq_some_iff]
  constructor
  · rintro ⟨text, found, rfl⟩
    obtain ⟨passed, line, later, shape, declared, undeclared⟩ :=
      List.findSome?_eq_some_iff.mp found
    obtain ⟨directive, rfl, rfl⟩ := declaredIn?_eq_some_iff.mp declared
    exact
      ⟨passed, directive, later, shape,
        fun line member => declaredIn?_eq_none_iff.mp (undeclared line member), rfl⟩
  · rintro ⟨passed, directive, later, shape, undeclared, rfl⟩
    exact
      ⟨directive.path,
        List.findSome?_eq_some_iff.mpr
          ⟨passed, directive.line, later, shape, declaredIn?_line directive,
            fun line member => declaredIn?_eq_none_iff.mpr (undeclared line member)⟩,
        rfl⟩

/-- What ends a line. -/
inductive LineEnd where
  | feed
  | returnFeed
deriving Repr, DecidableEq

/-- The characters that end a line. -/
def LineEnd.text : LineEnd → List Char
  | .feed => ['\n']
  | .returnFeed => ['\r', '\n']

theorem declaredIn?_append_return
    (line : List Char) :
    declaredIn? (line ++ ['\r']) = declaredIn? line := by
  have sameTrimmed : trim (withoutComment (line ++ ['\r'])) = trim (withoutComment line) := by
    rcases withoutComment_append_return line with same | same
    · rw [same, trim_append_blank (by decide)]
    · rw [same]
  rw [declaredIn?, declaredIn?, sameTrimmed]

/-- A line feed ends a line, maybe with a carriage return that makes no difference. -/
theorem findSome?_lines_feed
    {line : List Char}
    (oneLine : '\n' ∉ line)
    (rest : List Char) :
    (lines (line ++ '\n' :: rest)).findSome? declaredIn? =
      (declaredIn? line).or ((lines rest).findSome? declaredIn?) := by
  obtain ⟨cut, shape, ending⟩ := lines_ended oneLine rest
  have sameDeclared : declaredIn? cut = declaredIn? line := by
    rcases ending with rfl | rfl
    · rfl
    · rw [declaredIn?_append_return]
  rw [shape, List.findSome?_cons, sameDeclared]
  cases declaredIn? line <;> rfl

/-- However a line is ended, it is searched before the lines after it. -/
theorem findSome?_lines_ended
    {line : List Char}
    (oneLine : '\n' ∉ line)
    (finish : LineEnd)
    (rest : List Char) :
    (lines (line ++ (finish.text ++ rest))).findSome? declaredIn? =
      (declaredIn? line).or ((lines rest).findSome? declaredIn?) := by
  cases finish with
  | feed =>
      exact findSome?_lines_feed oneLine rest
  | returnFeed =>
      have returned : '\n' ∉ line ++ ['\r'] := by
        simpa using oneLine
      rw [← declaredIn?_append_return, ← findSome?_lines_feed returned]
      simp [LineEnd.text]

/-! Layouts. -/

/-- A module path that can be read back from a directive. -/
structure ModulePath where
  text : List Char
  ne_nil : text ≠ []
  oneLine : '\n' ∉ text
  unmarked : ¬['/', '/'] <:+: text
  solid : IsBare isBlank text
  unquoted : IsBare isQuote text

/-- How a directive is laid out around its path. -/
structure Layout where
  indentation : List Char
  gap : List Char
  quote : Option Char
  trailing : List Char
  comment : Option (List Char)
  indentation_blank : ∀ character ∈ indentation, isBlank character = true
  gap_blank : ∀ character ∈ gap, isBlank character = true
  gap_ne_nil : gap ≠ []
  quote_isQuote : ∀ character ∈ quote, isQuote character = true
  trailing_blank : ∀ character ∈ trailing, isBlank character = true
  comment_apart : comment.isSome = true → trailing ≠ []
  oneLine : '\n' ∉ indentation ++ gap ++ trailing ++ comment.getD []

theorem isBlank_of_isQuote
    {character : Char}
    (isQuoted : isQuote character = true) :
    isBlank character = false := by
  simp only [isQuote, Bool.or_eq_true, beq_iff_eq] at isQuoted
  rcases isQuoted with rfl | rfl <;> decide

namespace Layout

/-- The comment of a directive with its mark. -/
def note (layout : Layout) : List Char :=
  layout.comment.elim [] fun text => '/' :: '/' :: text

/-- The line of a directive for a path. -/
def line (layout : Layout) (path : ModulePath) : List Char :=
  layout.indentation ++ keyword ++ layout.gap ++ layout.quote.toList ++ path.text ++
    layout.quote.toList ++ layout.trailing ++ layout.note

theorem quotes
    (layout : Layout) :
    ∀ character ∈ layout.quote.toList, isQuote character = true := by
  simpa using layout.quote_isQuote

/-- The part of a laid out directive in front of its comment. -/
def statement (layout : Layout) (path : ModulePath) : Statement where
  indentation := layout.indentation
  gap := layout.gap
  opening := layout.quote.toList
  path := path.text
  closing := layout.quote.toList
  trailing := layout.trailing
  indentation_blank := layout.indentation_blank
  gap_blank := layout.gap_blank
  gap_ne_nil := layout.gap_ne_nil
  opening_quotes := layout.quotes
  path_ne_nil := path.ne_nil
  path_bare := path.unquoted
  closing_quotes := layout.quotes
  quoted_bare := by
    cases shape : layout.quote with
    | none =>
        simpa using path.solid
    | some quote =>
        have solid := isBlank_of_isQuote (layout.quote_isQuote quote shape)
        refine ⟨by simp [solid], ?_⟩
        rw [Option.toList_some, ← List.append_assoc, List.getLast?_concat]
        simp [solid]
  trailing_blank := layout.trailing_blank

variable (layout : Layout) (path : ModulePath)

theorem slash_not_mem_quote :
    '/' ∉ layout.quote.toList :=
  not_mem_of_edges layout.quotes (by decide)

/-- What stands behind a path up to the mark of the comment has no mark and starts with none. -/
theorem behind_unmarked :
    ¬['/', '/'] <:+: layout.quote.toList ++ layout.trailing ++ layout.note.take 1 ∧
      (layout.quote.toList ++ layout.trailing ++ layout.note.take 1).head? ≠ some '/' := by
  have noSlash : '/' ∉ layout.quote.toList ++ layout.trailing := by
    rw [List.mem_append, not_or]
    exact ⟨layout.slash_not_mem_quote, not_mem_of_edges layout.trailing_blank (by decide)⟩
  have noMark : ¬['/', '/'] <:+: layout.note.take 1 := by
    intro pair
    have lengths := pair.length_le
    have short := List.length_take_le 1 layout.note
    simp only [List.length_cons, List.length_nil] at lengths
    omega
  have sameHead : (layout.quote.toList ++ layout.trailing ++ layout.note.take 1).head? =
      (layout.quote.toList ++ layout.trailing).head? := by
    cases shape : layout.comment with
    | none =>
        simp [note, shape]
    | some text =>
        have apart : layout.quote.toList ++ layout.trailing ≠ [] := by
          simp [layout.comment_apart (by simp [shape])]
        rw [List.head?_append_of_ne_nil _ apart]
  constructor
  · exact
      not_marked_append (not_marked_of_not_mem noSlash) noMark
        (.inl fun isLast => noSlash (List.mem_of_getLast? isLast))
  · rw [sameHead]
    exact fun isFirst => noSlash (List.mem_of_head? isFirst)

theorem line_eq :
    layout.line path = (layout.statement path).code ++ layout.note := by
  simp [line, statement, Statement.code, Statement.core, Statement.quoted]

/-- The mark of the comment is the first one, because the path has none and blanks stand behind. -/
theorem divides :
    Divides (layout.statement path).code layout.note where
  marked := by
    cases shape : layout.comment with
    | none =>
        exact .inl (by simp [note, shape])
    | some text =>
        exact .inr ⟨text, by simp [note, shape]⟩
  unmarked := by
    have before : '/' ∉
        layout.indentation ++ keyword ++ layout.gap ++ layout.quote.toList := by
      simp only [List.mem_append, not_or]
      exact
        ⟨⟨⟨not_mem_of_edges layout.indentation_blank (by decide), by decide⟩,
          not_mem_of_edges layout.gap_blank (by decide)⟩, layout.slash_not_mem_quote⟩
    have shape : (layout.statement path).code ++ layout.note.take 1 =
        (layout.indentation ++ keyword ++ layout.gap ++ layout.quote.toList) ++
          (path.text ++ (layout.quote.toList ++ layout.trailing ++ layout.note.take 1)) := by
      simp [statement, Statement.code, Statement.core, Statement.quoted]
    obtain ⟨behindUnmarked, noSlash⟩ := layout.behind_unmarked
    rw [shape]
    exact
      not_marked_append (not_marked_of_not_mem before)
        (not_marked_append path.unmarked behindUnmarked (.inr noSlash))
        (.inl fun isLast => before (List.mem_of_getLast? isLast))

/-- A laid out directive is a directive. -/
def directive : Directive :=
  ⟨layout.statement path, layout.note, layout.divides path⟩

theorem line_directive :
    (layout.directive path).line = layout.line path :=
  (layout.line_eq path).symm

theorem line_ne_nil :
    layout.line path ≠ [] := by
  simp [line, path.ne_nil]

/-- A laid out directive has no line break in it. -/
theorem break_not_mem_line :
    '\n' ∉ layout.line path := by
  have oneLine := layout.oneLine
  have noQuote : '\n' ∉ layout.quote.toList := not_mem_of_edges layout.quotes (by decide)
  have noNote : '\n' ∉ layout.note := by
    cases shape : layout.comment with
    | none =>
        simp [note, shape]
    | some text =>
        simpa [note, shape] using fun member => oneLine (by simp [shape, member])
  simp only [line, List.mem_append, not_or] at oneLine ⊢
  exact
    ⟨⟨⟨⟨⟨⟨⟨oneLine.1.1.1, by decide⟩, oneLine.1.1.2⟩, noQuote⟩, path.oneLine⟩, noQuote⟩,
      oneLine.1.2⟩, noNote⟩

end Layout

/-- The text of a manifest around its first directive. -/
structure Written where
  preceding : List (List Char × LineEnd)
  layout : Layout
  path : ModulePath
  following : Option (LineEnd × List Char)
  preceding_oneLine : ∀ ended ∈ preceding, '\n' ∉ ended.1
  preceding_undeclaring : ∀ ended ∈ preceding, ¬IsDirective ended.1

/-- A manifest as it is written. -/
def Written.text (written : Written) : List Char :=
  (written.preceding.flatMap fun ended => ended.1 ++ ended.2.text) ++
    (written.layout.line written.path ++
      written.following.elim [] fun ending => ending.1.text ++ ending.2)

/-- Lines that declare nothing are passed over. -/
theorem findSome?_lines_preceding
    {preceding : List (List Char × LineEnd)}
    (oneLine : ∀ ended ∈ preceding, '\n' ∉ ended.1)
    (undeclaring : ∀ ended ∈ preceding, ¬IsDirective ended.1)
    (rest : List Char) :
    (lines ((preceding.flatMap fun ended => ended.1 ++ ended.2.text) ++ rest)).findSome?
        declaredIn? =
      (lines rest).findSome? declaredIn? := by
  induction preceding with
  | nil =>
      rfl
  | cons ended others inductionHypothesis =>
      have passed : declaredIn? ended.1 = none :=
        declaredIn?_eq_none_iff.mpr (undeclaring ended (by simp))
      have othersPassed :=
        inductionHypothesis
          (fun other member => oneLine other (List.mem_cons_of_mem _ member))
          (fun other member => undeclaring other (List.mem_cons_of_mem _ member))
      rw [List.flatMap_cons, List.append_assoc, List.append_assoc,
        findSome?_lines_ended (oneLine ended (by simp)), passed, Option.none_or, othersPassed]

/-- A line that declares a path is found, whatever follows it. -/
theorem findSome?_lines_following
    {line path : List Char}
    (oneLine : '\n' ∉ line)
    (nonempty : line ≠ [])
    (declared : declaredIn? line = some path)
    (following : Option (LineEnd × List Char)) :
    (lines (line ++ following.elim [] fun ending => ending.1.text ++ ending.2)).findSome?
        declaredIn? =
      some path := by
  cases following with
  | none =>
      simp [lines_oneLine oneLine nonempty, declared]
  | some ending =>
      rw [Option.elim_some, findSome?_lines_ended oneLine, declared, Option.some_or]

/-- A manifest declares the path that its first directive is written for. -/
theorem modulePath?_written
    (written : Written) :
    modulePath? (String.ofList written.text) = some (String.ofList written.path.text) := by
  have declared : declaredIn? (written.layout.line written.path) = some written.path.text := by
    rw [← Layout.line_directive]
    exact declaredIn?_line _
  rw [modulePath?, String.toList_ofList, Written.text,
    findSome?_lines_preceding written.preceding_oneLine written.preceding_undeclaring,
    findSome?_lines_following (written.layout.break_not_mem_line _)
      (written.layout.line_ne_nil _) declared]
  rfl

theorem Directive.path_infix_code
    (directive : Directive) :
    directive.path <:+: directive.code :=
  ⟨directive.indentation ++ keyword ++ directive.gap ++ directive.opening,
    directive.closing ++ directive.trailing,
    by simp [Statement.code, Statement.core, Statement.quoted]⟩

/-- The path of a directive has no mark of a comment, which would end the code in front of it. -/
theorem Directive.path_unmarked
    (directive : Directive) :
    ¬['/', '/'] <:+: directive.path := by
  have inCode : directive.code <:+: directive.code ++ directive.comment.take 1 :=
    (List.prefix_append _ _).isInfix
  exact fun marked =>
    directive.divides.unmarked (marked.trans (directive.path_infix_code.trans inCode))

/--
A manifest declares the path that its first directive is written for, whatever the layout.

Conversely, a path that a manifest declares is never empty, and it has neither a line break nor
the mark of a comment in it.
-/
theorem modulePath?_readsBack :
    (∀ written : Written,
        modulePath? (String.ofList written.text) = some (String.ofList written.path.text)) ∧
      ∀ content path,
        modulePath? content = some path →
          path ≠ "" ∧ '\n' ∉ path.toList ∧ ¬['/', '/'] <:+: path.toList := by
  refine ⟨modulePath?_written, ?_⟩
  intro content path declared
  obtain ⟨passed, directive, later, shape, _, rfl⟩ := modulePath?_eq_some_iff.mp declared
  have isLine : directive.line ∈ lines content.toList := by
    simp [shape]
  have oneLine : '\n' ∉ directive.line := noBreak_of_mem_lines isLine
  have inLine : directive.path <:+: directive.line :=
    directive.path_infix_code.trans (List.prefix_append _ _).isInfix
  rw [String.toList_ofList]
  refine ⟨?_, fun member => oneLine (inLine.subset member), directive.path_unmarked⟩
  intro empty
  exact directive.path_ne_nil (by simpa using empty)

/-- A manifest with a directive behind lines that only look like one. -/
def pinnedManifest : Written where
  preceding := [
    ("// module commented.out/path".toList, .feed),
    ("modules are fun".toList, .returnFeed),
    (keyword, .feed)]
  layout := {
    indentation := [' ']
    gap := [' ', '\t']
    quote := some '\x22'
    trailing := [' ']
    comment := some " pinned".toList
    indentation_blank := List.all_eq_true.mp rfl
    gap_blank := List.all_eq_true.mp rfl
    gap_ne_nil := by decide
    quote_isQuote := by simp [isQuote]
    trailing_blank := List.all_eq_true.mp rfl
    comment_apart := by decide
    oneLine := by decide +kernel }
  path := {
    text := "example.com/acme".toList
    ne_nil := by decide
    oneLine := by decide +kernel
    unmarked := by decide +kernel
    solid := by decide +kernel
    unquoted := by decide +kernel }
  following := some (.feed, "\ngo 1.22\n".toList)
  preceding_oneLine := by decide +kernel
  preceding_undeclaring := by decide +kernel

theorem pinnedManifest_readsBack :
    modulePath?
        ("// module commented.out/path\nmodules are fun\r\nmodule\n" ++
          " module \t\x22example.com/acme\x22 // pinned\n\ngo 1.22\n") =
        some "example.com/acme" ∧
      "example.com/acme" ≠ "" ∧
      '\n' ∉ "example.com/acme".toList ∧
      ¬['/', '/'] <:+: "example.com/acme".toList := by
  have sameText : String.ofList pinnedManifest.text =
      "// module commented.out/path\nmodules are fun\r\nmodule\n" ++
        " module \t\x22example.com/acme\x22 // pinned\n\ngo 1.22\n" := by
    decide +kernel
  have samePath : String.ofList pinnedManifest.path.text = "example.com/acme" := by
    decide +kernel
  have declared := modulePath?_readsBack.1 pinnedManifest
  rw [sameText, samePath] at declared
  exact ⟨declared, modulePath?_readsBack.2 _ _ declared⟩

end RpcStubs.Manifest
