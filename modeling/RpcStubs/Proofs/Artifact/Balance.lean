import Mathlib.Data.List.Forall2
import RpcStubs.Proofs.Artifact.Header
namespace RpcStubs.Artifact

open Source

/-!
# Balanced lines of generated files

The parts of a line are read one after the other, each between modes in which names change
nothing.  A part whose name or text is filled in stands where another one can stand: what a
check makes of a line with empty names in it, it makes of the line with any names.  A block of
lines is therefore checked once, on a sample.
-/

/-- Where a piece of a line takes a nesting, if it ends where names change nothing. -/
def afterPiece? (nesting : Nesting) (piece : List Char) : Option Nesting :=
  (nesting.after? piece).filter fun next => next.mode.isSteady && !piece.contains '\n'

/-- Where a part of a line takes a nesting. -/
def Part.after? (nesting : Nesting) (part : Part) : Option Nesting :=
  afterPiece? nesting part.render.toList

/-- The brackets that are open when a line ends, if code goes on after it. -/
def atLineEnd? (nesting : Nesting) : Option (List Bracket) :=
  if nesting.mode.endsLine then some nesting.opened else none

/-- The brackets that are open after a line. -/
def Line.leadsTo? (opened : List Bracket) (line : Line) : Option (List Bracket) :=
  (line.foldlM Part.after? ⟨.code, opened⟩).bind atLineEnd?

/-- The brackets that are open after lines. -/
def leadsTo? (opened : List Bracket) (lines : List Line) : Option (List Bracket) :=
  lines.foldlM Line.leadsTo? opened

theorem Part.after?_eq_some_iff
    {nesting after : Nesting}
    {part : Part} :
    part.after? nesting = some after ↔
      nesting.after? part.render.toList = some after ∧
        after.mode.isSteady = true ∧
        '\n' ∉ part.render.toList := by
  simp [Part.after?, afterPiece?, Option.filter_eq_some_iff]

/-- A line that is read part by part is read as a text, and is one line. -/
theorem after?_of_parts
    {nesting after : Nesting}
    {line : Line}
    (read : line.foldlM Part.after? nesting = some after) :
    nesting.after? line.render.toList = some after ∧ '\n' ∉ line.render.toList := by
  rw [Line.toList_render]
  induction line generalizing nesting with
  | nil =>
      cases read
      simp
  | cons part rest inductionHypothesis =>
      rw [List.foldlM_cons] at read
      obtain ⟨between, partRead, restRead⟩ := Option.bind_eq_some_iff.mp read
      obtain ⟨taken, _, oneLine⟩ := Part.after?_eq_some_iff.mp partRead
      obtain ⟨restTaken, restOneLine⟩ := inductionHypothesis restRead
      refine ⟨?_, ?_⟩
      · rw [List.flatMap_cons, Nesting.after?_append, taken]
        exact restTaken
      · simpa [oneLine] using restOneLine

theorem Line.leadsTo?_eq_some_iff
    {opened after : List Bracket}
    {line : Line} :
    line.leadsTo? opened = some after ↔
      ∃ mode,
        line.foldlM Part.after? ⟨.code, opened⟩ = some ⟨mode, after⟩ ∧ mode.endsLine = true := by
  rw [leadsTo?, Option.bind_eq_some_iff]
  constructor
  · rintro ⟨⟨mode, brackets⟩, read, ends⟩
    unfold atLineEnd? at ends
    split at ends
    · cases ends
      exact ⟨mode, read, ‹_›⟩
    · cases ends
  · rintro ⟨mode, read, ends⟩
    exact ⟨_, read, if_pos ends⟩

/-- Lines that are read part by part are balanced as texts, and are single lines. -/
theorem afterLines?_of_leadsTo?
    {opened after : List Bracket}
    {lines : List Line}
    (read : leadsTo? opened lines = some after) :
    Nesting.afterLines? opened (lines.map fun line => line.render.toList) = some after ∧
      ∀ line ∈ lines, '\n' ∉ line.render.toList := by
  induction lines generalizing opened with
  | nil =>
      exact ⟨read, by simp⟩
  | cons line others inductionHypothesis =>
      rw [leadsTo?, List.foldlM_cons] at read
      obtain ⟨between, lineRead, othersRead⟩ := Option.bind_eq_some_iff.mp read
      obtain ⟨mode, parts, ends⟩ := Line.leadsTo?_eq_some_iff.mp lineRead
      obtain ⟨taken, oneLine⟩ := after?_of_parts parts
      obtain ⟨othersTaken, othersOneLine⟩ := inductionHypothesis othersRead
      refine ⟨?_, List.forall_mem_cons.mpr ⟨oneLine, othersOneLine⟩⟩
      rw [List.map_cons, Nesting.afterLines?_cons,
        Nesting.afterLine?_eq_some_iff.mpr ⟨mode, taken, ends⟩]
      exact othersTaken

/-! Spellings. -/

/-- The characters of a part whose texts are written out. -/
inductive Part.Spells : Part → List Char → Prop
  | text (characters : List Char) :
      Spells (.text (String.ofList characters)) characters
  | message (characters : List Char) :
      Spells (.message (String.ofList characters)) ('p' :: 'b' :: '.' :: characters)
  | prefixed (before after : List Char) :
      Spells (.declared (String.ofList before ++ String.ofList after)) (before ++ after)
  | declared (characters : List Char) :
      Spells (.declared (String.ofList characters)) characters
  | constant (characters : List Char) :
      Spells (.constant (String.ofList characters)) characters
  | method (characters : List Char) :
      Spells (.method (String.ofList characters)) characters
  | path (characters : List Char) :
      Spells (.path (String.ofList characters)) characters

/-- The characters of lines, part by part. -/
def Spell (lines : List Line) (spelling : List (List (List Char))) : Prop :=
  List.Forall₂ (List.Forall₂ Part.Spells) lines spelling

theorem Part.Spells.toList_render
    {part : Part}
    {characters : List Char}
    (spells : part.Spells characters) :
    part.render.toList = characters := by
  cases spells <;> simp [Part.render]

/-- Ranges of characters that mean nothing by themselves. -/
def wordRanges : List (Nat × Nat) :=
  [(97, 122), (48, 90), (32, 33), (43, 46), (9, 9), (35, 38)]

/-- Whether a character is in one of the ranges. -/
def isWord (character : Char) : Bool :=
  wordRanges.any fun range =>
    Nat.ble range.1 character.toNat && Nat.ble character.toNat range.2

/-- Reads a piece of a line, passing over words. -/
def skim? (nesting : Nesting) : List Char → Option Nesting
  | [] =>
      if nesting.mode.isSteady then some nesting else none
  | character :: rest =>
      if nesting.mode.isSteady && isWord character then
        skim? nesting rest
      else if character = '\n' then
        none
      else
        (nesting.after? [character]).bind fun next => skim? next rest

theorem isInert_of_isWord
    {character : Char}
    (word : isWord character = true) :
    isInert character = true :=
  isInert_of_isKind (by decide) word

theorem afterPiece?_cons
    (nesting : Nesting)
    (character : Char)
    (rest : List Char) :
    afterPiece? nesting (character :: rest) =
      if character = '\n' then none
      else (nesting.after? [character]).bind fun next => afterPiece? next rest := by
  unfold afterPiece?
  rw [Nesting.after?_cons]
  by_cases isBreak : character = '\n'
  · simp [isBreak]
  · rw [if_neg isBreak]
    cases nesting.after? [character] with
    | none =>
        rfl
    | some next =>
        simp [Ne.symm isBreak]

/-- Passing over words is reading them. -/
theorem skim?_eq
    (nesting : Nesting)
    (piece : List Char) :
    skim? nesting piece = afterPiece? nesting piece := by
  induction piece generalizing nesting with
  | nil =>
      simp [skim?, afterPiece?, Option.filter]
  | cons character rest inductionHypothesis =>
      rw [skim?, afterPiece?_cons]
      split
      · rename_i passes
        obtain ⟨steady, word⟩ := Bool.and_eq_true_iff.mp passes
        have inert := isInert_of_isWord word
        have notBreak : character ≠ '\n' := by
          rintro rfl
          cases inert
        have stays : nesting.after? [character] = some nesting :=
          Nesting.after?_of_steps (nesting.reading.steps_of_isInert steady (by simpa using inert))
        rw [inductionHypothesis, if_neg notBreak, stays]
        rfl
      · simp only [inductionHypothesis]

theorem parts_of_spells
    {line : Line}
    {pieces : List (List Char)}
    (spells : List.Forall₂ Part.Spells line pieces)
    (nesting : Nesting) :
    line.foldlM Part.after? nesting = pieces.foldlM skim? nesting := by
  induction spells generalizing nesting with
  | nil =>
      rfl
  | cons spelled _ inductionHypothesis =>
      simp only [List.foldlM_cons, Part.after?, spelled.toList_render, skim?_eq,
        inductionHypothesis]

/-- The brackets that are open after lines that are given by their characters. -/
def spellingLeadsTo?
    (opened : List Bracket)
    (spelling : List (List (List Char))) :
    Option (List Bracket) :=
  spelling.foldlM
    (fun brackets pieces => (pieces.foldlM skim? ⟨.code, brackets⟩).bind atLineEnd?)
    opened

/-- Lines are read as they are spelled. -/
theorem leadsTo?_of_spell
    {lines : List Line}
    {spelling : List (List (List Char))}
    (spell : Spell lines spelling)
    (opened : List Bracket) :
    leadsTo? opened lines = spellingLeadsTo? opened spelling := by
  induction spell generalizing opened with
  | nil =>
      rfl
  | cons spelled _ inductionHypothesis =>
      unfold leadsTo? spellingLeadsTo? at inductionHypothesis ⊢
      simp only [List.foldlM_cons, Line.leadsTo?, parts_of_spells spelled, inductionHypothesis]

/-! Open brackets below change nothing. -/

theorem parts_within
    {nesting after : Nesting}
    {line : Line}
    (read : line.foldlM Part.after? nesting = some after)
    (below : List Bracket) :
    line.foldlM Part.after? (nesting.within below) = some (after.within below) := by
  induction line generalizing nesting with
  | nil =>
      cases read
      rfl
  | cons part rest inductionHypothesis =>
      rw [List.foldlM_cons] at read ⊢
      obtain ⟨between, partRead, restRead⟩ := Option.bind_eq_some_iff.mp read
      obtain ⟨taken, steady, oneLine⟩ := Part.after?_eq_some_iff.mp partRead
      have partWithin : part.after? (nesting.within below) = some (between.within below) :=
        Part.after?_eq_some_iff.mpr ⟨Nesting.after?_within taken below, steady, oneLine⟩
      rw [partWithin]
      exact inductionHypothesis restRead

theorem leadsTo?_within
    {opened after : List Bracket}
    {lines : List Line}
    (read : leadsTo? opened lines = some after)
    (below : List Bracket) :
    leadsTo? (opened ++ below) lines = some (after ++ below) := by
  induction lines generalizing opened with
  | nil =>
      cases read
      rfl
  | cons line others inductionHypothesis =>
      rw [leadsTo?, List.foldlM_cons] at read ⊢
      obtain ⟨between, lineRead, othersRead⟩ := Option.bind_eq_some_iff.mp read
      obtain ⟨mode, parts, ends⟩ := Line.leadsTo?_eq_some_iff.mp lineRead
      have lineWithin : line.leadsTo? (opened ++ below) = some (between ++ below) :=
        Line.leadsTo?_eq_some_iff.mpr ⟨mode, parts_within parts below, ends⟩
      rw [lineWithin]
      exact inductionHypothesis othersRead

/-! Parts that stand in for others. -/

/-- A part that is read in the same way as a sample, wherever the sample can be read. -/
def Part.StandsFor (sample part : Part) : Prop :=
  ∀ nesting after,
    nesting.mode.isSteady = true →
    sample.after? nesting = some after →
    part.after? nesting = some after

@[simp] theorem Part.standsFor_refl
    (part : Part) :
    part.StandsFor part :=
  fun _ _ _ read => read

theorem Part.after?_of_steps
    {nesting : Nesting}
    {part : Part}
    (steady : nesting.mode.isSteady = true)
    (oneLine : '\n' ∉ part.render.toList)
    (unchanged : nesting.reading.steps part.render.toList = .ok nesting.reading) :
    part.after? nesting = some nesting :=
  Part.after?_eq_some_iff.mpr ⟨Nesting.after?_of_steps unchanged, steady, oneLine⟩

theorem Part.after?_of_isInert
    {nesting : Nesting}
    {part : Part}
    (steady : nesting.mode.isSteady = true)
    (inert : IsInertText part.render) :
    part.after? nesting = some nesting := by
  refine Part.after?_of_steps steady (fun member => ?_)
    (nesting.reading.steps_of_isInert steady inert)
  cases inert _ member

/-- A name stands where another one can stand. -/
theorem Part.StandsFor.of_isInert
    {sample part : Part}
    (sampleInert : IsInertText sample.render)
    (inert : IsInertText part.render) :
    sample.StandsFor part := by
  intro nesting after steady read
  rw [Part.after?_of_isInert steady sampleInert] at read
  rw [Part.after?_of_isInert steady inert]
  exact read

/-- Whether a text can stand between double quotes. -/
structure IsQuotable (text : String) : Prop where
  noQuote : '\x22' ∉ text.toList
  noEscape : '\\' ∉ text.toList
  noBreak : '\n' ∉ text.toList

theorem Part.after?_of_lineComment
    {part : Part}
    (oneLine : '\n' ∉ part.render.toList)
    (opened : List Bracket) :
    part.after? ⟨.lineComment, opened⟩ = some ⟨.lineComment, opened⟩ :=
  Part.after?_of_steps rfl oneLine
    (Reading.steps_of_lineComment _ rfl oneLine)

theorem Part.after?_of_literal
    {part : Part}
    (quotable : IsQuotable part.render)
    (opened : List Bracket) :
    part.after? ⟨.literal '\x22', opened⟩ = some ⟨.literal '\x22', opened⟩ :=
  Part.after?_of_steps rfl quotable.noBreak
    (Reading.steps_of_literal _ rfl quotable.noEscape quotable.noBreak quotable.noQuote)

/-- A text that only literals and comments can hold. -/
def quotedSample : String := "[)"

/-- A text that only comments can hold. -/
def commentSample : String := "\x22[)\x22[)"

theorem quotedSample_isQuotable : IsQuotable quotedSample :=
  ⟨by decide, by decide, by decide⟩

/-- A text stands in comments where the sample for comments can stand. -/
theorem Part.StandsFor.of_comment
    {sample part : Part}
    (isSample : sample.render = commentSample)
    (oneLine : '\n' ∉ part.render.toList) :
    sample.StandsFor part := by
  intro nesting after steady read
  obtain ⟨mode, opened⟩ := nesting
  cases mode with
  | code =>
      rw [Part.after?, isSample] at read
      cases read
  | lineComment =>
      rw [Part.after?_of_lineComment (by rw [isSample]; decide)] at read
      rw [Part.after?_of_lineComment oneLine]
      exact read
  | literal quote =>
      obtain rfl : quote = '\x22' := by
        simpa [Mode.isSteady] using steady
      rw [Part.after?, isSample] at read
      cases read
  | slash | blockComment | escape | raw =>
      cases steady

/-- A text stands between double quotes, and in comments, where the sample can stand. -/
theorem Part.StandsFor.of_quotable
    {sample part : Part}
    (isSample : sample.render = quotedSample)
    (quotable : IsQuotable part.render) :
    sample.StandsFor part := by
  intro nesting after steady read
  have sampleQuotable : IsQuotable sample.render := isSample ▸ quotedSample_isQuotable
  obtain ⟨mode, opened⟩ := nesting
  cases mode with
  | code =>
      rw [Part.after?, isSample] at read
      cases read
  | lineComment =>
      rw [Part.after?_of_lineComment sampleQuotable.noBreak] at read
      rw [Part.after?_of_lineComment quotable.noBreak]
      exact read
  | literal quote =>
      obtain rfl : quote = '\x22' := by
        simpa [Mode.isSteady] using steady
      rw [Part.after?_of_literal sampleQuotable] at read
      rw [Part.after?_of_literal quotable]
      exact read
  | slash | blockComment | escape | raw =>
      cases steady

/-! Blocks of lines. -/

/-- Lines that stand for others part by part. -/
def StandFor (samples lines : List Line) : Prop :=
  List.Forall₂ (List.Forall₂ Part.StandsFor) samples lines

theorem parts_of_standFor
    {samples line : Line}
    (stand : List.Forall₂ Part.StandsFor samples line)
    {nesting after : Nesting}
    (steady : nesting.mode.isSteady = true)
    (read : samples.foldlM Part.after? nesting = some after) :
    line.foldlM Part.after? nesting = some after := by
  induction stand generalizing nesting with
  | nil =>
      exact read
  | cons stands _ inductionHypothesis =>
      rw [List.foldlM_cons] at read ⊢
      obtain ⟨between, sampleRead, restRead⟩ := Option.bind_eq_some_iff.mp read
      have steadyBetween := (Part.after?_eq_some_iff.mp sampleRead).2.1
      rw [stands nesting between steady sampleRead]
      exact inductionHypothesis steadyBetween restRead

theorem leadsTo?_of_standFor
    {samples lines : List Line}
    (stand : StandFor samples lines)
    {opened after : List Bracket}
    (read : leadsTo? opened samples = some after) :
    leadsTo? opened lines = some after := by
  induction stand generalizing opened with
  | nil =>
      exact read
  | cons stands _ inductionHypothesis =>
      rw [leadsTo?, List.foldlM_cons] at read ⊢
      obtain ⟨between, sampleRead, restRead⟩ := Option.bind_eq_some_iff.mp read
      obtain ⟨mode, parts, ends⟩ := Line.leadsTo?_eq_some_iff.mp sampleRead
      rw [Line.leadsTo?_eq_some_iff.mpr ⟨mode, parts_of_standFor stands rfl parts, ends⟩]
      exact inductionHypothesis restRead

/-- A block of lines that leads from some open brackets to others, inside any more of them. -/
def Leads (opened : List Bracket) (lines : List Line) (after : List Bracket) : Prop :=
  ∀ below, leadsTo? (opened ++ below) lines = some (after ++ below)

namespace Leads

variable {opened between after : List Bracket} {first second lines samples : List Line}

/-- What leads on for a sample does so for the lines for which it stands. -/
theorem of_sample
    (samples : List Line)
    {spelling : List (List (List Char))}
    (stand : StandFor samples lines)
    (spell : Spell samples spelling)
    (read : spellingLeadsTo? opened spelling = some after) :
    Leads opened lines after := by
  rw [← leadsTo?_of_spell spell] at read
  exact fun below => leadsTo?_within (leadsTo?_of_standFor stand read) below

/-- Lines without names are their own sample. -/
theorem of_spell
    {spelling : List (List (List Char))}
    (spell : Spell lines spelling)
    (read : spellingLeadsTo? opened spelling = some after) :
    Leads opened lines after := by
  rw [← leadsTo?_of_spell spell] at read
  exact fun below => leadsTo?_within read below

theorem nil
    (opened : List Bracket) :
    Leads opened [] opened :=
  fun _ => rfl

theorem within
    (leads : Leads opened lines after)
    (below : List Bracket) :
    Leads (opened ++ below) lines (after ++ below) := by
  intro further
  rw [List.append_assoc, List.append_assoc]
  exact leads (below ++ further)

theorem append
    (between : List Bracket)
    (leads : Leads opened first between)
    (goesOn : Leads between second after) :
    Leads opened (first ++ second) after := by
  intro below
  have firstRead := leads below
  have secondRead := goesOn below
  unfold leadsTo? at firstRead secondRead ⊢
  rw [List.foldlM_append, firstRead]
  exact secondRead

theorem cons
    {line : Line}
    (leads : Leads opened [line] between)
    (goesOn : Leads between lines after) :
    Leads opened (line :: lines) after :=
  append between leads goesOn

/-- Blocks that leave no bracket open do so together. -/
theorem flatMap
    {Item : Type}
    {items : List Item}
    {block : Item → List Line}
    (each : ∀ item ∈ items, Leads opened (block item) opened) :
    Leads opened (items.flatMap block) opened := by
  induction items with
  | nil =>
      exact nil opened
  | cons item rest inductionHypothesis =>
      rw [List.flatMap_cons]
      exact append opened (each item (by simp))
        (inductionHypothesis fun other member => each other (List.mem_cons_of_mem _ member))

theorem map
    {Item : Type}
    {items : List Item}
    {line : Item → Line}
    (each : ∀ item ∈ items, Leads opened [line item] opened) :
    Leads opened (items.map line) opened := by
  rw [List.map_eq_flatMap]
  exact flatMap each

end Leads

end RpcStubs.Artifact
