import Mathlib.Data.List.Forall2
import Mathlib.Data.List.Induction
import Mathlib.Data.List.TakeDrop
import RpcStubs.Artifact.Render
namespace RpcStubs

/-!
# What templates become

Which texts are templates, said by a grammar, and what a model makes of one.  A run with given
templates shows the fields of the model in the places where the template of the artifact names
them, and the templates of the module settings give the settings that are written without any.
-/

namespace Template

/-- Between its braces a field has its name and gaps around it. -/
structure SpellsField (inside : List Char) (name : String) : Prop where
  isName : isFieldName name.toList = true
  spelled : ∃ before after,
    inside = before ++ (name.toList ++ after) ∧
      (∀ character ∈ before, isGap character = true) ∧
      ∀ character ∈ after, isGap character = true

/-- A text is read as the pieces of a template. -/
inductive Reads : List Char → Template → Prop
  | nil : Reads [] []
  | plain {character : Char} {rest : List Char} {template : Template}
      (alone : character = '\x7b' → ∀ next ∈ rest.head?, next ∉ ['\x7b', '%', '#'])
      (read : Reads rest template) :
      Reads (character :: rest) (.plain character :: template)
  | field {inside rest : List Char} {name : String} {template : Template}
      (spells : SpellsField inside name)
      (read : Reads rest template) :
      Reads ('\x7b' :: '\x7b' :: (inside ++ '\x7d' :: '\x7d' :: rest)) (.field name :: template)

/-- The name of a field has no gap and no brace in it. -/
theorem inner_of_isFieldName
    {name : List Char}
    (isName : isFieldName name = true) :
    ∀ character ∈ name, isGap character = false ∧ character ≠ '\x7d' := by
  have inner : ∀ character : Char,
      (character.isAlphanum || character == '_') = true →
        isGap character = false ∧ character ≠ '\x7d' := by
    intro character allowed
    constructor
    · apply Bool.eq_false_iff.mpr
      intro gap
      simp only [isGap, Bool.or_eq_true, beq_iff_eq] at gap
      rcases gap with ((rfl | rfl) | rfl) | rfl <;> exact absurd allowed (by decide)
    · rintro rfl
      exact absurd allowed (by decide)
  cases name with
  | nil =>
      simp
  | cons first rest =>
      simp only [isFieldName, Package.isBareIdentifier, Bool.and_eq_true, Bool.or_eq_true,
        List.all_eq_true] at isName
      obtain ⟨⟨isFirst, others⟩, -⟩ := isName
      intro character member
      rcases List.mem_cons.mp member with rfl | later
      · refine inner _ ?_
        rcases isFirst with letter | underscore
        · simp [Char.isAlphanum, letter]
        · simp [underscore]
      · exact inner _ (by simpa using others _ later)

theorem fieldName?_eq_some_iff
    {inside : List Char}
    {name : String} :
    fieldName? inside = some name ↔ SpellsField inside name := by
  constructor
  · intro found
    unfold fieldName? at found
    dsimp only at found
    split at found
    · rename_i checked
      obtain rfl := Option.some.inj found
      obtain ⟨isName, closing⟩ := Bool.and_eq_true_iff.mp checked
      refine ⟨by simpa using isName, inside.takeWhile isGap, _, ?_, ?_,
        List.all_eq_true.mp closing⟩
      · rw [String.toList_ofList, List.takeWhile_append_dropWhile,
          List.takeWhile_append_dropWhile]
      · intro character member
        exact (List.all_eq_true.mp List.all_takeWhile) character member
    · cases found
  · rintro ⟨isName, before, after, rfl, opening, closing⟩
    have inner : ∀ character ∈ name.toList, (!isGap character) = true := by
      intro character member
      simp [(inner_of_isFieldName isName character member).1]
    have opened : (before ++ (name.toList ++ after)).dropWhile isGap = name.toList ++ after := by
      rw [List.dropWhile_append_of_pos opening]
      cases shape : name.toList with
      | nil =>
          simp [shape, isFieldName, Package.isBareIdentifier] at isName
      | cons first rest =>
          simp [by simpa using inner first (by simp [shape])]
    have outer : after.takeWhile (!isGap ·) = [] ∧ after.dropWhile (!isGap ·) = after := by
      cases after with
      | nil =>
          simp
      | cons first rest =>
          simp [closing first (by simp)]
    unfold fieldName?
    simp only [opened, List.takeWhile_append_of_pos inner, List.dropWhile_append_of_pos inner,
      outer, List.append_nil, isName, List.all_eq_true.mpr closing, Bool.and_self, if_true,
      String.ofList_toList]

/-- Between its braces a field has no closing brace. -/
theorem SpellsField.noBrace
    {inside : List Char}
    {name : String}
    (spells : SpellsField inside name) :
    '\x7d' ∉ inside := by
  obtain ⟨isName, before, after, rfl, opening, closing⟩ := spells
  intro member
  rcases List.mem_append.mp member with early | later
  · exact absurd (opening _ early) (by decide)
  rcases List.mem_append.mp later with inName | late
  · exact (inner_of_isFieldName isName _ inName).2 rfl
  · exact absurd (closing _ late) (by decide)

/-- A text without a closing brace ends at the first two of them. -/
theorem untilClosed_append
    {inside : List Char}
    (noBrace : '\x7d' ∉ inside)
    (after : List Char) :
    untilClosed (inside ++ '\x7d' :: '\x7d' :: after) = some (inside, after) := by
  induction inside with
  | nil =>
      rfl
  | cons first rest inductionHypothesis =>
      obtain ⟨other, others⟩ := not_or.mp (mt List.mem_cons.mpr noBrace)
      rw [List.cons_append, untilClosed, inductionHypothesis others]
      · rfl
      · rintro _ rfl
        exact absurd rfl other

theorem pieces?_cons
    {character : Char}
    {rest : List Char}
    (alone : character = '\x7b' → ∀ next ∈ rest.head?, next ∉ ['\x7b', '%', '#']) :
    pieces? (character :: rest) = (pieces? rest).map (.plain character :: ·) := by
  rw [pieces?]
  all_goals
    rintro later rfl rfl
    exact alone rfl _ rfl (by simp)

/-- The pieces of a text are what the text is read as, and only such texts have pieces. -/
theorem pieces?_eq_some_iff
    {text : List Char}
    {template : Template} :
    pieces? text = some template ↔ Reads text template := by
  constructor
  · intro found
    fun_induction pieces? text generalizing template with
    | case1 =>
        cases found
        exact .nil
    | case2 | case3 | case4 | case6 =>
        cases found
    | case5 rest inside after closed _ name named inductionHypothesis =>
        obtain ⟨pieces, readRest, rfl⟩ := Option.map_eq_some_iff.mp found
        rw [eq_of_untilClosed closed]
        exact .field (fieldName?_eq_some_iff.mp named) (inductionHypothesis readRest)
    | case7 character rest notStatement notComment notField inductionHypothesis =>
        obtain ⟨pieces, readRest, rfl⟩ := Option.map_eq_some_iff.mp found
        refine .plain ?_ (inductionHypothesis readRest)
        rintro rfl next isNext opens
        obtain ⟨later, rfl⟩ := List.head?_eq_some_iff.mp isNext
        simp only [List.mem_cons, List.not_mem_nil, or_false] at opens
        rcases opens with rfl | rfl | rfl
        · exact notField later rfl rfl
        · exact notStatement later rfl rfl
        · exact notComment later rfl rfl
  · intro read
    induction read with
    | nil =>
        rw [pieces?]
    | plain alone _ inductionHypothesis =>
        rw [pieces?_cons alone, inductionHypothesis, Option.map_some]
    | @field inside rest name template spells _ inductionHypothesis =>
        have closed := untilClosed_append spells.noBrace rest
        rw [pieces?]
        split
        · rename_i unclosed
          rw [closed] at unclosed
          cases unclosed
        · rename_i found
          rw [closed] at found
          cases found
          simp [fieldName?_eq_some_iff.mpr spells, inductionHypothesis]

theorem parse?_eq_some_iff
    {text : String}
    {template : Template} :
    parse? text = some template ↔ Reads text.toList template :=
  pieces?_eq_some_iff

/-- A text without an opening brace is read character by character. -/
theorem Reads.append
    {text rest : List Char}
    {template : Template}
    (plain : '\x7b' ∉ text)
    (read : Reads rest template) :
    Reads (text ++ rest) (text.map .plain ++ template) := by
  induction text with
  | nil =>
      exact read
  | cons first others inductionHypothesis =>
      obtain ⟨other, later⟩ := not_or.mp (mt List.mem_cons.mpr plain)
      exact .plain (fun same => absurd same.symm other) (inductionHypothesis later)

/-- The name of a field with one space on either side is read as the field. -/
theorem Reads.spaced
    {name : String}
    {rest : List Char}
    {template : Template}
    (isName : isFieldName name.toList = true)
    (read : Reads rest template) :
    Reads ("\x7b\x7b ".toList ++ (name.toList ++ (" \x7d\x7d".toList ++ rest)))
      (.field name :: template) := by
  have spells : SpellsField ([' '] ++ (name.toList ++ [' '])) name :=
    ⟨isName, [' '], [' '], rfl, by simp [isGap], by simp [isGap]⟩
  simpa using Reads.field spells read

/-- What a piece of a template becomes for a model that has its field. -/
inductive Shows (model : Model) : TemplatePiece → List Char → Prop
  | plain (character : Char) : Shows model (.plain character) [character]
  | field {name value : String} (known : value? model name = some value) :
      Shows model (.field name) value.toList

/-- Pieces that are shown stand in front of whatever becomes of the pieces after them. -/
theorem render_append
    {model : Model}
    {before : Template}
    {shown : List (List Char)}
    (shows : List.Forall₂ (Shows model) before shown)
    (after : Template) :
    render model (before ++ after) = (render model after).map (shown.flatten ++ ·) := by
  induction shows with
  | nil =>
      cases later : render model after <;> simp [later, Except.map]
  | cons first _ inductionHypothesis =>
      cases first with
      | plain character =>
          rw [List.cons_append, render, inductionHypothesis]
          cases render model after <;> rfl
      | field known =>
          rw [List.cons_append, render, known]
          simp only [inductionHypothesis]
          cases render model after <;> simp [Except.map]

/-- Characters of no field are shown as they are. -/
theorem shows_plain
    (model : Model)
    (text : List Char) :
    List.Forall₂ (Shows model) (text.map .plain) (text.map ([·])) := by
  rw [List.forall₂_map_left_iff, List.forall₂_map_right_iff, List.forall₂_same]
  exact fun character _ => .plain character

theorem map_eq_ok_iff
    {first : List Char}
    {rest : Except String (List Char)}
    {body : List Char} :
    rest.map (first ++ ·) = .ok body ↔ ∃ later, rest = .ok later ∧ body = first ++ later := by
  cases rest with
  | error name =>
      simp [Except.map]
  | ok later =>
      simp [Except.map, eq_comm]

theorem map_eq_error_iff
    {first : List Char}
    {rest : Except String (List Char)}
    {name : String} :
    rest.map (first ++ ·) = .error name ↔ rest = .error name := by
  cases rest <;> simp [Except.map]

/-- A template becomes a text exactly when its pieces become the texts that make it up. -/
theorem render_eq_ok_iff
    {model : Model}
    {template : Template}
    {body : List Char} :
    render model template = .ok body ↔
      ∃ texts, List.Forall₂ (Shows model) template texts ∧ body = texts.flatten := by
  constructor
  · intro rendered
    induction template generalizing body with
    | nil =>
        cases rendered
        exact ⟨[], .nil, rfl⟩
    | cons piece rest inductionHypothesis =>
        cases piece with
        | plain character =>
            obtain ⟨later, renderedRest, rfl⟩ := (@map_eq_ok_iff [character] _ _).mp rendered
            obtain ⟨texts, shown, rfl⟩ := inductionHypothesis renderedRest
            exact ⟨[character] :: texts, .cons (.plain character) shown, rfl⟩
        | field name =>
            unfold render at rendered
            split at rendered
            · rename_i value known
              obtain ⟨later, renderedRest, rfl⟩ := map_eq_ok_iff.mp rendered
              obtain ⟨texts, shown, rfl⟩ := inductionHypothesis renderedRest
              exact ⟨value.toList :: texts, .cons (.field known) shown, rfl⟩
            · cases rendered
  · rintro ⟨texts, shown, rfl⟩
    simpa [render, Except.map] using render_append shown []

/-- A template fails with the first of its fields that the model does not have. -/
theorem render_eq_error_iff
    {model : Model}
    {template : Template}
    {name : String} :
    render model template = .error name ↔
      ∃ before after texts,
        template = before ++ .field name :: after ∧
          List.Forall₂ (Shows model) before texts ∧
          value? model name = none := by
  constructor
  · intro failed
    induction template with
    | nil =>
        cases failed
    | cons piece rest inductionHypothesis =>
        have extended : ∀ text, Shows model piece text → render model rest = .error name →
            ∃ before after texts,
              piece :: rest = before ++ .field name :: after ∧
                List.Forall₂ (Shows model) before texts ∧
                value? model name = none := by
          intro text shows failedRest
          obtain ⟨before, after, texts, rfl, shown, unknown⟩ := inductionHypothesis failedRest
          exact ⟨piece :: before, after, text :: texts, rfl, .cons shows shown, unknown⟩
        cases piece with
        | plain character =>
            exact extended _ (.plain character) ((@map_eq_error_iff [character] _ _).mp failed)
        | field other =>
            unfold render at failed
            split at failed
            · rename_i value known
              exact extended _ (.field known) (map_eq_error_iff.mp failed)
            · rename_i unknown
              cases failed
              exact ⟨[], rest, [], rfl, .nil, unknown⟩
  · rintro ⟨before, after, texts, rfl, shown, unknown⟩
    rw [render_append shown, render, unknown]
    rfl

end Template

namespace Artifact

open Template

/-- A text is read as a template under the same name. -/
structure ReadsAs (source : String × String) (named : String × Template) : Prop where
  name : named.1 = source.1
  reads : Reads source.2.toList named.2

/-- The last text is read after the others, and its template stands in front of theirs. -/
theorem parseTemplates_concat
    (before : List (String × String))
    (source : String × String) :
    parseTemplates (before ++ [source]) =
      (parseTemplates before).bind fun earlier =>
        match parse? source.2 with
        | some template => .ok ((source.1, template) :: earlier)
        | none => .error (.render "templates" "Failed to parse templates") := by
  simp only [parseTemplates, List.foldlM_append, List.foldlM_cons, List.foldlM_nil, bind_pure]
  rfl

/-- The templates that are read hold one for each text, the last one first. -/
theorem parseTemplates_eq_ok_iff
    {sources : List (String × String)}
    {parsed : List (String × Template)} :
    parseTemplates sources = .ok parsed ↔ List.Forall₂ ReadsAs sources.reverse parsed := by
  induction sources using List.reverseRecOn generalizing parsed with
  | nil =>
      simp [parseTemplates, pure, Except.pure, eq_comm]
  | append_singleton before source inductionHypothesis =>
      have step : parseTemplates (before ++ [source]) = .ok parsed ↔
          ∃ earlier template, parseTemplates before = .ok earlier ∧
            parse? source.2 = some template ∧ parsed = (source.1, template) :: earlier := by
        rw [parseTemplates_concat]
        cases parseTemplates before <;> cases parse? source.2 <;> simp [Except.bind, eq_comm]
      rw [step, List.reverse_append, List.reverse_singleton, List.singleton_append,
        List.forall₂_cons_left_iff]
      simp only [inductionHypothesis, parse?, pieces?_eq_some_iff]
      constructor
      · rintro ⟨earlier, template, shown, reads, rfl⟩
        exact ⟨_, earlier, ⟨rfl, reads⟩, shown, rfl⟩
      · rintro ⟨⟨name, template⟩, earlier, ⟨rfl, reads⟩, shown, rfl⟩
        exact ⟨earlier, template, shown, reads, rfl⟩

/-- The template under a name is what the text under that name is read as. -/
theorem lookup_of_readsAs
    {sources : List (String × String)}
    {parsed : List (String × Template)}
    (read : List.Forall₂ ReadsAs sources parsed)
    (name : String) :
    parsed.lookup name = (sources.lookup name).bind parse? := by
  induction read with
  | nil =>
      rfl
  | @cons source named sources parsed readsAs _ inductionHypothesis =>
      obtain ⟨_, text⟩ := source
      obtain ⟨other, template⟩ := named
      obtain ⟨rfl, reads⟩ := readsAs
      simp only [List.lookup_cons]
      split
      · exact (parse?_eq_some_iff.mpr reads).symm
      · exact inductionHypothesis

/-- Texts all of which are templates. -/
def AreTemplates (sources : List (String × String)) : Prop :=
  ∀ source ∈ sources, ∃ template, Reads source.2.toList template

theorem areTemplates_iff
    {sources : List (String × String)} :
    AreTemplates sources ↔ ∃ parsed, parseTemplates sources = .ok parsed := by
  have inOrder : ∀ texts : List (String × String),
      AreTemplates texts ↔ ∃ parsed, List.Forall₂ ReadsAs texts parsed := by
    intro texts
    induction texts with
    | nil =>
        simp [AreTemplates]
    | cons source rest inductionHypothesis =>
        rw [AreTemplates, List.forall_mem_cons, ← AreTemplates, inductionHypothesis]
        constructor
        · rintro ⟨⟨template, reads⟩, parsed, read⟩
          exact ⟨(source.1, template) :: parsed, .cons ⟨rfl, reads⟩ read⟩
        · rintro ⟨_, read⟩
          cases read with
          | cons readsAs read =>
              exact ⟨⟨_, readsAs.reads⟩, _, read⟩
  simp only [parseTemplates_eq_ok_iff]
  rw [← inOrder]
  simp [AreTemplates]

theorem parseTemplates_of_unread
    {sources : List (String × String)}
    (unread : ¬AreTemplates sources) :
    parseTemplates sources = .error (.render "templates" "Failed to parse templates") := by
  rw [areTemplates_iff, not_exists] at unread
  induction sources using List.reverseRecOn with
  | nil =>
      exact absurd rfl (unread [])
  | append_singleton before source inductionHypothesis =>
      simp only [parseTemplates_concat] at unread ⊢
      cases earlier : parseTemplates before with
      | error failure =>
          rw [← inductionHypothesis (by simp [earlier]), earlier]
          rfl
      | ok parsed =>
          cases isTemplate : parse? source.2 with
          | none =>
              rfl
          | some template =>
              refine absurd ?_ (unread ((source.1, template) :: parsed))
              rw [earlier, isTemplate]
              rfl

variable {sources : List (String × String)} {artifact : Artifact} {model : Model}

/-- One text that is no template fails every artifact. -/
theorem renderWith_of_unread
    (unread : ¬AreTemplates sources) :
    renderWith sources artifact model =
      .error (.render "templates" "Failed to parse templates") := by
  rw [renderWith, parseTemplates_of_unread unread]
  rfl

/-- An artifact fails when no text has the name of its template. -/
theorem renderWith_of_absent
    (read : AreTemplates sources)
    (absent : sources.reverse.lookup artifact.template = none) :
    renderWith sources artifact model =
      .error (.render artifact.name s!"Template '{artifact.template}' not found") := by
  obtain ⟨parsed, isParsed⟩ := areTemplates_iff.mp read
  have found := lookup_of_readsAs (parseTemplates_eq_ok_iff.mp isParsed) artifact.template
  simp [renderWith, isParsed, found, absent, bind, Except.bind]
  rfl

/-- The template of an artifact is the last text of its name. -/
theorem renderWith_of_found
    (read : AreTemplates sources)
    {source : String}
    {template : Template}
    (last : sources.reverse.lookup artifact.template = some source)
    (reads : Reads source.toList template) :
    renderWith sources artifact model =
      match template.render model with
      | .ok body => .ok (withHeader (artifact.header model.generatedAt) (String.ofList body))
      | .error name => .error (.render artifact.name (unknownField artifact.template name)) := by
  obtain ⟨parsed, isParsed⟩ := areTemplates_iff.mp read
  have found := lookup_of_readsAs (parseTemplates_eq_ok_iff.mp isParsed) artifact.template
  rw [last, Option.bind_some, parse?_eq_some_iff.mpr reads] at found
  simp only [renderWith, isParsed, found, bind, Except.bind]
  cases template.render model <;> rfl

/--
What an artifact shows under given templates.

There is a text exactly when every given text is a template and the last one under the name of
the artifact's template only has fields of the model.  It is the header of the artifact, an empty
line, and that template with the values of the model in the places of its fields.
-/
theorem renderWith_eq_ok_iff
    {text : String} :
    renderWith sources artifact model = .ok text ↔
      AreTemplates sources ∧
        ∃ source template shown,
          sources.reverse.lookup artifact.template = some source ∧
            Reads source.toList template ∧
            List.Forall₂ (Shows model) template shown ∧
            text =
              withHeader (artifact.header model.generatedAt) (String.ofList shown.flatten) := by
  by_cases read : AreTemplates sources
  · cases last : sources.reverse.lookup artifact.template with
    | none =>
        simp [renderWith_of_absent read last]
    | some source =>
        constructor
        · obtain ⟨before, after, shape, _⟩ := List.lookup_eq_some_iff.mp last
          have given : (artifact.template, source) ∈ sources := by
            rw [← List.mem_reverse, shape]
            exact List.mem_append_cons_self
          obtain ⟨template, reads⟩ := read _ given
          rw [renderWith_of_found read last reads]
          intro succeeded
          cases rendered : template.render model with
          | error name =>
              rw [rendered] at succeeded
              cases succeeded
          | ok body =>
              rw [rendered] at succeeded
              cases succeeded
              obtain ⟨shown, shows, rfl⟩ := render_eq_ok_iff.mp rendered
              exact ⟨read, source, template, shown, rfl, reads, shows, rfl⟩
        · rintro ⟨-, other, template, shown, same, reads, shows, rfl⟩
          cases same
          rw [renderWith_of_found read last reads,
            render_eq_ok_iff.mpr ⟨shown, shows, rfl⟩]
  · simp [renderWith_of_unread read, read]

/-- An artifact fails with the first field of its template that the model does not have. -/
theorem renderWith_of_unknown
    (read : AreTemplates sources)
    {source name : String}
    {before after : Template}
    {shown : List (List Char)}
    (last : sources.reverse.lookup artifact.template = some source)
    (reads : Reads source.toList (before ++ .field name :: after))
    (shows : List.Forall₂ (Shows model) before shown)
    (unknown : value? model name = none) :
    renderWith sources artifact model =
      .error (.render artifact.name (unknownField artifact.template name)) := by
  rw [renderWith_of_found read last reads,
    render_eq_error_iff.mpr ⟨before, after, shown, rfl, shows, unknown⟩]

/-- The root of the messages, between the braces of a field. -/
def protoRootField : String := "\x7b\x7b proto_root \x7d\x7d"

/-- The texts around that field in the module settings for the message compiler. -/
def bufTexts : String × String :=
  ("version: v2\nmodules:\n  - path: ",
    "\nlint:\n  use:\n    - STANDARD\nbreaking:\n  use:\n    - FILE\n")

/-- The texts around that field in the plugin settings for the message compiler. -/
def bufGenTexts : String × String :=
  ("version: v2\nplugins:\n  - remote: buf.build/protocolbuffers/go\n    out: ",
    "\n    opt: paths=source_relative\n")

/-- The templates of the settings under their names. -/
def settingsSources : List (String × String) := [
  (buf.template, bufTexts.1 ++ protoRootField ++ bufTexts.2),
  (bufGen.template, bufGenTexts.1 ++ protoRootField ++ bufGenTexts.2)]

/-- A template that names the root of the messages between two texts is read as that. -/
theorem reads_protoRoot
    {opening closing : String}
    (plainOpening : '\x7b' ∉ opening.toList)
    (plainClosing : '\x7b' ∉ closing.toList) :
    Reads (opening ++ protoRootField ++ closing).toList
      (opening.toList.map .plain ++ .field "proto_root" ::
        (closing.toList.map .plain ++ [])) := by
  have isName : isFieldName "proto_root".toList = true := by
    decide
  have reads := Reads.append plainOpening (Reads.spaced isName (Reads.append plainClosing .nil))
  have spelled :
      (opening ++ protoRootField ++ closing).toList =
        opening.toList ++ ("\x7b\x7b ".toList ++ ("proto_root".toList ++
          (" \x7d\x7d".toList ++ (closing.toList ++ [])))) := by
    simp [protoRootField]
  rwa [← spelled] at reads

/--
A template that names the root of the messages and nothing else gives the file that is written
without it, when it has the texts of that file around the field.
-/
theorem renderWith_of_shown
    (read : AreTemplates sources)
    {opening closing : String}
    (last :
      sources.reverse.lookup artifact.template = some (opening ++ protoRootField ++ closing))
    (plainOpening : '\x7b' ∉ opening.toList)
    (plainClosing : '\x7b' ∉ closing.toList)
    (shown : textOf (artifact.lines model) = opening ++ model.protoRoot ++ closing) :
    renderWith sources artifact model = .ok (artifact.render model) := by
  rw [renderWith_of_found read last (reads_protoRoot plainOpening plainClosing),
    render_append (shows_plain _ _), Template.render, render_append (shows_plain _ _),
    Artifact.render, shown]
  simp [Template.render, value?, Except.map, String.append_assoc, ← List.flatMap_def]

theorem textOf_bufLines
    (model : Model) :
    textOf (bufLines model) = bufTexts.1 ++ model.protoRoot ++ bufTexts.2 := by
  apply String.toList_inj.mp
  simp only [textOf, bufLines, Line.render, fixed, Part.render, Text.join, List.map_cons,
    List.map_nil, List.foldl_cons, List.foldl_nil, String.toList_append, String.empty_append,
    bufTexts]
  repeat rewrite [String.toList_ofList]
  simp

theorem textOf_bufGenLines
    (model : Model) :
    textOf (bufGenLines model) = bufGenTexts.1 ++ model.protoRoot ++ bufGenTexts.2 := by
  apply String.toList_inj.mp
  simp only [textOf, bufGenLines, Line.render, fixed, Part.render, Text.join, List.map_cons,
    List.map_nil, List.foldl_cons, List.foldl_nil, String.toList_append, String.empty_append,
    bufGenTexts]
  repeat rewrite [String.toList_ofList]
  simp

theorem noBrace_bufTexts :
    '\x7b' ∉ bufTexts.1.toList ∧ '\x7b' ∉ bufTexts.2.toList := by
  simp only [bufTexts]
  repeat rewrite [String.toList_ofList]
  decide

theorem noBrace_bufGenTexts :
    '\x7b' ∉ bufGenTexts.1.toList ∧ '\x7b' ∉ bufGenTexts.2.toList := by
  simp only [bufGenTexts]
  repeat rewrite [String.toList_ofList]
  decide

theorem areTemplates_settingsSources :
    AreTemplates settingsSources := by
  have buf := reads_protoRoot noBrace_bufTexts.1 noBrace_bufTexts.2
  have bufGen := reads_protoRoot noBrace_bufGenTexts.1 noBrace_bufGenTexts.2
  exact List.forall_mem_cons.mpr ⟨⟨_, buf⟩, List.forall_mem_singleton.mpr ⟨_, bufGen⟩⟩

/-- From their templates, the settings are what they are when they are written without any. -/
theorem renderWith_settingsSources
    (model : Model) :
    renderWith settingsSources buf model = .ok (buf.render model) ∧
      renderWith settingsSources bufGen model = .ok (bufGen.render model) := by
  constructor
  · exact renderWith_of_shown areTemplates_settingsSources rfl noBrace_bufTexts.1
      noBrace_bufTexts.2 (textOf_bufLines model)
  · exact renderWith_of_shown areTemplates_settingsSources rfl noBrace_bufGenTexts.1
      noBrace_bufGenTexts.2 (textOf_bufGenLines model)

end Artifact

end RpcStubs
