import RpcStubs.Proofs.Model.Fits
import RpcStubs.Proofs.Run.Plan
namespace RpcStubs

open Files.Path Source Text

/-!
# Runs over accepted documents

The rendered text of a source file is its header, which leads from code to code, and lines
that close every bracket they open; layout keeps both.  Formatting therefore accepts every
artifact of a model that fits into code, and a run over an accepted document with plain names
can fail only while it writes.
-/

namespace Artifact

/-- The files of the build are not checked. -/
theorem not_isChecked
    (configuration : Configuration)
    {artifact : Artifact}
    (noSource : artifact.comment = .hash) :
    isChecked (artifact.target configuration) = false := by
  have unchecked (base name : String)
      (single : piecesOf name = [name] ∧ isAbsolute name = false ∧
        component? name = some (.name name))
      (quiet : fileName? name = some name ∧ isChecked name = false) :
      isChecked (join base name) = false := by
    have sameName := (fileName?_join base single.1 single.2.1 single.2.2).trans quiet.1.symm
    rw [isChecked, extension?_congr sameName]
    exact quiet.2
  cases artifact with
  | makefile =>
      exact unchecked configuration.moduleRoot "Makefile" (by decide) (by decide)
  | buf =>
      exact unchecked configuration.output "buf.yaml" (by decide) (by decide)
  | bufGen =>
      exact unchecked configuration.output "buf.gen.yaml" (by decide) (by decide)
  | client | server | pagination | proto | daemon | service | serviceTest =>
      cases noSource

/-- The text of a source file is accepted after layout. -/
theorem checkBrackets_render
    {artifact : Artifact}
    {model : Model}
    (fits : model.FitsCode)
    (isSource : artifact.comment = .slashes)
    (inert : IsInertText model.generatedAt) :
    checkBrackets (normalize (artifact.render model).toList) = .ok () := by
  have header : Nesting.after? {} ((artifact.header model.generatedAt).toList ++ ['\n', '\n']) =
      some {} :=
    Nesting.after?_eq_some_iff.mpr ⟨_, (artifact.isHeader inert).reads, rfl⟩
  obtain ⟨text, parts, others, character, shape, first, solid⟩ := exists_first_line artifact model
  obtain ⟨later, textShape⟩ := List.head?_eq_some_iff.mp first
  obtain ⟨balanced, oneLine⟩ := afterLines?_of_leadsTo? (lines_lead fits isSource [])
  have body : Nesting.after? {} (normalize (artifact.body model)) = some {} := by
    have single : ∀ line ∈ (artifact.lines model).map fun line => line.render.toList,
        '\n' ∉ line :=
      List.forall_mem_map.mpr oneLine
    rw [Artifact.body]
    rw [shape, List.map_cons] at balanced single ⊢
    refine Nesting.after?_normalize single ?_ balanced
    rw [Line.toList_render, List.flatMap_cons, Part.render, textShape, List.cons_append]
    obtain ⟨kept, trimmed⟩ := trimEnd_cons_solid solid
      (later ++ parts.flatMap fun part => part.render.toList)
    simp [trimmed]
  apply checkBrackets_of_after?
  rw [normalize_render artifact inert, List.append_cons, List.append_cons, Nesting.after?_append,
    List.append_assoc, List.singleton_append, header]
  exact body

end Artifact

namespace Plan

variable {configuration : Configuration} {model : Model}

/-- Every artifact of a model that fits is drafted. -/
theorem exists_draft
    (fits : model.FitsCode)
    (inert : IsInertText model.generatedAt)
    (configuration : Configuration)
    (artifact : Artifact) :
    ∃ made, draft Source.normal configuration model artifact = .ok made := by
  have formatted : ∃ content,
      normal (artifact.target configuration) (artifact.render model) = .ok content := by
    unfold normal
    dsimp only
    cases artifactComment : artifact.comment with
    | hash =>
        rw [Artifact.not_isChecked configuration artifactComment]
        exact ⟨_, rfl⟩
    | slashes =>
        rw [Artifact.checkBrackets_render fits artifactComment inert]
        split
        · exact ⟨_, rfl⟩
        · exact ⟨_, rfl⟩
  obtain ⟨content, accepted⟩ := formatted
  unfold draft
  dsimp only
  rw [accepted]
  exact ⟨_, rfl⟩

/-- All selected artifacts are drafted when each one is. -/
theorem exists_draftAll
    {formatter : Formatter}
    (each : ∀ artifact, ∃ made, draft formatter configuration model artifact = .ok made) :
    ∃ drafts, draftAll formatter configuration model = .ok drafts := by
  rw [draftAll]
  induction Artifact.selected model with
  | nil =>
      exact ⟨[], rfl⟩
  | cons artifact others inductionHypothesis =>
      obtain ⟨made, drafted⟩ := each artifact
      obtain ⟨rest, othersDrafted⟩ := inductionHypothesis
      rw [List.mapM_cons, drafted, othersDrafted]
      exact ⟨made :: rest, rfl⟩

/-- A document that uses plain names is planned as soon as its operations are extracted. -/
theorem exists_make
    {document : Document}
    {operations : List Operation}
    (plain : document.UsesPlainNames)
    (fits : configuration.FitsCode)
    (extracted : document.operations = .ok operations)
    (time : Instant) :
    ∃ plan, make Source.normal document configuration time = .ok plan := by
  have modelFits := Model.build_fitsCode plain fits extracted time
  obtain ⟨drafts, drafted⟩ :=
    exists_draftAll (exists_draft modelFits time.isInertText_render configuration)
  unfold make modelOf
  rw [extracted]
  simp only [bind, Except.bind, pure, Except.pure]
  rw [drafted]
  exact ⟨_, rfl⟩

end Plan

/-- Writing drafts fails only where the writer fails on one of them. -/
theorem Writer.writeAll_eq_error
    {State : Type}
    {writer : Writer (StateM State)}
    {drafts : List Draft}
    {state after : State}
    {failure : Failure}
    (ran : writeAll (m := StateM State) writer drafts state = (.error failure, after)) :
    ∃ draft ∈ drafts, ∃ before, writer draft before = (.error failure, after) := by
  induction drafts generalizing state with
  | nil =>
      cases ran
  | cons draft rest inductionHypothesis =>
      simp only [writeAll, bind, StateT.bind] at ran
      rcases wrote : writer draft state with ⟨result, between⟩
      rw [wrote] at ran
      cases result with
      | error other =>
          cases ran
          exact ⟨draft, by simp, state, wrote⟩
      | ok outcome =>
          rcases later : writeAll (m := StateM State) writer rest between with ⟨others, final⟩
          simp only [StateT.bind] at ran
          rw [later] at ran
          cases others with
          | error other =>
              cases ran
              obtain ⟨failing, member, failed⟩ := inductionHypothesis later
              exact ⟨failing, List.mem_cons_of_mem _ member, failed⟩
          | ok written =>
              cases ran

/--
Generation from an accepted document can fail only while writing.

Whatever its texts, its number of operations and the time, an accepted document that declares
plain names is extracted, and every selected artifact is rendered and passes the formatter.
A run then fails only where its writer fails on one of these drafts.
-/
theorem Document.accepted_isPlanned
    {document : Document}
    {configuration : Configuration}
    (accepted : document.violations = [])
    (plain : document.DeclaresPlainNames)
    (fits : configuration.FitsCode)
    (time : Instant) :
    ∃ plan,
      document.operations = .ok plan.model.operations ∧
        Plan.make Source.normal document configuration time = .ok plan ∧
        plan.drafts.map Draft.artifact = Artifact.selected plan.model ∧
        (∀ draft ∈ plan.drafts, draft.IsMade Source.normal configuration plan.model) ∧
        ∀ {State : Type} (writer : Writer (StateM State)) (state after : State)
          (failure : Failure),
          runDocument (m := StateM State) writer Source.normal document configuration time state =
              (.error failure, after) →
            ∃ draft ∈ plan.drafts, ∃ before, writer draft before = (.error failure, after) := by
  obtain ⟨operations, extracted, _⟩ := Convention.operations_of_violations_eq_nil accepted
  have usesPlain := usesPlainNames_of_accepted accepted plain
  obtain ⟨plan, made⟩ := Plan.exists_make usesPlain fits extracted time
  obtain ⟨inOrder, allMade⟩ := Plan.drafts_of_make made
  have planned : document.operations = .ok plan.model.operations := by
    obtain ⟨others, otherExtracted, isModel⟩ := Plan.exists_operations_of_make made
    rw [isModel]
    exact otherExtracted
  refine ⟨plan, planned, made, inOrder, allMade, fun writer state after failure ran => ?_⟩
  rw [runDocument, made] at ran
  simp only [Writer.carryOut, bind, StateT.bind] at ran
  rcases wrote : Writer.writeAll (m := StateM _) writer plan.drafts state with ⟨result, final⟩
  rw [wrote] at ran
  cases result with
  | error other =>
      cases ran
      exact Writer.writeAll_eq_error wrote
  | ok written =>
      cases ran

/-- A document that lists users and replies, with a text about its first call. -/
def notedDocument (text : String) : Document :=
  { repliesDocument with
    paths := Catalog.ofList [
      ("/v1/users.list", .inline
        { post := some { pageCall "#/components/schemas/Users" with summary := some text } }),
      ("/v1/replies.list", .inline { post := some (pageCall "#/components/schemas/Replies") })] }

theorem notedDocument_declaresPlainNames
    (text : String) :
    (notedDocument text).DeclaresPlainNames := by
  have plain : repliesDocument.DeclaresPlainNames := ⟨by decide, by decide⟩
  exact ⟨plain.schemas, plain.properties⟩

theorem plainConfiguration_fitsCode : plainConfiguration.FitsCode :=
  ⟨⟨"main", by decide⟩, ⟨by decide, by decide, by decide⟩, ⟨by decide, by decide, by decide⟩,
    by decide⟩

/-- A text that would open a literal and a bracket does no harm. -/
theorem notedDocument_isPlanned :
    (notedDocument "Lists \x22users (all").violations = [] ∧
      (notedDocument "Lists \x22users (all").DeclaresPlainNames ∧
      plainConfiguration.FitsCode ∧
      ∃ plan,
        Plan.make Source.normal (notedDocument "Lists \x22users (all") plainConfiguration ⟨0, 0⟩ =
            .ok plan ∧
          plan.drafts.map Draft.artifact = Artifact.selected plan.model := by
  have accepted : (notedDocument "Lists \x22users (all").violations = [] := by
    decide +kernel
  have plain := notedDocument_declaresPlainNames "Lists \x22users (all"
  obtain ⟨plan, _, made, inOrder, _⟩ :=
    Document.accepted_isPlanned accepted plain plainConfiguration_fitsCode ⟨0, 0⟩
  exact ⟨accepted, plain, plainConfiguration_fitsCode, plan, made, inOrder⟩

end RpcStubs
