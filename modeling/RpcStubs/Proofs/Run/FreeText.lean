import RpcStubs.Proofs.Extraction.Texts
import RpcStubs.Proofs.Run.Accepted
import RpcStubs.Proofs.Run.Alike
import RpcStubs.Proofs.Source.Comments
namespace RpcStubs

open Source Text

/-!
# Free texts stay in comments

Runs over documents that differ in the texts of their calls are compared through what is left
when the texts are erased.  Only two artifacts show summaries at all, each in a line of
comment below another one, so that their lines of code are the same.
-/

/-- Two drafts of one artifact for one path that differ in comments only, and only if its
methods are commented with summaries. -/
structure Draft.SharesCode (draft other : Draft) : Prop where
  artifact : draft.artifact = other.artifact
  path : draft.path = other.path
  content : draft.artifact ≠ .client → draft.artifact ≠ .service → draft.content = other.content
  code : codeLines (lines draft.content.toList) = codeLines (lines other.content.toList)

theorem Draft.SharesCode.refl
    (draft : Draft) :
    draft.SharesCode draft :=
  ⟨rfl, rfl, fun _ _ => rfl, rfl⟩

/-- Models that are the same without their summaries have one time. -/
theorem Model.generatedAt_eq
    {model image : Model}
    (sameRest : model.withoutSummaries = image.withoutSummaries) :
    model.generatedAt = image.generatedAt := by
  have sameTime := congrArg Model.generatedAt sameRest
  exact sameTime

namespace Artifact

/-- A line as it stands in normal layout. -/
def laidOut (line : Line) : List Char :=
  trimEnd line.render.toList

/-- A line that starts as a comment is one in normal layout. -/
theorem isComment_laidOut
    (parts : List Part) :
    isComment (laidOut (.text "// " :: parts)) = true := by
  rw [laidOut, Line.toList_render, List.flatMap_cons, Part.render]
  exact isComment_trimEnd (' ' :: parts.flatMap fun part => part.render.toList)

/-- A summary below another comment is dropped where there is none. -/
theorem dropsComments_summaryLines
    (operation : Operation)
    (parts : List Part)
    (code : List Line) :
    DropsComments
      ((fixed "" :: (.text "// " :: parts) :: (summaryLines operation ++ code)).map laidOut)
      ((fixed "" :: (.text "// " :: parts) :: code).map laidOut) := by
  unfold summaryLines
  split
  · exact .refl _
  · exact .line _ (.comment (isComment_laidOut parts) (isComment_laidOut _) (.refl _))

theorem dropsComments_clientMethod
    (operation : Operation) :
    DropsComments ((clientMethod operation).map laidOut)
      ((clientMethod operation.withoutSummary).map laidOut) :=
  dropsComments_summaryLines operation _ _

theorem dropsComments_implementation
    (operation : Operation) :
    DropsComments ((implementation operation).map laidOut)
      ((implementation operation.withoutSummary).map laidOut) :=
  dropsComments_summaryLines operation _ _

/-- Lines with a block for each operation drop what the blocks drop. -/
theorem dropsComments_blocks
    {block : Operation → List Line}
    (each : ∀ operation, DropsComments ((block operation).map laidOut)
      ((block operation.withoutSummary).map laidOut))
    (front : List Line)
    (operations : List Operation) :
    DropsComments ((front ++ operations.flatMap block).map laidOut)
      ((front ++ (operations.map Operation.withoutSummary).flatMap block).map laidOut) := by
  rw [List.map_append, List.map_append, List.flatMap_map, List.map_flatMap, List.map_flatMap]
  exact (DropsComments.refl _).append (.flatMap operations each)

section Model

variable (model : Model)

theorem isEmpty_withoutSummaries :
    model.withoutSummaries.operations.isEmpty = model.operations.isEmpty := by
  simp [Model.withoutSummaries]

/-- No other artifact shows summaries. -/
theorem lines_withoutSummaries
    {artifact : Artifact}
    (noClient : artifact ≠ .client)
    (noService : artifact ≠ .service) :
    artifact.lines model.withoutSummaries = artifact.lines model := by
  cases artifact with
  | client =>
      exact (noClient rfl).elim
  | service =>
      exact (noService rfl).elim
  | server =>
      simp only [lines, serverLines, messageImport, isEmpty_withoutSummaries]
      simp only [Model.withoutSummaries, List.map_map]
      rfl
  | pagination =>
      simp only [lines, paginationLines, Model.withoutSummaries, List.flatMap_map]
      rfl
  | daemon =>
      simp only [lines, daemonLines, Model.withoutSummaries, List.length_map]
  | serviceTest =>
      simp only [lines, serviceTestLines, testImport, isEmpty_withoutSummaries]
      simp only [Model.withoutSummaries, List.flatMap_map]
      rfl
  | proto | makefile | buf | bufGen =>
      rfl

theorem dropsComments_clientLines :
    DropsComments ((clientLines model).map laidOut)
      ((clientLines model.withoutSummaries).map laidOut) := by
  simp only [clientLines, messageImport, constantBlock, isEmpty_withoutSummaries]
  simp only [Model.withoutSummaries, List.map_map]
  exact dropsComments_blocks dropsComments_clientMethod _ model.operations

theorem dropsComments_serviceLines :
    DropsComments ((serviceLines model).map laidOut)
      ((serviceLines model.withoutSummaries).map laidOut) := by
  simp only [serviceLines, serviceImport, isEmpty_withoutSummaries]
  exact dropsComments_blocks dropsComments_implementation _ model.operations

/-- Every artifact of a model drops the comments that it does not have without summaries. -/
theorem dropsComments_lines
    (artifact : Artifact) :
    DropsComments ((artifact.lines model).map laidOut)
      ((artifact.lines model.withoutSummaries).map laidOut) := by
  by_cases isClient : artifact = .client
  · rw [isClient]
    exact dropsComments_clientLines model
  · by_cases isService : artifact = .service
    · rw [isService]
      exact dropsComments_serviceLines model
    · rw [lines_withoutSummaries model isClient isService]
      exact .refl _

/-- The selected artifacts do not depend on summaries. -/
theorem selected_withoutSummaries :
    selected model.withoutSummaries = selected model := by
  have sameSelection : isSelected model.withoutSummaries = isSelected model := by
    funext artifact
    simp [isSelected, Model.withoutSummaries]
  rw [selected, selected, sameSelection]

end Model

/-- Nothing but the client and the service depends on summaries. -/
theorem render_eq_of_sameRest
    {artifact : Artifact}
    {model image : Model}
    (noClient : artifact ≠ .client)
    (noService : artifact ≠ .service)
    (sameRest : model.withoutSummaries = image.withoutSummaries) :
    artifact.render model = artifact.render image := by
  rw [render, render, Model.generatedAt_eq sameRest,
    ← lines_withoutSummaries model noClient noService, sameRest,
    lines_withoutSummaries image noClient noService]

/-- The lines of an artifact in normal layout, if its lines are single ones. -/
theorem normalLines_render
    (artifact : Artifact)
    {model : Model}
    (inert : IsInertText model.generatedAt)
    (oneLine : ∀ line ∈ artifact.lines model, '\n' ∉ line.render.toList) :
    normalLines (artifact.render model).toList =
      squeeze false
        (trimEnd (artifact.header model.generatedAt).toList :: [] ::
          (artifact.lines model).map laidOut) := by
  have header := artifact.isHeader inert
  have solid : trimEnd (artifact.header model.generatedAt).toList ≠ [] := by
    rw [header.trimmed]
    exact header.nonempty
  rw [toList_render_eq_ended, texts, normalLines_ended ?oneLine solid]
  · simp only [List.map_cons, List.map_map]
    rfl
  · intro line member
    rcases List.mem_cons.mp member with rfl | later
    · exact header.oneLine
    · rcases List.mem_cons.mp later with rfl | inBody
      · simp
      · obtain ⟨original, isLine, rfl⟩ := List.mem_map.mp inBody
        exact oneLine original isLine

/-- The lines of code of a source file do not depend on summaries. -/
theorem codeLines_render
    {artifact : Artifact}
    {model image : Model}
    (isSource : artifact.comment = .slashes)
    (fits : model.FitsCode)
    (imageFits : image.FitsCode)
    (inert : IsInertText model.generatedAt)
    (sameRest : model.withoutSummaries = image.withoutSummaries) :
    codeLines (normalLines (artifact.render model).toList) =
      codeLines (normalLines (artifact.render image).toList) := by
  have sameStamp := Model.generatedAt_eq sameRest
  have single {written : Model} (writtenFits : written.FitsCode) :
      ∀ line ∈ artifact.lines written, '\n' ∉ line.render.toList :=
    (afterLines?_of_leadsTo? (lines_lead writtenFits isSource [])).2
  have headed (written : Model) :=
    ((dropsComments_lines written artifact).line []).line
      (trimEnd (artifact.header model.generatedAt).toList)
  rw [artifact.normalLines_render inert (single fits),
    artifact.normalLines_render (sameStamp ▸ inert) (single imageFits), ← sameStamp,
    (headed model).codeLines_squeeze, (headed image).codeLines_squeeze, sameRest]

end Artifact

/-- What passes the formatter has the normal lines of its source. -/
theorem Source.lines_of_normal
    {path source content : String}
    (formatted : normal path source = .ok content) :
    lines content.toList = normalLines source.toList := by
  unfold normal at formatted
  dsimp only at formatted
  split at formatted
  · split at formatted
    · rw [← Except.ok.inj formatted, String.toList_ofList, lines_normalize]
    · cases formatted
  · rw [← Except.ok.inj formatted, String.toList_ofList, lines_normalize]

/-- Models of one time that fit into code, and are the same without their summaries. -/
structure Model.SharesCode (time : Instant) (model image : Model) : Prop where
  fits : model.FitsCode
  imageFits : image.FitsCode
  generatedAt : model.generatedAt = time.render
  sameRest : model.withoutSummaries = image.withoutSummaries

/-- The drafts of an artifact for models that share their code do so, or fail alike. -/
theorem Plan.draft_sharesCode
    (configuration : Configuration)
    {time : Instant}
    {model image : Model}
    (shares : model.SharesCode time image)
    (artifact : Artifact) :
    Alike Draft.SharesCode (draft Source.normal configuration model artifact)
      (draft Source.normal configuration image artifact) := by
  have sameStamp := Model.generatedAt_eq shares.sameRest
  have inert : IsInertText model.generatedAt :=
    shares.generatedAt ▸ time.isInertText_render
  -- Only the client and the service show summaries: both are drafted, whatever these say.
  by_cases commented : artifact = .client ∨ artifact = .service
  · have isSource : artifact.comment = .slashes := by
      rcases commented with rfl | rfl <;> rfl
    obtain ⟨made, drafted⟩ := exists_draft shares.fits inert configuration artifact
    obtain ⟨other, otherDrafted⟩ :=
      exists_draft shares.imageFits (sameStamp ▸ inert) configuration artifact
    rw [drafted, otherDrafted]
    obtain ⟨isFor, isMade⟩ := draft_eq_ok drafted
    obtain ⟨otherIsFor, otherIsMade⟩ := draft_eq_ok otherDrafted
    refine .succeeded ⟨isFor.trans otherIsFor.symm, ?_, fun noClient noService => ?_, ?_⟩
    · rw [isMade.path, otherIsMade.path, isFor, otherIsFor]
    · rw [isFor] at noClient noService
      exact (commented.elim noClient noService).elim
    · rw [lines_of_normal isMade.content, lines_of_normal otherIsMade.content, isFor, otherIsFor]
      exact Artifact.codeLines_render isSource shares.fits shares.imageFits inert shares.sameRest
  · rw [not_or] at commented
    have sameDraft : draft Source.normal configuration model artifact =
        draft Source.normal configuration image artifact := by
      rw [draft, draft, Artifact.render_eq_of_sameRest commented.1 commented.2 shares.sameRest]
    rw [sameDraft]
    cases draft Source.normal configuration image artifact with
    | error failure =>
        exact .failed failure
    | ok made =>
        exact .succeeded (.refl made)

/-- The models of documents that differ in texts share their code, or fail alike. -/
theorem Plan.modelOf_sharesCode
    {first second : Document}
    {configuration : Configuration}
    (sameRest : first.withoutTexts = second.withoutTexts)
    (firstPlain : first.UsesPlainNames)
    (secondPlain : second.UsesPlainNames)
    (fits : configuration.FitsCode)
    (time : Instant) :
    Alike (Model.SharesCode time) (modelOf first configuration time)
      (modelOf second configuration time) := by
  have sameOperations : first.operations.map (List.map Operation.withoutSummary) =
      second.operations.map (List.map Operation.withoutSummary) := by
    rw [← Document.operations_withoutTexts, ← Document.operations_withoutTexts, sameRest]
  have sameModels : (modelOf first configuration time).map Model.withoutSummaries =
      (modelOf second configuration time).map Model.withoutSummaries := by
    rw [← modelOf_withoutTexts, ← modelOf_withoutTexts, sameRest]
  -- Both documents are extracted or neither is, and the failures are the same one.
  unfold modelOf at sameModels ⊢
  cases extracted : first.operations with
  | error failure =>
      rw [extracted] at sameOperations
      cases otherExtracted : second.operations with
      | error other =>
          rw [otherExtracted] at sameOperations
          cases sameOperations
          exact .failed failure
      | ok others =>
          rw [otherExtracted] at sameOperations
          cases sameOperations
  | ok operations =>
      rw [extracted] at sameOperations sameModels
      cases otherExtracted : second.operations with
      | error other =>
          rw [otherExtracted] at sameOperations
          cases sameOperations
      | ok others =>
          rw [otherExtracted] at sameModels
          exact .succeeded ⟨Model.build_fitsCode firstPlain fits extracted time,
            Model.build_fitsCode secondPlain fits otherExtracted time, rfl,
            Except.ok.inj sameModels⟩

/--
The free texts of a document do not reach code.

Runs over two documents that differ in the summaries and descriptions of their calls only
both fail, for the same reason and with nothing written, or both succeed and write the selected
artifacts in the same order to the same paths.  The client and the service then have the same
lines apart from those that start as comments, and everything else is equal.
-/
theorem recordRun_sharesCode
    (outcome : Draft → WriteOutcome)
    {first second : Document}
    {configuration : Configuration}
    (sameRest : first.withoutTexts = second.withoutTexts)
    (firstPlain : first.UsesPlainNames)
    (secondPlain : second.UsesPlainNames)
    (fits : configuration.FitsCode)
    (time : Instant) :
    (∃ failure,
      recordRun outcome Source.normal first configuration time = (.error failure, []) ∧
        recordRun outcome Source.normal second configuration time = (.error failure, [])) ∨
      ∃ model result image drafts images,
        Plan.modelOf first configuration time = .ok model ∧
          drafts.map Draft.artifact = Artifact.selected model ∧
          recordRun outcome Source.normal first configuration time = (.ok result, drafts) ∧
          recordRun outcome Source.normal second configuration time = (.ok image, images) ∧
          List.Forall₂ Draft.SharesCode drafts images := by
  have models := Plan.modelOf_sharesCode sameRest firstPlain secondPlain fits time
  have plans :=
    Plan.make_alike models
      (fun model image shares => by
        rw [← Artifact.selected_withoutSummaries model, shares.sameRest,
          Artifact.selected_withoutSummaries])
      fun model image shares => Plan.draft_sharesCode configuration shares
  rcases recordRun_cases outcome plans with
    failed | ⟨plan, image, made, ran, imageRan, _, share⟩
  · exact Or.inl failed
  · exact Or.inr ⟨plan.model, _, _, _, _, Plan.modelOf_of_make made,
      (Plan.drafts_of_make made).1, ran, imageRan, share⟩

/-- A text that would open a literal and one that would end a comment lead to the same code. -/
theorem notedDocuments_shareCode :
    let first := notedDocument "Lists \x22users (all"
    let second := notedDocument "*/ func main() \x7b\r\n"
    first.withoutTexts = second.withoutTexts ∧
      first.UsesPlainNames ∧
      second.UsesPlainNames ∧
      plainConfiguration.FitsCode ∧
      ∃ model result image drafts images,
        Plan.modelOf first plainConfiguration ⟨0, 0⟩ = .ok model ∧
          drafts.map Draft.artifact = Artifact.selected model ∧
          recordRun (fun _ => .created) Source.normal first plainConfiguration ⟨0, 0⟩ =
            (.ok result, drafts) ∧
          recordRun (fun _ => .created) Source.normal second plainConfiguration ⟨0, 0⟩ =
            (.ok image, images) ∧
          List.Forall₂ Draft.SharesCode drafts images := by
  intro first second
  have fits := plainConfiguration_fitsCode
  have sameRest : first.withoutTexts = second.withoutTexts := rfl
  have accepted : first.violations = [] := by
    decide +kernel
  have firstPlain : first.UsesPlainNames :=
    Document.usesPlainNames_of_accepted accepted (notedDocument_declaresPlainNames _)
  have secondPlain : second.UsesPlainNames :=
    Document.usesPlainNames_of_accepted (by decide +kernel) (notedDocument_declaresPlainNames _)
  refine ⟨sameRest, firstPlain, secondPlain, fits, ?_⟩
  rcases recordRun_sharesCode (fun _ => .created) sameRest firstPlain secondPlain fits ⟨0, 0⟩ with
    ⟨failure, failed, _⟩ | succeeded
  · obtain ⟨operations, extracted, _⟩ := Convention.operations_of_violations_eq_nil accepted
    obtain ⟨plan, made⟩ := Plan.exists_make firstPlain fits extracted ⟨0, 0⟩
    rw [recordRun_eq, made] at failed
    cases failed
  · exact succeeded

end RpcStubs
