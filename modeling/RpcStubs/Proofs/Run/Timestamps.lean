import RpcStubs.Proofs.Artifact.Header
import RpcStubs.Proofs.Run.Alike
namespace RpcStubs

open Source

/-!
# The time of a run

The time of a run stands in the headers of its files and nowhere else.  A run at another time
succeeds exactly when the first one does, and then differs from it in the first lines only.
-/

/--
Two drafts of one artifact for one path, with headers of their times and one body.

The header is the first line, the second one is empty, and the body starts with no blank.
-/
structure Draft.SharesBody (stamp otherStamp : String) (draft other : Draft) : Prop where
  artifact : draft.artifact = other.artifact
  path : draft.path = other.path
  oneLine : '\n' ∉ (draft.artifact.header stamp).toList ∧
    '\n' ∉ (other.artifact.header otherStamp).toList
  body : ∃ character rest,
    Text.isBlank character = false ∧
      draft.content =
        draft.artifact.header stamp ++ "\n" ++ "\n" ++ String.ofList (character :: rest) ∧
      other.content =
        other.artifact.header otherStamp ++ "\n" ++ "\n" ++ String.ofList (character :: rest)

/-- Models that differ in their times only. -/
def Model.DiffersInTime (first second : Instant) (model image : Model) : Prop :=
  model.generatedAt = first.render ∧ image = { model with generatedAt := second.render }

/-- What follows a header is checked alike, whatever the time in the header. -/
theorem checkBrackets_headed
    {header other : List Char}
    (isHeader : Artifact.IsHeader header)
    (otherIsHeader : Artifact.IsHeader other)
    (text : List Char) :
    checkBrackets (header ++ '\n' :: '\n' :: text) =
      checkBrackets (other ++ '\n' :: '\n' :: text) := by
  have shape (line : List Char) :
      line ++ '\n' :: '\n' :: text = (line ++ ['\n', '\n']) ++ text := by
    simp
  rw [checkBrackets, checkBrackets, shape header, shape other,
    Reading.steps_append _ (header ++ _), Reading.steps_append _ (other ++ _), isHeader.reads,
    otherIsHeader.reads]

/-- Two headers in front of one text are both formatted, or fail in the same way. -/
theorem normal_headed
    {header other text : List Char}
    {source image : String}
    (isHeader : Artifact.IsHeader header)
    (otherIsHeader : Artifact.IsHeader other)
    (laidOut : normalize source.toList = header ++ '\n' :: '\n' :: text)
    (otherLaidOut : normalize image.toList = other ++ '\n' :: '\n' :: text)
    (path : String) :
    Alike
      (fun content contentImage =>
        content = String.ofList header ++ "\n" ++ "\n" ++ String.ofList text ∧
          contentImage = String.ofList other ++ "\n" ++ "\n" ++ String.ofList text)
      (normal path source) (normal path image) := by
  have written (line : List Char) :
      String.ofList (line ++ '\n' :: '\n' :: text) =
        String.ofList line ++ "\n" ++ "\n" ++ String.ofList text :=
    String.toList_inj.mp (by simp)
  have sameCheck := checkBrackets_headed isHeader otherIsHeader text
  unfold normal
  rw [laidOut, otherLaidOut]
  dsimp only
  rw [← sameCheck, written, written]
  split
  · split
    · exact .succeeded ⟨rfl, rfl⟩
    · exact .failed _
  · exact .succeeded ⟨rfl, rfl⟩

/-- The drafts of an artifact at two times fail alike, or share their body. -/
theorem Plan.draft_sharesBody
    (configuration : Configuration)
    {first second : Instant}
    {model image : Model}
    (differs : model.DiffersInTime first second image)
    (artifact : Artifact) :
    Alike (Draft.SharesBody first.render second.render)
      (draft Source.normal configuration model artifact)
      (draft Source.normal configuration image artifact) := by
  have stamp : model.generatedAt = first.render := differs.1
  have otherStamp : image.generatedAt = second.render := by
    rw [differs.2]
  have sameBody : artifact.body image = artifact.body model := by
    rw [differs.2, Artifact.body_generatedAt]
  have inert := first.isInertText_render
  have otherInert := second.isInertText_render
  have laidOut := artifact.normalize_render (stamp ▸ inert)
  have otherLaidOut := artifact.normalize_render (otherStamp ▸ otherInert)
  obtain ⟨character, rest, starts, solid⟩ := artifact.exists_body model
  -- A body that starts with no blank keeps its first character, so that the third line is solid.
  obtain ⟨later, keeps⟩ := exists_normalize solid rest
  rw [stamp, starts, keeps] at laidOut
  rw [otherStamp, sameBody, starts, keeps] at otherLaidOut
  have isHeader := artifact.isHeader inert
  have otherIsHeader := artifact.isHeader otherInert
  have formatted := normal_headed isHeader otherIsHeader laidOut otherLaidOut
    (artifact.target configuration)
  rw [String.ofList_toList, String.ofList_toList] at formatted
  refine formatted.bind fun content contentImage relates => .succeeded ⟨rfl, rfl, ?_, ?_⟩
  · exact ⟨isHeader.oneLine, otherIsHeader.oneLine⟩
  · exact ⟨character, later, solid, relates⟩

/--
Only the first lines of what a run writes depend on its time.

Runs over one document at two times both fail, for the same reason and with nothing written,
or both succeed and write the selected artifacts in the same order to the same paths.  The first
line of each is its header with the time that the run reports, the second is empty, and the
third is not blank; from the second on the contents are equal.
-/
theorem recordRun_differs_in_headers
    (outcome : Draft → WriteOutcome)
    (document : Document)
    (configuration : Configuration)
    (first second : Instant) :
    (∃ failure,
      recordRun outcome Source.normal document configuration first = (.error failure, []) ∧
        recordRun outcome Source.normal document configuration second = (.error failure, [])) ∨
      ∃ model result image drafts images,
        Plan.modelOf document configuration first = .ok model ∧
          drafts.map Draft.artifact = Artifact.selected model ∧
          recordRun outcome Source.normal document configuration first = (.ok result, drafts) ∧
          recordRun outcome Source.normal document configuration second = (.ok image, images) ∧
          result.generatedAt = first.render ∧
          image.generatedAt = second.render ∧
          List.Forall₂ (Draft.SharesBody result.generatedAt image.generatedAt) drafts images := by
  have models : Alike (Model.DiffersInTime first second)
      (Plan.modelOf document configuration first) (Plan.modelOf document configuration second) := by
    unfold Plan.modelOf
    cases document.operations with
    | error failure =>
        exact .failed failure
    | ok operations =>
        exact .succeeded ⟨rfl, rfl⟩
  have plans :=
    Plan.make_alike models (fun model image differs => by rw [differs.2]; rfl)
      fun model image differs => Plan.draft_sharesBody configuration differs
  rcases recordRun_cases outcome plans with
    failed | ⟨plan, image, made, ran, imageRan, differs, share⟩
  · exact Or.inl failed
  · have stamp : plan.model.generatedAt = first.render := differs.1
    have otherStamp : image.model.generatedAt = second.render := by
      rw [differs.2]
    refine Or.inr ⟨plan.model, _, _, _, _, Plan.modelOf_of_make made,
      (Plan.drafts_of_make made).1, ran, imageRan, stamp, otherStamp, ?_⟩
    simpa only [Plan.recorded, stamp, otherStamp] using share

end RpcStubs
