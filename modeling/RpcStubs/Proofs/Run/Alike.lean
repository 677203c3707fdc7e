import Mathlib.Data.List.Forall2
import RpcStubs.Proofs.Run.Plan
import RpcStubs.Run.Writing
namespace RpcStubs

/-!
# Runs side by side

Two runs are compared by their results: both fail for the same reason, or both succeed and
what they come to is related.  Artifacts whose drafts are related one by one make plans that
are, and so do plans that are written by a writer that accepts everything.
-/

/-- Two results with the same reason to fail, or with related values. -/
inductive Alike {Reason First Second : Type} (related : First → Second → Prop) :
    Except Reason First → Except Reason Second → Prop
  | failed (reason : Reason) : Alike related (.error reason) (.error reason)
  | succeeded {first : First} {second : Second} (relates : related first second) :
      Alike related (.ok first) (.ok second)

namespace Alike

variable {Reason First Second Third Fourth : Type} {related : First → Second → Prop}
  {further : Third → Fourth → Prop}

/-- Results that are alike go on to results that are. -/
theorem bind
    {first : Except Reason First}
    {second : Except Reason Second}
    {next : First → Except Reason Third}
    {other : Second → Except Reason Fourth}
    (alike : Alike related first second)
    (goesOn : ∀ value image, related value image → Alike further (next value) (other image)) :
    Alike further (first >>= next) (second >>= other) := by
  cases alike with
  | failed reason =>
      exact .failed reason
  | succeeded relates =>
      exact goesOn _ _ relates

/-- Results that are alike for each element are alike for the whole list. -/
theorem mapM
    {Item : Type}
    {items : List Item}
    {first : Item → Except Reason First}
    {second : Item → Except Reason Second}
    (each : ∀ item ∈ items, Alike related (first item) (second item)) :
    Alike (List.Forall₂ related) (items.mapM first) (items.mapM second) := by
  induction items with
  | nil =>
      exact .succeeded .nil
  | cons item rest inductionHypothesis =>
      rw [List.mapM_cons, List.mapM_cons]
      refine (each item (by simp)).bind fun value image relates => ?_
      refine (inductionHypothesis fun other member => each other (by simp [member])).bind ?_
      exact fun values images relate => .succeeded (.cons relates relate)

end Alike

/-- The writer that accepts every draft, and keeps them in the order in which they come. -/
def Writer.recording (outcome : Draft → WriteOutcome) : Writer (StateM (List Draft)) :=
  fun draft recorded => (.ok (outcome draft), recorded ++ [draft])

/-- A run that is only recorded: what it reports, and the drafts that it would have written. -/
def recordRun (outcome : Draft → WriteOutcome) (formatter : Source.Formatter)
    (document : Document) (configuration : Configuration) (time : Instant) :
    Except Failure RunResult × List Draft :=
  runDocument (m := StateM (List Draft)) (Writer.recording outcome) formatter document
    configuration time []

/-- What a recorded run reports of a plan. -/
def Plan.recorded (plan : Plan) (outcome : Draft → WriteOutcome) : RunResult where
  written := plan.drafts.map fun draft => ⟨draft.artifact.name, draft.path, outcome draft⟩
  operationCount := plan.model.operations.length
  listCount := plan.model.lists.length
  generatedAt := plan.model.generatedAt

theorem Writer.writeAll_recording
    (outcome : Draft → WriteOutcome)
    (drafts recorded : List Draft) :
    writeAll (m := StateM (List Draft)) (recording outcome) drafts recorded =
      (.ok (drafts.map fun draft => ⟨draft.artifact.name, draft.path, outcome draft⟩),
        recorded ++ drafts) := by
  induction drafts generalizing recorded with
  | nil =>
      rw [List.append_nil]
      rfl
  | cons draft rest inductionHypothesis =>
      have later := inductionHypothesis (recorded ++ [draft])
      simp only [writeAll, bind, StateT.bind, recording] at later ⊢
      rw [later, List.append_assoc]
      rfl

/-- A recorded run fails with its plan, or it records all drafts of the plan. -/
theorem recordRun_eq
    (outcome : Draft → WriteOutcome)
    (formatter : Source.Formatter)
    (document : Document)
    (configuration : Configuration)
    (time : Instant) :
    recordRun outcome formatter document configuration time =
      match Plan.make formatter document configuration time with
      | .error failure => (.error failure, [])
      | .ok plan => (.ok (plan.recorded outcome), plan.drafts) := by
  unfold recordRun runDocument
  cases Plan.make formatter document configuration time with
  | error failure =>
      rfl
  | ok plan =>
      have written := Writer.writeAll_recording outcome plan.drafts []
      simp only [Writer.carryOut, bind, StateT.bind]
      rw [written]
      rfl

/-- Plans are alike when their models and the drafts of each artifact are. -/
theorem Plan.make_alike
    {formatter : Source.Formatter}
    {configuration : Configuration}
    {document other : Document}
    {time later : Instant}
    {agrees : Model → Model → Prop}
    {related : Draft → Draft → Prop}
    (models : Alike agrees (modelOf document configuration time)
      (modelOf other configuration later))
    (selects : ∀ model image, agrees model image →
      Artifact.selected model = Artifact.selected image)
    (each : ∀ model image, agrees model image → ∀ artifact,
      Alike related (draft formatter configuration model artifact)
        (draft formatter configuration image artifact)) :
    Alike
      (fun plan image =>
        agrees plan.model image.model ∧ List.Forall₂ related plan.drafts image.drafts)
      (make formatter document configuration time) (make formatter other configuration later) := by
  refine models.bind fun model image agree => ?_
  have drafts : Alike (List.Forall₂ related) (draftAll formatter configuration model)
      (draftAll formatter configuration image) := by
    rw [draftAll, draftAll, ← selects model image agree]
    exact Alike.mapM fun artifact _ => each model image agree artifact
  exact drafts.bind fun written images relate => .succeeded ⟨agree, relate⟩

/-- Recorded runs over plans that are alike both fail, or both record what is related. -/
theorem recordRun_cases
    {formatter : Source.Formatter}
    {configuration : Configuration}
    {document other : Document}
    {time later : Instant}
    {related : Plan → Plan → Prop}
    (outcome : Draft → WriteOutcome)
    (plans : Alike related (Plan.make formatter document configuration time)
      (Plan.make formatter other configuration later)) :
    (∃ failure,
      recordRun outcome formatter document configuration time = (.error failure, []) ∧
        recordRun outcome formatter other configuration later = (.error failure, [])) ∨
      ∃ plan image,
        Plan.make formatter document configuration time = .ok plan ∧
          recordRun outcome formatter document configuration time =
            (.ok (plan.recorded outcome), plan.drafts) ∧
          recordRun outcome formatter other configuration later =
            (.ok (image.recorded outcome), image.drafts) ∧
          related plan image := by
  rw [recordRun_eq, recordRun_eq]
  generalize Plan.make formatter document configuration time = made at plans
  generalize Plan.make formatter other configuration later = imageMade at plans
  cases plans with
  | failed failure =>
      exact Or.inl ⟨failure, rfl, rfl⟩
  | succeeded relates =>
      exact Or.inr ⟨_, _, rfl, rfl, rfl, relates⟩

end RpcStubs
