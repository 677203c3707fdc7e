import RpcStubs.Proofs.Run.Protected
namespace RpcStubs

open Files Files.Path

/-!
# What a run touches

A run touches its own targets only.  They lie in the directory of the module, under names that
tell them apart; beside them a run makes the directories that they need, and whether it
succeeds or fails, everything that was there is still there.
-/

/-- The paths at which the selected artifacts land. -/
def Artifact.targets (configuration : Configuration) (model : Model) : List String :=
  (Artifact.selected model).map (Artifact.target configuration)

/--
One tree becomes another one that differs from it at some targets only.

What has changed is a target that holds a file now, or a directory made above a target.
-/
structure Files.Tree.StaysWithin
    (before after : Tree) (targets : List String) : Prop where
  workplace : after.workplace = before.workplace
  touched : ∀ names,
    after.entry? names ≠ before.entry? names →
      (∃ content, after.entry? names = some (.file content)) ∧
          (∃ target ∈ targets, names = Path.names target) ∨
        before.entry? names = none ∧ after.entry? names = some .directory ∧
          ∃ target ∈ targets, Above names (Path.names target)
  kept : ∀ names entry,
    before.entry? names = some entry → ∃ other, after.entry? names = some other

variable {before after : Tree} {formatter : Source.Formatter}

theorem Files.Tree.StaysWithin.refl
    (tree : Tree)
    (targets : List String) :
    tree.StaysWithin tree targets :=
  ⟨rfl, fun _ differs => (differs rfl).elim, fun _ entry stands => ⟨entry, stands⟩⟩

namespace Changes

theorem mono
    {written roomed moreWritten moreRoomed : List Draft}
    (changes : Changes before after written roomed)
    (widensWritten : written ⊆ moreWritten)
    (widensRoomed : roomed ⊆ moreRoomed) :
    Changes before after moreWritten moreRoomed where
  plain := changes.plain
  workplace := changes.workplace
  kept names := by
    rcases changes.kept names with same | ⟨draft, member, isTarget, stands⟩ |
      ⟨missing, made, draft, member, above⟩
    · exact Or.inl same
    · exact Or.inr (Or.inl ⟨draft, widensWritten member, isTarget, stands⟩)
    · exact Or.inr (Or.inr ⟨missing, made, draft, widensRoomed member, above⟩)

/-- What changes while drafts are written stays within their paths. -/
theorem staysWithin
    {drafts : List Draft}
    (changes : Changes before after drafts drafts) :
    before.StaysWithin after (drafts.map Draft.path) where
  workplace := changes.workplace
  touched names differs := by
    rcases changes.kept names with same | ⟨draft, member, isTarget, stands⟩ |
      ⟨missing, made, draft, member, above⟩
    · exact (differs same).elim
    · exact Or.inl ⟨⟨_, stands⟩, draft.path, List.mem_map_of_mem member, isTarget⟩
    · exact Or.inr ⟨missing, made, draft.path, List.mem_map_of_mem member, above⟩
  kept names entry stands := by
    rcases changes.kept names with same | ⟨draft, _, _, written⟩ | ⟨_, made, _⟩
    · exact ⟨entry, same.trans stands⟩
    · exact ⟨_, written⟩
    · exact ⟨_, made⟩

end Changes

/-- Writing drafts to different targets changes only these, whether it succeeds or fails. -/
theorem Writer.writeAll_changes
    {drafts : List Draft}
    {result : Except Failure (List Written)}
    (plain : before.IsPlain)
    (straight : ∀ draft ∈ drafts, IsStraight draft.path)
    (differ : (drafts.map fun draft => names draft.path).Nodup)
    (ran : Writer.writeAll (m := StateM Tree) Writer.files drafts before = (result, after)) :
    Changes before after drafts drafts := by
  cases result with
  | ok written =>
      exact (writeAll_settles plain straight differ ran).2
  | error failure =>
      obtain ⟨done, failing, pending, _, rfl, _, keeps⟩ :=
        writeAll_keepsPrefix plain straight differ ran
      exact keeps.changes.mono (by simp) (by simp)

namespace Plan

variable {configuration : Configuration}

/-- The drafts of a plan go to the targets of the selected artifacts. -/
theorem paths_of_make
    {document : Document}
    {time : Instant}
    {plan : Plan}
    (made : make formatter document configuration time = .ok plan) :
    plan.drafts.map Draft.path = Artifact.targets configuration plan.model := by
  obtain ⟨inOrder, allMade⟩ := drafts_of_make made
  rw [Artifact.targets, ← inOrder, List.map_map]
  exact List.map_congr_left fun draft member => (allMade draft member).path

/-- Carrying out a plan for a ready configuration stays within its targets. -/
theorem carryOut_staysWithin
    {document : Document}
    {time : Instant}
    {plan : Plan}
    {result : Except Failure RunResult}
    (plain : before.IsPlain)
    (ready : configuration.IsReady)
    (made : make formatter document configuration time = .ok plan)
    (carried : Writer.carryOut (m := StateM Tree) Writer.files plan before = (result, after)) :
    before.StaysWithin after (Artifact.targets configuration plan.model) := by
  obtain ⟨inOrder, allMade⟩ := drafts_of_make made
  obtain ⟨straight, differ⟩ := targets_differ ready inOrder allMade
  have written :
      ∃ outcome,
        Writer.writeAll (m := StateM Tree) Writer.files plan.drafts before =
          (outcome, after) := by
    cases result with
    | error failure =>
        exact ⟨_, Writer.carryOut_eq_error carried⟩
    | ok report =>
        exact ⟨_, (Writer.carryOut_eq_ok carried).1⟩
  obtain ⟨_, ran⟩ := written
  rw [← paths_of_make made]
  exact (Writer.writeAll_changes plain straight differ ran).staysWithin

end Plan

/-- A request that comes to a configuration is rejected, or a plan for it is carried out. -/
theorem Request.generate_cases_of_configure
    {request : Request}
    {configuration : Configuration}
    (configured : request.configure (m := ReaderM Tree) before = .ok configuration)
    {answer : Except Rejection GenerationReport}
    (ran : before.generate Writer.files formatter request = (answer, after)) :
    after = before ∨
      ∃ document plan result,
        Plan.make formatter document configuration request.time = .ok plan ∧
          Writer.carryOut (m := StateM Tree) Writer.files plan before = (result, after) := by
  change carryOut (m := StateM Tree) Writer.files
    (request.prepare (m := ReaderM Tree) formatter before) before = (answer, after) at ran
  rw [prepare, bind_reading, configured] at ran
  simp only [bind_reading] at ran
  cases loaded : request.loadDocument (m := ReaderM Tree) before with
  | error rejection =>
      rw [loaded] at ran
      cases ran
      exact Or.inl rfl
  | ok document =>
      rw [loaded] at ran
      simp only at ran
      cases made : Plan.make formatter document configuration request.time with
      | error failure =>
          rw [made] at ran
          cases ran
          exact Or.inl rfl
      | ok plan =>
          rw [made] at ran
          obtain ⟨result, carried, _⟩ := Tree.exists_of_carryOut ran
          exact Or.inr ⟨document, plan, result, made, carried⟩

namespace Artifact

variable {configuration : Configuration}

/-- An artifact lands below the directory of the module, along names. -/
theorem components_target
    (ready : configuration.IsReady)
    (inModule : names configuration.moduleRoot <+: names configuration.output)
    (artifact : Artifact) :
    ∃ inner,
      inner ≠ [] ∧
        components (artifact.target configuration) =
          components configuration.moduleRoot ++ inner.map .name := by
  have named : names (artifact.relativePath configuration) ≠ [] := by
    intro none
    have fileName := (isInner_relativePath ready artifact).fileName?_eq
    rw [none] at fileName
    exact (target_lands ready artifact).2.2 fileName
  obtain ⟨between, outputNames⟩ := inModule
  rw [components_of_straight (target_lands ready artifact).1,
    components_of_straight ready.moduleRoot, names_target ready artifact]
  cases artifact.destination with
  | outputDirectory =>
      refine ⟨between ++ names (artifact.relativePath configuration), by simp [named], ?_⟩
      simp [← outputNames]
  | moduleRoot =>
      exact ⟨names (artifact.relativePath configuration), named, by simp⟩

/-- The targets of the selected artifacts differ in their components. -/
theorem targets_nodup
    (ready : configuration.IsReady)
    (model : Model) :
    ((targets configuration model).map components).Nodup := by
  rw [targets, List.map_map, List.Nodup, List.pairwise_map]
  apply (selected_nodup model).imp
  intro first second differ same
  simp only [Function.comp_apply, components_of_straight (target_lands ready _).1,
    List.cons.injEq, true_and] at same
  exact differ (target_injective ready
    ((List.map_inj_right fun _ _ => Component.name.inj).mp same))

end Artifact

/--
A run touches only its own targets, which are different and lie in the directory of the module.

The targets are named from the directory of the module on, without `..` and without another
start, in every run under a configuration that is resolved.  A run over a document, and a run
for a request that comes to the configuration, changes a tree without links only at the targets
of the artifacts selected for it, and in directories that it makes above them; it removes
nothing.  This holds for runs that fail as well, and when there is no model, nothing changes.
-/
theorem run_staysWithin_targets
    {tree : Tree}
    (sound : tree.IsSound)
    {choices : Choices}
    {fallbacks : Fallbacks}
    {configuration : Configuration}
    (resolved : Configuration.resolve (m := ReaderM Tree) choices fallbacks tree =
      .ok configuration) :
    (∀ model,
      ((Artifact.targets configuration model).map components).Nodup ∧
        ∀ target ∈ Artifact.targets configuration model,
          ∃ inner,
            inner ≠ [] ∧
              components target =
                components configuration.moduleRoot ++ inner.map .name) ∧
      ∀ before after : Tree, before.IsPlain →
        (∀ formatter document time result,
          runDocument (m := StateM Tree) Writer.files formatter document configuration time
              before = (result, after) →
            after = before ∨
              ∃ model,
                Plan.modelOf document configuration time = .ok model ∧
                  before.StaysWithin after (Artifact.targets configuration model)) ∧
        ∀ formatter (request : Request) answer,
          request.configure (m := ReaderM Tree) before = .ok configuration →
            before.generate Writer.files formatter request = (answer, after) →
              after = before ∨
                ∃ document model,
                  Plan.modelOf document configuration request.time = .ok model ∧
                    before.StaysWithin after (Artifact.targets configuration model) := by
  have ready := Configuration.resolve_isReady sound resolved
  have inModule := Configuration.resolve_output_in_module sound resolved
  refine ⟨fun model => ⟨Artifact.targets_nodup ready model, ?_⟩, fun before after plain => ?_⟩
  · intro target member
    obtain ⟨artifact, _, rfl⟩ := List.mem_map.mp member
    exact Artifact.components_target ready inModule artifact
  · constructor
    · intro formatter document time result ran
      cases made : Plan.make formatter document configuration time with
      | error failure =>
          rw [runDocument, made] at ran
          cases ran
          exact Or.inl rfl
      | ok plan =>
          rw [runDocument, made] at ran
          exact Or.inr ⟨plan.model, Plan.modelOf_of_make made,
            Plan.carryOut_staysWithin plain ready made ran⟩
    · intro formatter request answer configured ran
      rcases Request.generate_cases_of_configure configured ran with
        same | ⟨document, plan, result, made, carried⟩
      · exact Or.inl same
      · exact Or.inr ⟨document, plan.model, Plan.modelOf_of_make made,
          Plan.carryOut_staysWithin plain ready made carried⟩

/-- The configuration of the request in the tree where the message file is blocked. -/
def blockedConfiguration : Configuration where
  package := "api"
  output := "/work"
  moduleRoot := "/work"
  modulePath := "example.com/acme"
  outputRelative := ""
  protoPath := "proto/api/v1/api.proto"
  protoImport := "example.com/acme/proto/api/v1"
  packageImport := "example.com/acme"
  protoPackage := "pkg.api.v1"
  full := false

/-- The run that fails at the message file has written, and only to its targets. -/
theorem blockedTree_staysWithin :
    let run := blockedTree.generate Writer.files untouched blockedRequest
    run.1.toOption = none ∧
      Tree.entry? run.2 ["work", "client.go"] ≠
        blockedTree.entry? ["work", "client.go"] ∧
      ∃ document model,
        Plan.modelOf document blockedConfiguration blockedRequest.time = .ok model ∧
          blockedTree.StaysWithin run.2 (Artifact.targets blockedConfiguration model) := by
  intro run
  have plain : blockedTree.IsPlain :=
    Tree.isPlain_of_entries (by decide) (by decide) (by decide) (by decide)
  have resolved : Configuration.resolve (m := ReaderM Tree) {} {} blockedTree =
      .ok blockedConfiguration := by
    change @Eq (Except Failure Configuration) _ _
    decide +kernel
  have configured : blockedRequest.configure (m := ReaderM Tree) blockedTree =
      .ok blockedConfiguration := by
    change @Eq (Except Failure Configuration) _ _
    decide +kernel
  have written : Tree.entry? run.2 ["work", "client.go"] ≠
      blockedTree.entry? ["work", "client.go"] := by
    decide +kernel
  refine ⟨by decide +kernel, written, ?_⟩
  rcases ((run_staysWithin_targets plain.isSound resolved).2 blockedTree run.2 plain).2 untouched
    blockedRequest run.1 configured (Prod.eta run).symm with same | within
  · rw [same] at written
    exact (written rfl).elim
  · exact within

end RpcStubs
