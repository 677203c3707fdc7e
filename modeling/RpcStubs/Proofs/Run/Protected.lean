import Mathlib.Logic.Relation
import RpcStubs.Proofs.Run.Prediction
namespace RpcStubs

open Files Files.Path

/-!
# Protected files over many runs

A protected file that is there is never written again: whatever runs follow, over whatever
documents, into whatever directories, and wherever they stop, it keeps its content, and each
run that comes to it reports that it is skipped.
-/

variable {before after : Tree} {draft : Draft} {target : List String}

namespace Files.Tree

/-- A configuration that some choices come to on a tree. -/
def Settles (tree : Tree) (configuration : Configuration) : Prop :=
  ∃ choices fallbacks,
    Configuration.resolve (m := ReaderM Tree) choices fallbacks tree = .ok configuration

/-- A plan that some document comes to under a configuration of a tree. -/
def Plans (tree : Tree) (plan : Plan) : Prop :=
  ∃ formatter document configuration time,
    tree.Settles configuration ∧
      Plan.make formatter document configuration time = .ok plan

/--
What a run on a tree reports when it succeeds, and the tree that it leaves.

A run answers a request, for real or dry, or it is made over a document under a configuration
of the tree.  From outside, a run can also be stopped after any number of drafts, or hindered
at a draft for which there is room already.
-/
inductive Runs (before : Tree) : Option RunResult → Tree → Prop
  | answered
      (formatter : Source.Formatter)
      (request : Request)
      {answer : Except Rejection GenerationReport}
      {after : Tree}
      (ran : before.generate Writer.files formatter request = (answer, after)) :
      Runs before (answer.toOption.map GenerationReport.result) after
  | foretold
      (formatter : Source.Formatter)
      (request : Request)
      {answer : Except Rejection GenerationReport}
      {after : Tree}
      (ran : before.generate Writer.dry formatter request = (answer, after)) :
      Runs before (answer.toOption.map GenerationReport.result) after
  | made
      (formatter : Source.Formatter)
      (document : Document)
      {configuration : Configuration}
      (time : Instant)
      (settled : before.Settles configuration)
      {answer : Except Failure RunResult}
      {after : Tree}
      (ran : runDocument (m := StateM Tree) Writer.files formatter document configuration time
        before = (answer, after)) :
      Runs before answer.toOption after
  | stopped
      {plan : Plan}
      (planned : before.Plans plan)
      (count : Nat) :
      Runs before none
        (Writer.writeAll (m := StateM Tree) Writer.files (plan.drafts.take count) before).2
  | hindered
      {plan : Plan}
      (planned : before.Plans plan)
      {done pending : List Draft}
      {draft : Draft}
      (shape : plan.drafts = done ++ draft :: pending) :
      Runs before none
        (Writer.makeParent (m := StateM Tree) draft.path
          (Writer.writeAll (m := StateM Tree) Writer.files done before).2).2

/-- One tree becomes another one by any number of runs. -/
def Becomes : Tree → Tree → Prop :=
  Relation.ReflTransGen fun earlier later => ∃ reported, earlier.Runs reported later

end Files.Tree

namespace Draft

/-- A draft that lands elsewhere, or that is to be skipped where a file is. -/
def LeavesAlone (draft : Draft) (target : List String) : Prop :=
  names draft.path = target →
    draft.artifact.policy = .skipIfExists ∧ Tree.endsInDirectory (piecesOf draft.path) = false

end Draft

/-- Drafts are reported each in its turn, and those that land on a target as skipped. -/
structure ReportsSkipped
    (drafts : List Draft) (target : List String) (written : List Written) : Prop where
  inOrder : written.map (fun entry => (entry.name, entry.path)) =
    drafts.map fun draft => (draft.artifact.name, draft.path)
  skipped : ∀ entry ∈ written, names entry.path = target → entry.outcome = .skipped

namespace Writer

/-- A protected draft whose target is there is skipped. -/
theorem files_skips
    (isPolicy : draft.artifact.policy = .skipIfExists)
    (present : before.isPresent draft.path = true) :
    files (m := StateM Tree) draft before = (.ok .skipped, before) := by
  have skipped : outcomeOf draft.artifact.policy (before.isPresent draft.path) = .skipped := by
    rw [isPolicy, present]
    rfl
  rw [files, writeAt, bind_changing, dryAt_on_tree]
  simp only [skipped, ↓reduceIte]
  rfl

end Writer

namespace Draft.LeavesAlone

variable {content : ByteArray}

/-- A file that a draft leaves alone is present for it. -/
theorem isPresent
    (plain : before.IsPlain)
    (straight : IsStraight draft.path)
    (alone : draft.LeavesAlone target)
    (stands : before.entry? target = some (.file content))
    (lands : names draft.path = target) :
    draft.artifact.policy = .skipIfExists ∧ before.isPresent draft.path = true := by
  obtain ⟨isPolicy, ends⟩ := alone lands
  refine ⟨isPolicy, (plain.isPresent_iff straight).mpr ⟨_, lands ▸ stands, fun isDirectory => ?_⟩⟩
  rw [ends] at isDirectory
  cases isDirectory

/-- Writing one draft keeps a file that the draft leaves alone, also when it fails. -/
theorem files_keeps
    (plain : before.IsPlain)
    (straight : IsStraight draft.path)
    (alone : draft.LeavesAlone target)
    (stands : before.entry? target = some (.file content))
    {result : Except Failure WriteOutcome}
    (ran : Writer.files (m := StateM Tree) draft before = (result, after)) :
    after.IsPlain ∧ after.entry? target = some (.file content) := by
  by_cases lands : names draft.path = target
  · obtain ⟨isPolicy, present⟩ := alone.isPresent plain straight stands lands
    rw [Writer.files_skips isPolicy present] at ran
    cases ran
    exact ⟨plain, stands⟩
  · cases result with
    | ok outcome =>
        have changes := (Writer.files_eq_ok plain straight ran).2
        exact ⟨changes.plain, changes.entry?_eq (by simpa using Ne.symm lands) stands⟩
    | error failure =>
        have changes := (Writer.files_eq_error plain straight ran).2
        exact ⟨changes.plain, changes.entry?_eq (by simp) stands⟩

end Draft.LeavesAlone

namespace Writer

variable {drafts : List Draft} {content : ByteArray}

/-- Writing drafts keeps a file that all of them leave alone, wherever the writing ends. -/
theorem writeAll_keeps
    (plain : before.IsPlain)
    (straight : ∀ draft ∈ drafts, IsStraight draft.path)
    (alone : ∀ draft ∈ drafts, draft.LeavesAlone target)
    (stands : before.entry? target = some (.file content))
    {result : Except Failure (List Written)}
    (ran : writeAll (m := StateM Tree) files drafts before = (result, after)) :
    after.IsPlain ∧ after.entry? target = some (.file content) := by
  induction drafts generalizing before result with
  | nil =>
      cases ran
      exact ⟨plain, stands⟩
  | cons draft rest inductionHypothesis =>
      have restStraight : ∀ other ∈ rest, IsStraight other.path :=
        fun other member => straight other (List.mem_cons_of_mem _ member)
      have restAlone : ∀ other ∈ rest, other.LeavesAlone target :=
        fun other member => alone other (List.mem_cons_of_mem _ member)
      have keeps {outcome : Except Failure WriteOutcome} {between : Tree}
          (firstRan : files (m := StateM Tree) draft before = (outcome, between)) :
          between.IsPlain ∧ between.entry? target = some (.file content) :=
        (alone draft (by simp)).files_keeps plain (straight draft (by simp)) stands firstRan
      cases result with
      | ok written =>
          obtain ⟨_, between, _, firstRan, restRan, _⟩ := writeAll_cons_eq_ok ran
          obtain ⟨betweenPlain, standsBetween⟩ := keeps firstRan
          exact inductionHypothesis betweenPlain restStraight restAlone standsBetween restRan
      | error failure =>
          rcases writeAll_cons_eq_error ran with failed | ⟨_, between, firstRan, restRan⟩
          · exact keeps failed
          · obtain ⟨betweenPlain, standsBetween⟩ := keeps firstRan
            exact inductionHypothesis betweenPlain restStraight restAlone standsBetween restRan

/-- Drafts that are written are reported in order, those that land on a kept file as skipped. -/
theorem writeAll_reports
    (plain : before.IsPlain)
    (straight : ∀ draft ∈ drafts, IsStraight draft.path)
    (alone : ∀ draft ∈ drafts, draft.LeavesAlone target)
    (stands : before.entry? target = some (.file content))
    {written : List Written}
    (ran : writeAll (m := StateM Tree) files drafts before = (.ok written, after)) :
    ReportsSkipped drafts target written := by
  induction drafts generalizing before written with
  | nil =>
      cases ran
      exact ⟨rfl, by simp⟩
  | cons draft rest inductionHypothesis =>
      obtain ⟨outcome, between, others, firstRan, restRan, rfl⟩ := writeAll_cons_eq_ok ran
      have draftStraight := straight draft (by simp)
      have draftAlone := alone draft (by simp)
      obtain ⟨betweenPlain, standsBetween⟩ :=
        draftAlone.files_keeps plain draftStraight stands firstRan
      obtain ⟨inOrder, skipped⟩ :=
        inductionHypothesis betweenPlain
          (fun other member => straight other (List.mem_cons_of_mem _ member))
          (fun other member => alone other (List.mem_cons_of_mem _ member))
          standsBetween restRan
      refine ⟨by simp [inOrder], List.forall_mem_cons.mpr ⟨fun lands => ?_, skipped⟩⟩
      obtain ⟨isPolicy, present⟩ := draftAlone.isPresent plain draftStraight stands lands
      rw [files_skips isPolicy present] at firstRan
      cases firstRan
      rfl

/-- A dry run reports the same. -/
theorem dry_reports
    (plain : before.IsPlain)
    (straight : ∀ draft ∈ drafts, IsStraight draft.path)
    (alone : ∀ draft ∈ drafts, draft.LeavesAlone target)
    (stands : before.entry? target = some (.file content)) :
    ReportsSkipped drafts target (drafts.map (·.foreseen before)) := by
  refine ⟨by simp [Draft.foreseen], fun entry reported lands => ?_⟩
  obtain ⟨draft, member, rfl⟩ := List.mem_map.mp reported
  obtain ⟨isPolicy, present⟩ :=
    (alone draft member).isPresent plain (straight draft member) stands lands
  rw [Draft.foreseen, isPolicy, present]
  rfl

end Writer

namespace Artifact

variable {configuration : Configuration} {artifact : Artifact}

/-- Under a protected name only the artifact of that name lands. -/
theorem of_lands_protected
    (ready : configuration.IsReady)
    {upper : List String}
    {last : String}
    (protects : last = "buf.yaml" ∨ last = "buf.gen.yaml")
    (lands : names (artifact.target configuration) = upper ++ [last]) :
    artifact.template = last ∧ artifact.policy = .skipIfExists := by
  have named : fileName? (artifact.relativePath configuration) = some last := by
    rw [← (target_lands ready artifact).2.1, lands, List.getLast?_concat]
  by_cases messages : artifact = .proto
  · subst messages
    have sameName : fileName? configuration.protoPath = fileName? last := by
      refine Eq.trans named ?_
      rcases protects with rfl | rfl <;> decide
    have isProto := (extension?_congr sameName).symm.trans ready.isProto
    rcases protects with rfl | rfl <;> revert isProto <;> decide
  · have isTemplate := (fileName?_relativePath configuration messages).2
    obtain rfl := Option.some.inj (isTemplate.symm.trans named)
    refine ⟨rfl, ?_⟩
    cases artifact <;> revert protects <;> decide

/-- The target of a protected artifact ends in a name. -/
theorem target_endsInName
    (ready : configuration.IsReady)
    (isPolicy : artifact.policy = .skipIfExists) :
    Tree.endsInDirectory (piecesOf (artifact.target configuration)) = false := by
  obtain ⟨inOutput, _⟩ := of_skipIfExists configuration isPolicy
  have single : isAbsolute (artifact.relativePath configuration) = false ∧
      piecesOf (artifact.relativePath configuration) = [artifact.template] ∧
      Tree.endsInDirectory [artifact.template] = false := by
    cases artifact with
    | buf | bufGen =>
        simp only [relativePath, template]
        decide
    | _ =>
        cases isPolicy
  obtain ⟨relative, isTemplate, ends⟩ := single
  obtain ⟨_, inner, shape, _⟩ := piecesOf_join ready.output.ne_empty relative
  simp only [target, inOutput]
  rw [shape, isTemplate, Tree.endsInDirectory, List.getLast?_concat]
  exact ends

end Artifact

namespace Files.Tree

variable {upper : List String} {last : String} {plan : Plan}

/-- What is there stays while directories are made. -/
theorem Grows.entry?_eq
    {allowed : List String → Prop}
    {names : List String}
    {entry : Entry}
    (grows : Tree.Grows allowed before after)
    (stands : before.entry? names = some entry) :
    after.entry? names = some entry := by
  rcases grows.kept names with same | ⟨_, missing, _⟩
  · exact same.trans stands
  · rw [stands] at missing
    cases missing

/-- The drafts of every plan leave the protected files alone that are there. -/
theorem Plans.leavesAlone
    (upper : List String)
    (plain : before.IsPlain)
    (planned : before.Plans plan)
    (protects : last = "buf.yaml" ∨ last = "buf.gen.yaml") :
    ∀ draft ∈ plan.drafts,
      IsStraight draft.path ∧
        draft.LeavesAlone (upper ++ [last]) ∧
        (names draft.path = upper ++ [last] → draft.artifact.template = last) := by
  obtain ⟨_, _, configuration, _, ⟨_, _, resolved⟩, made⟩ := planned
  have ready := Configuration.resolve_isReady plain.isSound resolved
  intro draft member
  have isMade := (Plan.drafts_of_make made).2 draft member
  have straight := (Artifact.target_lands ready draft.artifact).1
  rw [Draft.LeavesAlone, isMade.path]
  refine ⟨straight, fun lands => ?_, fun lands => ?_⟩
  · have isPolicy := (Artifact.of_lands_protected ready protects lands).2
    exact ⟨isPolicy, Artifact.target_endsInName ready isPolicy⟩
  · exact (Artifact.of_lands_protected ready protects lands).1

/-- What was prepared is carried out as its plan, and reported with its result. -/
theorem exists_of_carryOut
    {writer : Writer (StateM Tree)}
    {configuration : Configuration}
    {answer : Except Rejection GenerationReport}
    (ran : carryOut (m := StateM Tree) writer (.ok (configuration, plan)) before =
      (answer, after)) :
    ∃ outcome,
      Writer.carryOut (m := StateM Tree) writer plan before = (outcome, after) ∧
        answer.toOption.map GenerationReport.result = outcome.toOption := by
  rw [carryOut, bind_changing] at ran
  rcases carried : Writer.carryOut (m := StateM Tree) writer plan before with ⟨outcome, last⟩
  rw [carried] at ran
  refine ⟨outcome, ?_⟩
  cases outcome with
  | error failure | ok result =>
      cases ran
      exact ⟨rfl, rfl⟩

/-- A request is rejected and nothing happens, or a plan for it is carried out. -/
theorem generate_cases
    {writer : Writer (StateM Tree)}
    {formatter : Source.Formatter}
    {request : Request}
    {answer : Except Rejection GenerationReport}
    (ran : before.generate writer formatter request = (answer, after)) :
    (answer.toOption = none ∧ after = before) ∨
      ∃ plan outcome,
        before.Plans plan ∧
          Writer.carryOut (m := StateM Tree) writer plan before = (outcome, after) ∧
          answer.toOption.map GenerationReport.result = outcome.toOption := by
  change carryOut (m := StateM Tree) writer
    (request.prepare (m := ReaderM Tree) formatter before) before = (answer, after) at ran
  cases prepared : request.prepare (m := ReaderM Tree) formatter before with
  | error rejection =>
      rw [prepared] at ran
      cases ran
      exact Or.inl ⟨rfl, rfl⟩
  | ok preparation =>
      obtain ⟨configuration, plan⟩ := preparation
      obtain ⟨⟨settings, resolved⟩, document, made⟩ := Request.exists_of_prepare prepared
      have planned : before.Plans plan :=
        ⟨formatter, document, configuration, request.time, ⟨_, _, resolved⟩, made⟩
      rw [prepared] at ran
      obtain ⟨outcome, carried⟩ := exists_of_carryOut ran
      exact Or.inr ⟨plan, outcome, planned, carried⟩

/-- A run that does not end before it writes is about a plan. -/
theorem Runs.cases
    {reported : Option RunResult}
    (runs : before.Runs reported after) :
    (reported = none ∧ after = before) ∨
      ∃ plan,
        before.Plans plan ∧
          ((∃ answer,
            reported = answer.toOption ∧
              (Writer.carryOut (m := StateM Tree) Writer.files plan before = (answer, after) ∨
                Writer.carryOut (m := StateM Tree) Writer.dry plan before = (answer, after))) ∨
            reported = none ∧
              ∃ done pending between,
                plan.drafts = done ++ pending ∧
                  (Writer.writeAll (m := StateM Tree) Writer.files done before).2 = between ∧
                  (after = between ∨
                    ∃ draft ∈ pending,
                      after = (Writer.makeParent (m := StateM Tree) draft.path between).2)) := by
  cases runs with
  | answered formatter request ran =>
      rcases generate_cases ran with ⟨rejected, same⟩ | ⟨plan, outcome, planned, carried, reports⟩
      · exact Or.inl ⟨by rw [rejected]; rfl, same⟩
      · exact Or.inr ⟨plan, planned, Or.inl ⟨outcome, reports, Or.inl carried⟩⟩
  | foretold formatter request ran =>
      rcases generate_cases ran with ⟨rejected, same⟩ | ⟨plan, outcome, planned, carried, reports⟩
      · exact Or.inl ⟨by rw [rejected]; rfl, same⟩
      · exact Or.inr ⟨plan, planned, Or.inl ⟨outcome, reports, Or.inr carried⟩⟩
  | made formatter document time settled ran =>
      rename_i configuration answer
      cases isMade : Plan.make formatter document configuration time with
      | error failure =>
          rw [runDocument, isMade] at ran
          cases ran
          exact Or.inl ⟨rfl, rfl⟩
      | ok plan =>
          rw [runDocument, isMade] at ran
          refine Or.inr ⟨plan, ⟨_, _, _, _, settled, isMade⟩, Or.inl ⟨answer, rfl, Or.inl ran⟩⟩
  | stopped planned count =>
      exact Or.inr ⟨_, planned, Or.inr ⟨rfl, _, _, _, (List.take_append_drop count _).symm, rfl,
        Or.inl rfl⟩⟩
  | hindered planned shape =>
      exact Or.inr ⟨_, planned, Or.inr ⟨rfl, _, _, _, shape, rfl, Or.inr ⟨_, by simp, rfl⟩⟩⟩

variable {content : ByteArray}

/-- One run keeps a protected file, and what it reports of it is that it is skipped. -/
theorem Runs.keeps
    (plain : before.IsPlain)
    (protects : last = "buf.yaml" ∨ last = "buf.gen.yaml")
    (stands : before.entry? (upper ++ [last]) = some (.file content))
    {reported : Option RunResult}
    (runs : before.Runs reported after) :
    (after.IsPlain ∧ after.entry? (upper ++ [last]) = some (.file content)) ∧
      ∀ result, reported = some result →
        ∃ plan,
          before.Plans plan ∧
            ReportsSkipped plan.drafts (upper ++ [last]) result.written := by
  rcases runs.cases with ⟨rfl, rfl⟩ | ⟨plan, planned, ending⟩
  · exact ⟨⟨plain, stands⟩, nofun⟩
  · have drafts := planned.leavesAlone upper plain protects
    have straight : ∀ draft ∈ plan.drafts, IsStraight draft.path :=
      fun draft member => (drafts draft member).1
    have alone : ∀ draft ∈ plan.drafts, draft.LeavesAlone (upper ++ [last]) :=
      fun draft member => (drafts draft member).2.1
    rcases ending with ⟨answer, rfl, carried | carried⟩ |
      ⟨rfl, done, pending, between, shape, isBetween, ending⟩
    · cases answer with
      | error failure =>
          have written := Writer.carryOut_eq_error carried
          exact ⟨Writer.writeAll_keeps plain straight alone stands written, nofun⟩
      | ok result =>
          have written := (Writer.carryOut_eq_ok carried).1
          refine ⟨Writer.writeAll_keeps plain straight alone stands written, fun _ same => ?_⟩
          cases same
          exact ⟨plan, planned, Writer.writeAll_reports plain straight alone stands written⟩
    · rw [Writer.carryOut_dry] at carried
      cases carried
      refine ⟨⟨plain, stands⟩, fun _ same => ?_⟩
      cases same
      exact ⟨plan, planned, Writer.dry_reports plain straight alone stands⟩
    · -- The run stops between drafts, or after it has made directories for the next one.
      refine ⟨?_, nofun⟩
      rw [shape] at straight alone
      obtain ⟨plainBetween, standsBetween⟩ :=
        Writer.writeAll_keeps plain
          (fun draft member => straight draft (List.mem_append_left _ member))
          (fun draft member => alone draft (List.mem_append_left _ member)) stands
          (Prod.eta _).symm
      rw [isBetween] at plainBetween standsBetween
      rcases ending with rfl | ⟨draft, member, rfl⟩
      · exact ⟨plainBetween, standsBetween⟩
      · have grows :=
          Writer.makeParent_grows plainBetween (straight draft (List.mem_append_right _ member))
        exact ⟨grows.plain, grows.entry?_eq standsBetween⟩

/-- Any number of runs keeps a protected file. -/
theorem Becomes.keeps
    (plain : before.IsPlain)
    (protects : last = "buf.yaml" ∨ last = "buf.gen.yaml")
    (stands : before.entry? (upper ++ [last]) = some (.file content))
    (history : before.Becomes after) :
    after.IsPlain ∧ after.entry? (upper ++ [last]) = some (.file content) := by
  induction history with
  | refl =>
      exact ⟨plain, stands⟩
  | tail _ runs inductionHypothesis =>
      obtain ⟨plainBetween, standsBetween⟩ := inductionHypothesis
      obtain ⟨_, run⟩ := runs
      exact (run.keeps plainBetween protects standsBetween).1

/--
A protected file that is there outlasts every history of runs, and each run reports it as
skipped.

After any number of runs it holds the same bytes.  A run that comes next lists the drafts of
its plan, and the one that lands on the file is of the artifact of that name and is skipped:
when its turn comes, nothing is done, and the report says so.
-/
theorem protected_file_outlasts_runs
    (plain : before.IsPlain)
    (protects : last = "buf.yaml" ∨ last = "buf.gen.yaml")
    (stands : before.entry? (upper ++ [last]) = some (.file content))
    (history : before.Becomes after) :
    after.IsPlain ∧
      after.entry? (upper ++ [last]) = some (.file content) ∧
      (∀ plan done draft pending,
        after.Plans plan →
        plan.drafts = done ++ draft :: pending →
        names draft.path = upper ++ [last] →
          draft.artifact.template = last ∧
            ∀ written between,
              Writer.writeAll (m := StateM Tree) Writer.files done after =
                (.ok written, between) →
              Writer.files (m := StateM Tree) draft between = (.ok .skipped, between)) ∧
      ∀ result final,
        after.Runs (some result) final →
          ∃ plan,
            after.Plans plan ∧
              ReportsSkipped plan.drafts (upper ++ [last]) result.written := by
  obtain ⟨plainAfter, standsAfter⟩ := history.keeps plain protects stands
  refine ⟨plainAfter, standsAfter, ?_, fun result final runs =>
    (runs.keeps plainAfter protects standsAfter).2 result rfl⟩
  intro plan done draft pending planned shape lands
  have drafts := planned.leavesAlone upper plainAfter protects
  rw [shape] at drafts
  obtain ⟨straight, alone, isTemplate⟩ := drafts draft (by simp)
  refine ⟨isTemplate lands, fun written between ran => ?_⟩
  obtain ⟨plainBetween, standsBetween⟩ :=
    Writer.writeAll_keeps plainAfter
      (fun other member => (drafts other (List.mem_append_left _ member)).1)
      (fun other member => (drafts other (List.mem_append_left _ member)).2.1) standsAfter ran
  obtain ⟨isPolicy, present⟩ := alone.isPresent plainBetween straight standsBetween lands
  exact Writer.files_skips isPolicy present

end Files.Tree

/-- A module with a `buf.yaml` that somebody has written. -/
def editedTree : Tree where
  entries := Catalog.ofList [
    (["go.mod"], .file "module acme\n".toUTF8),
    (["buf.yaml"], .file "version: v2\n".toUTF8)]

/-- The choices of a full run into that module. -/
def editedChoices (protoPath : String) : Choices where
  output := some "/"
  protoPath := some protoPath
  protoPackage := some "pkg"
  full := true

/-- The configuration that they come to. -/
def editedConfiguration (protoPath directory : String) : Configuration where
  package := "api"
  output := "/"
  moduleRoot := "/"
  modulePath := "acme"
  outputRelative := ""
  protoPath := protoPath
  protoImport := "acme/" ++ directory
  packageImport := "acme"
  protoPackage := "pkg"
  full := true

/-- A document without calls. -/
def quietDocument : Document where
  openapi := "3.0.0"
  title := "quiet"
  version := "1"
  paths := .empty
  components := { schemas := .empty, requestBodies := .empty, responses := .empty }

/-- A run that fails below `buf.yaml`, and a full one after it, leave the file as it is. -/
theorem editedTree_outlasts :
    let blocked := runDocument (m := StateM Tree) Writer.files untouched quietDocument
      (editedConfiguration "buf.yaml/api.proto" "buf.yaml") ⟨0, 0⟩ editedTree
    let full := runDocument (m := StateM Tree) Writer.files untouched quietDocument
      (editedConfiguration "v1/api.proto" "v1") ⟨0, 0⟩ blocked.2
    blocked.1.toOption.isSome = false ∧
      full.1.toOption.isSome = true ∧
      Tree.entry? full.2 ["buf.yaml"] = some (.file "version: v2\n".toUTF8) := by
  intro blocked full
  have plain : editedTree.IsPlain :=
    Tree.isPlain_of_entries (by decide) (by decide) (by decide) (by decide)
  have stands : editedTree.entry? ([] ++ ["buf.yaml"]) =
      some (.file "version: v2\n".toUTF8) := by
    decide
  have first : editedTree.Settles (editedConfiguration "buf.yaml/api.proto" "buf.yaml") :=
    ⟨editedChoices "buf.yaml/api.proto", {}, by
      change @Eq (Except Failure Configuration) _ _
      decide +kernel⟩
  have second : blocked.2.Settles (editedConfiguration "v1/api.proto" "v1") :=
    ⟨editedChoices "v1/api.proto", {}, by
      change @Eq (Except Failure Configuration) _ _
      decide +kernel⟩
  have history : editedTree.Becomes full.2 :=
    (Relation.ReflTransGen.single
      ⟨_, .made untouched quietDocument ⟨0, 0⟩ first (Prod.eta blocked).symm⟩).tail
      ⟨_, .made untouched quietDocument ⟨0, 0⟩ second (Prod.eta full).symm⟩
  refine ⟨by decide +kernel, by decide +kernel, ?_⟩
  exact (Tree.protected_file_outlasts_runs plain (Or.inl rfl) stands history).2.1

end RpcStubs
