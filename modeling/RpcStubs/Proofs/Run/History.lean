import Mathlib.Data.List.Nodup
import RpcStubs.Proofs.Listing.Fetchers
import RpcStubs.Proofs.Run.Footprint
namespace RpcStubs

open Files Files.Path

/-!
# Runs over changing documents

A run replaces the files of the tool that belong to it.  Client, server and messages belong to
every run, so that after successful runs in a row they hold what the last one writes.  Iterators
belong to the runs over documents with list operations, and no run removes a file: when the last
document has none, the iterators are what the latest run left that wrote any.
-/

/-- A document, and the time at which it is run over. -/
structure Occasion where
  document : Document
  time : Instant

/-- Whether a document has list operations. -/
def Document.hasLists (document : Document) : Bool :=
  match document.operations with
  | .error _ => false
  | .ok operations => !(Listing.classify document operations).isEmpty

namespace Artifact

/-- The content that a run writes for an artifact, when the artifact belongs to it. -/
def written? (formatter : Source.Formatter) (configuration : Configuration)
    (artifact : Artifact) (occasion : Occasion) : Option String :=
  match Plan.make formatter occasion.document configuration occasion.time with
  | .error _ => none
  | .ok plan => (plan.drafts.find? (·.artifact = artifact)).map Draft.content

/--
What one run leaves at the target of an artifact where something stood, or nothing.

This is what the run writes, or the directory that it makes for messages below the target, or
else what stood there.
-/
def left (formatter : Source.Formatter) (configuration : Configuration) (artifact : Artifact)
    (occasion : Occasion) (stood : Option Entry) : Option Entry :=
  match artifact.written? formatter configuration occasion with
  | some content => some (.file content.toUTF8)
  | none =>
      if (names configuration.protoPath).head? = some artifact.template then
        some .directory
      else
        stood

end Artifact

namespace Files.Tree

/-- A run that succeeds under a configuration, over a document or for a request that loads it. -/
inductive Succeeds (formatter : Source.Formatter) (configuration : Configuration)
    (before : Tree) : Occasion → Tree → Prop
  | made
      (document : Document)
      (time : Instant)
      {result : RunResult}
      {after : Tree}
      (ran : runDocument (m := StateM Tree) Writer.files formatter document configuration time
        before = (.ok result, after)) :
      Succeeds formatter configuration before ⟨document, time⟩ after
  | answered
      (request : Request)
      {document : Document}
      {report : GenerationReport}
      {after : Tree}
      (configured : request.configure (m := ReaderM Tree) before = .ok configuration)
      (loaded : request.loadDocument (m := ReaderM Tree) before = .ok document)
      (ran : before.generate Writer.files formatter request = (.ok report, after)) :
      Succeeds formatter configuration before ⟨document, request.time⟩ after

/-- Runs that succeed one after the other lead from a tree to another one, the latest first. -/
inductive History (formatter : Source.Formatter) (configuration : Configuration)
    (before : Tree) : List Occasion → Tree → Prop
  | start : History formatter configuration before [] before
  | run {earlier : List Occasion} {occasion : Occasion} {between after : Tree} :
      History formatter configuration before earlier between →
      between.Succeeds formatter configuration occasion after →
      History formatter configuration before (occasion :: earlier) after

end Files.Tree

variable {formatter : Source.Formatter} {configuration : Configuration} {before after : Tree}
  {occasion : Occasion} {plan : Plan}

namespace Artifact

variable {artifact : Artifact} {content : String}

/-! What belongs to a run is what its plan has a draft for. -/

theorem written?_of_mem_drafts
    {draft : Draft}
    (made : Plan.make formatter occasion.document configuration occasion.time = .ok plan)
    (member : draft ∈ plan.drafts) :
    draft.artifact.written? formatter configuration occasion = some draft.content := by
  have distinct : (plan.drafts.map Draft.artifact).Nodup := by
    rw [(Plan.drafts_of_make made).1]
    exact selected_nodup plan.model
  rw [written?, made]
  cases found : plan.drafts.find? (·.artifact = draft.artifact) with
  | none =>
      simpa using List.find?_eq_none.mp found draft member
  | some other =>
      have same : other.artifact = draft.artifact := by simpa using List.find?_some found
      have isDraft : other = draft :=
        List.inj_on_of_nodup_map distinct (List.mem_of_find?_eq_some found) member same
      simp only [found, isDraft, Option.map_some]

theorem exists_draft_of_written?
    (made : Plan.make formatter occasion.document configuration occasion.time = .ok plan)
    (written : artifact.written? formatter configuration occasion = some content) :
    ∃ draft ∈ plan.drafts, draft.artifact = artifact ∧ draft.content = content := by
  rw [written?, made] at written
  obtain ⟨draft, found, rfl⟩ := Option.map_eq_some_iff.mp written
  exact ⟨draft, List.mem_of_find?_eq_some found, by simpa using List.find?_some found, rfl⟩

theorem exists_written?_iff
    (made : Plan.make formatter occasion.document configuration occasion.time = .ok plan) :
    (∃ content, artifact.written? formatter configuration occasion = some content) ↔
      artifact.isSelected plan.model = true := by
  constructor
  · rintro ⟨content, written⟩
    obtain ⟨draft, member, rfl, _⟩ := exists_draft_of_written? made written
    have isSelected : draft.artifact ∈ Artifact.selected plan.model := by
      rw [← (Plan.drafts_of_make made).1]
      exact List.mem_map_of_mem member
    exact (List.mem_filter.mp isSelected).2
  · intro isSelected
    obtain ⟨draft, member, rfl⟩ := Plan.exists_draft_of_selected made artifact isSelected
    exact ⟨draft.content, written?_of_mem_drafts made member⟩

/-- Iterators belong to the runs over documents with list operations. -/
theorem exists_written?_pagination_iff
    (made : Plan.make formatter occasion.document configuration occasion.time = .ok plan) :
    (∃ content, pagination.written? formatter configuration occasion = some content) ↔
      occasion.document.hasLists = true := by
  rw [exists_written?_iff made]
  obtain ⟨operations, extracted, isModel⟩ := Plan.exists_operations_of_make made
  rw [Document.hasLists, extracted, isModel]
  rfl

/-- Every other file of the tool belongs to every run. -/
theorem exists_written?_of_regenerated
    (made : Plan.make formatter occasion.document configuration occasion.time = .ok plan)
    (owned : artifact.durability = .regenerated)
    (other : artifact ≠ .pagination) :
    ∃ content, artifact.written? formatter configuration occasion = some content := by
  rw [exists_written?_iff made]
  cases artifact with
  | client | server | proto =>
      rfl
  | pagination =>
      exact (other rfl).elim
  | _ =>
      cases owned

theorem overwrite_of_regenerated
    (owned : artifact.durability = .regenerated) :
    artifact.policy = .overwrite := by
  cases artifact <;> first | rfl | cases owned

/-- Only the messages can lie below the iterators. -/
theorem above_pagination_iff
    (ready : configuration.IsReady)
    (inModule : names configuration.moduleRoot <+: names configuration.output)
    {other : Artifact} :
    Above (names (pagination.target configuration)) (names (other.target configuration)) ↔
      other = .proto ∧ (names configuration.protoPath).head? = some pagination.template :=
  above_target_iff_of_flat ready inModule rfl (by decide) (by decide)
    (by simp only [relativePath, template]; decide)

/-- Apart from the messages, what runs leave is what the latest one wrote that wrote anything. -/
theorem foldr_left
    (apart : (names configuration.protoPath).head? ≠ some artifact.template)
    (runs : List Occasion)
    (stood : Option Entry) :
    runs.foldr (artifact.left formatter configuration) stood =
      match runs.findSome? (artifact.written? formatter configuration) with
      | some content => some (.file content.toUTF8)
      | none => stood := by
  induction runs with
  | nil =>
      rfl
  | cons last earlier inductionHypothesis =>
      rw [List.foldr_cons, inductionHypothesis, List.findSome?_cons, left, if_neg apart]
      cases artifact.written? formatter configuration last <;> rfl

end Artifact

namespace Files.Tree

/-- A run that succeeds has a plan for its document, and all drafts of the plan are written. -/
theorem Succeeds.exists_plan
    (succeeds : before.Succeeds formatter configuration occasion after) :
    ∃ plan written,
      Plan.make formatter occasion.document configuration occasion.time = .ok plan ∧
        Writer.writeAll (m := StateM Tree) Writer.files plan.drafts before =
          (.ok written, after) := by
  cases succeeds with
  | made document time ran =>
      unfold runDocument at ran
      cases made : Plan.make formatter document configuration time with
      | error failure =>
          rw [made] at ran
          cases ran
      | ok plan =>
          rw [made] at ran
          exact ⟨plan, _, rfl, (Writer.carryOut_eq_ok ran).1⟩
  | @answered request document report _ configured loaded ran =>
      change carryOut (m := StateM Tree) Writer.files
        (request.prepare (m := ReaderM Tree) formatter before) before = (.ok report, after) at ran
      rw [Request.prepare, bind_reading, configured] at ran
      simp only [bind_reading, loaded] at ran
      cases made : Plan.make formatter document configuration request.time with
      | error failure =>
          rw [made] at ran
          cases ran
      | ok plan =>
          rw [made] at ran
          obtain ⟨outcome, carried, reported⟩ := exists_of_carryOut ran
          cases outcome with
          | error failure =>
              cases reported
          | ok result =>
              exact ⟨plan, _, rfl, (Writer.carryOut_eq_ok carried).1⟩

variable {artifact : Artifact}

/-- Under a tool-owned target stands what a run that succeeds leaves where something stood. -/
theorem Succeeds.leaves
    (plain : before.IsPlain)
    (ready : configuration.IsReady)
    (inModule : names configuration.moduleRoot <+: names configuration.output)
    (succeeds : before.Succeeds formatter configuration occasion after) :
    after.IsPlain ∧
      ∀ artifact : Artifact, artifact.durability = .regenerated →
        after.entry? (names (artifact.target configuration)) =
          artifact.left formatter configuration occasion
            (before.entry? (names (artifact.target configuration))) := by
  obtain ⟨plan, written, made, ran⟩ := succeeds.exists_plan
  obtain ⟨inOrder, allMade⟩ := Plan.drafts_of_make made
  obtain ⟨straight, differ⟩ := Plan.targets_differ ready inOrder allMade
  obtain ⟨settled, changes⟩ := writeAll_settles plain straight differ ran
  refine ⟨changes.plain, fun artifact owned => ?_⟩
  cases isWritten : artifact.written? formatter configuration occasion with
  | some content =>
      obtain ⟨draft, member, rfl, rfl⟩ := Artifact.exists_draft_of_written? made isWritten
      rw [Artifact.left, isWritten, ← (allMade draft member).path]
      rcases settled draft member with shown | ⟨isPolicy, _⟩
      · exact ((changes.plain.read_eq_ok_iff (straight draft member)).mp shown).1
      · rw [Artifact.overwrite_of_regenerated owned] at isPolicy
        cases isPolicy
  | none =>
      -- Only iterators are ever left out, and only messages can come to lie below them.
      have isPagination : artifact = .pagination := by
        by_contra other
        obtain ⟨content, found⟩ := Artifact.exists_written?_of_regenerated made owned other
        rw [isWritten] at found
        cases found
      subst isPagination
      obtain ⟨messages, messagesMember, isMessages⟩ :=
        Plan.exists_draft_of_selected made .proto rfl
      obtain ⟨entry, stands⟩ :=
        (settled messages messagesMember).stands changes.plain (straight messages messagesMember)
      rw [(allMade messages messagesMember).path, isMessages] at stands
      simp only [Artifact.left, isWritten]
      split_ifs with below
      · obtain ⟨name, rest, shape⟩ :=
          (Artifact.above_pagination_iff ready inModule).mpr ⟨rfl, below⟩
        exact changes.plain.directory_above (shape ▸ stands)
      · rcases changes.kept (names (Artifact.target configuration .pagination)) with
          same | ⟨draft, member, isTarget, _⟩ | ⟨_, _, draft, member, above⟩
        · exact same
        · rw [(allMade draft member).path] at isTarget
          have found := Artifact.written?_of_mem_drafts made member
          rw [← Artifact.target_injective ready isTarget, isWritten] at found
          cases found
        · rw [(allMade draft member).path] at above
          exact (below ((Artifact.above_pagination_iff ready inModule).mp above).2).elim

/-- A run that writes iterators does not write messages below them. -/
theorem Succeeds.not_below
    (plain : before.IsPlain)
    (ready : configuration.IsReady)
    (inModule : names configuration.moduleRoot <+: names configuration.output)
    (succeeds : before.Succeeds formatter configuration occasion after)
    {content : String}
    (isWritten :
      Artifact.pagination.written? formatter configuration occasion = some content) :
    (names configuration.protoPath).head? ≠ some Artifact.pagination.template := by
  intro below
  obtain ⟨plan, _, made, _⟩ := succeeds.exists_plan
  obtain ⟨messages, messagesWritten⟩ :
      ∃ content, Artifact.proto.written? formatter configuration occasion = some content :=
    Artifact.exists_written?_of_regenerated made rfl (by decide)
  obtain ⟨plainAfter, leaves⟩ := succeeds.leaves plain ready inModule
  have stands := leaves .proto rfl
  have standsAbove := leaves .pagination rfl
  simp only [Artifact.left, messagesWritten] at stands
  simp only [Artifact.left, isWritten] at standsAbove
  obtain ⟨name, rest, shape⟩ :=
    (Artifact.above_pagination_iff ready inModule).mpr ⟨rfl, below⟩
  rw [plainAfter.directory_above (shape ▸ stands)] at standsAbove
  cases standsAbove

namespace History

variable {runs : List Occasion}

/-- After runs that succeed, each has left what it leaves where the ones before it had. -/
theorem leaves
    (plain : before.IsPlain)
    (ready : configuration.IsReady)
    (inModule : names configuration.moduleRoot <+: names configuration.output)
    (history : before.History formatter configuration runs after) :
    after.IsPlain ∧
      ∀ artifact : Artifact, artifact.durability = .regenerated →
        after.entry? (names (artifact.target configuration)) =
          runs.foldr (artifact.left formatter configuration)
            (before.entry? (names (artifact.target configuration))) := by
  induction history with
  | start =>
      refine ⟨plain, fun artifact owned => ?_⟩
      rw [List.foldr_nil]
  | run _ succeeds inductionHypothesis =>
      obtain ⟨plainBetween, standsBetween⟩ := inductionHypothesis
      obtain ⟨plainAfter, standsAfter⟩ := succeeds.leaves plainBetween ready inModule
      refine ⟨plainAfter, fun artifact owned => ?_⟩
      rw [standsAfter artifact owned, standsBetween artifact owned, List.foldr_cons]

/-- No run that succeeds has written iterators above the messages. -/
theorem not_below
    (plain : before.IsPlain)
    (ready : configuration.IsReady)
    (inModule : names configuration.moduleRoot <+: names configuration.output)
    (history : before.History formatter configuration runs after)
    {content : String}
    (found :
      runs.findSome? (Artifact.pagination.written? formatter configuration) = some content) :
    (names configuration.protoPath).head? ≠ some Artifact.pagination.template := by
  induction history with
  | start =>
      cases found
  | run earlierHistory succeeds inductionHypothesis =>
      rw [List.findSome?_cons] at found
      split at found
      · rename_i isWritten
        exact succeeds.not_below (earlierHistory.leaves plain ready inModule).1 ready inModule
          isWritten
      · exact inductionHypothesis found

variable {last : Occasion} {earlier : List Occasion}

/-- Client, server and messages hold what the last run writes. -/
theorem holds_last
    (plain : before.IsPlain)
    (ready : configuration.IsReady)
    (inModule : names configuration.moduleRoot <+: names configuration.output)
    (history : before.History formatter configuration (last :: earlier) after)
    {artifact : Artifact}
    (owned : artifact.durability = .regenerated)
    (other : artifact ≠ .pagination) :
    ∃ content,
      artifact.written? formatter configuration last = some content ∧
        after.entry? (names (artifact.target configuration)) = some (.file content.toUTF8) := by
  have stands := (history.leaves plain ready inModule).2 artifact owned
  cases history with
  | run _ succeeds =>
      obtain ⟨_, _, made, _⟩ := succeeds.exists_plan
      obtain ⟨content, isWritten⟩ := Artifact.exists_written?_of_regenerated made owned other
      refine ⟨content, isWritten, ?_⟩
      rw [stands, List.foldr_cons]
      simp only [Artifact.left, isWritten]

/-- Only at the iterators can the runs before the last one be told. -/
theorem leaves_alone_iff
    (plain : before.IsPlain)
    (ready : configuration.IsReady)
    (inModule : names configuration.moduleRoot <+: names configuration.output)
    (history : before.History formatter configuration (last :: earlier) after) :
    (∀ artifact : Artifact, artifact.durability = .regenerated →
      after.entry? (names (artifact.target configuration)) =
        artifact.left formatter configuration last
          (before.entry? (names (artifact.target configuration)))) ↔
      Artifact.pagination.left formatter configuration last
          (earlier.foldr (Artifact.pagination.left formatter configuration)
            (before.entry? (names (Artifact.pagination.target configuration)))) =
        Artifact.pagination.left formatter configuration last
          (before.entry? (names (Artifact.pagination.target configuration))) := by
  have stands := (history.leaves plain ready inModule).2 .pagination rfl
  rw [List.foldr_cons] at stands
  rw [← stands]
  constructor
  · intro alone
    exact alone .pagination rfl
  · intro same artifact owned
    by_cases isPagination : artifact = .pagination
    · rw [isPagination]
      exact same
    · obtain ⟨content, isWritten, holds⟩ :=
        history.holds_last plain ready inModule owned isPagination
      rw [holds]
      simp only [Artifact.left, isWritten]

/--
After successful runs in a row, only iterators can be left over from a run before the last one.

Client, server and messages hold what the last run writes.  With the iterators, all files of the
tool are what the last run alone leaves in their place exactly when its document has list
operations, or the latest iterators that a run before it wrote, if one wrote any, are those that
stood there before all runs.
-/
theorem leaves_last_alone_iff
    (plain : before.IsPlain)
    (settles : before.Settles configuration)
    (history : before.History formatter configuration (last :: earlier) after) :
    (∀ artifact : Artifact, artifact.durability = .regenerated → artifact ≠ .pagination →
      ∃ content,
        artifact.written? formatter configuration last = some content ∧
          after.entry? (names (artifact.target configuration)) =
            some (.file content.toUTF8)) ∧
      ((∀ artifact : Artifact, artifact.durability = .regenerated →
          after.entry? (names (artifact.target configuration)) =
            artifact.left formatter configuration last
              (before.entry? (names (artifact.target configuration)))) ↔
        last.document.hasLists = true ∨
          ∀ content,
            earlier.findSome? (Artifact.pagination.written? formatter configuration) =
                some content →
              before.entry? (names (Artifact.pagination.target configuration)) =
                some (.file content.toUTF8)) := by
  obtain ⟨_, _, resolved⟩ := settles
  have ready := Configuration.resolve_isReady plain.isSound resolved
  have inModule := Configuration.resolve_inModule plain resolved
  refine ⟨fun artifact => history.holds_last plain ready inModule, ?_⟩
  rw [history.leaves_alone_iff plain ready inModule]
  cases history with
  | run earlierHistory succeeds =>
    obtain ⟨_, _, made, _⟩ := succeeds.exists_plan
    rw [← Artifact.exists_written?_pagination_iff made]
    simp only [Artifact.left]
    cases Artifact.pagination.written? formatter configuration last with
    | some content =>
        simp
    | none =>
        by_cases below :
            (names configuration.protoPath).head? = some Artifact.pagination.template
        · -- A directory stands there after every run, and no run has written iterators.
          simp only [below, ↓reduceIte, true_iff]
          exact Or.inr fun content found =>
            (earlierHistory.not_below plain ready inModule found below).elim
        · rw [if_neg below, if_neg below, Artifact.foldr_left below]
          cases earlier.findSome? (Artifact.pagination.written? formatter configuration) <;>
            simp [eq_comm]

end History

/-- A run over a document that comes to a result succeeds. -/
theorem Succeeds.of_isSome
    {document : Document}
    {time : Instant}
    (comes : (runDocument (m := StateM Tree) Writer.files formatter document configuration time
      before).1.toOption.isSome = true) :
    before.Succeeds formatter configuration ⟨document, time⟩
      (runDocument (m := StateM Tree) Writer.files formatter document configuration time
        before).2 := by
  rcases ran : runDocument (m := StateM Tree) Writer.files formatter document configuration time
    before with ⟨outcome, after⟩
  rw [ran] at comes
  cases outcome with
  | error failure =>
      cases comes
  | ok result =>
      exact .made document time ran

end Files.Tree

/-! A document with two lists, and one without calls, in either order. -/

theorem clearTree_settles : clearTree.Settles blockedConfiguration :=
  ⟨{}, {}, by
    change @Eq (Except Failure Configuration) _ _
    decide +kernel⟩

theorem clearTree_quiet_listed :
    (runDocument (m := StateM Tree) Writer.files untouched quietDocument blockedConfiguration
      ⟨0, 0⟩ clearTree).1.toOption.isSome = true ∧
    (runDocument (m := StateM Tree) Writer.files untouched repliesDocument blockedConfiguration
      ⟨0, 0⟩
      (runDocument (m := StateM Tree) Writer.files untouched quietDocument
        blockedConfiguration ⟨0, 0⟩ clearTree).2).1.toOption.isSome = true := by
  decide +kernel

theorem clearTree_listed_quiet :
    (runDocument (m := StateM Tree) Writer.files untouched repliesDocument blockedConfiguration
      ⟨0, 0⟩ clearTree).1.toOption.isSome = true ∧
    (runDocument (m := StateM Tree) Writer.files untouched quietDocument blockedConfiguration
      ⟨0, 0⟩
      (runDocument (m := StateM Tree) Writer.files untouched repliesDocument
        blockedConfiguration ⟨0, 0⟩ clearTree).2).1.toOption.isSome = true := by
  decide +kernel

/-- Where the document with lists comes last, all files are what its run alone leaves. -/
theorem clearTree_leaves_last_alone :
    ∃ after : Tree,
      clearTree.IsPlain ∧
        clearTree.Settles blockedConfiguration ∧
        clearTree.History untouched blockedConfiguration
          [⟨repliesDocument, ⟨0, 0⟩⟩, ⟨quietDocument, ⟨0, 0⟩⟩] after ∧
        ∀ artifact : Artifact, artifact.durability = .regenerated →
          after.entry? (names (artifact.target blockedConfiguration)) =
            artifact.left untouched blockedConfiguration ⟨repliesDocument, ⟨0, 0⟩⟩
              (clearTree.entry? (names (artifact.target blockedConfiguration))) := by
  have history : clearTree.History untouched blockedConfiguration
      [⟨repliesDocument, ⟨0, 0⟩⟩, ⟨quietDocument, ⟨0, 0⟩⟩] _ :=
    .run (.run .start (.of_isSome clearTree_quiet_listed.1))
      (.of_isSome clearTree_quiet_listed.2)
  refine ⟨_, clearTree_isPlain, clearTree_settles, history, ?_⟩
  apply (history.leaves_last_alone_iff clearTree_isPlain clearTree_settles).2.mpr
  exact Or.inl (by decide +kernel)

/-- The run over the document with lists writes iterators. -/
theorem repliesDocument_writes_iterators :
    ∃ content,
      Artifact.pagination.written? untouched blockedConfiguration ⟨repliesDocument, ⟨0, 0⟩⟩ =
        some content := by
  have succeeds : clearTree.Succeeds untouched blockedConfiguration _ _ :=
    .of_isSome clearTree_listed_quiet.1
  obtain ⟨_, _, made, _⟩ := succeeds.exists_plan
  exact (Artifact.exists_written?_pagination_iff made).mpr (by decide +kernel)

/-- The run over the document without calls leaves under the iterators what stands there. -/
theorem quietDocument_leaves_iterators
    (stood : Option Entry) :
    Artifact.pagination.left untouched blockedConfiguration ⟨quietDocument, ⟨0, 0⟩⟩ stood =
      stood := by
  have succeeds : clearTree.Succeeds untouched blockedConfiguration _ _ :=
    .of_isSome clearTree_quiet_listed.1
  obtain ⟨_, _, made, _⟩ := succeeds.exists_plan
  have isQuiet : quietDocument.hasLists = false := by decide +kernel
  have apart : (names blockedConfiguration.protoPath).head? ≠
      some Artifact.pagination.template := by
    decide +kernel
  cases isWritten :
      Artifact.pagination.written? untouched blockedConfiguration ⟨quietDocument, ⟨0, 0⟩⟩ with
  | some content =>
      have hasLists := (Artifact.exists_written?_pagination_iff made).mp ⟨content, isWritten⟩
      rw [isQuiet] at hasLists
      cases hasLists
  | none =>
      simp only [Artifact.left, isWritten, if_neg apart]

/-- Where it comes first, iterators are left over that the last run alone does not leave. -/
theorem clearTree_leaves_over :
    ∃ once twice : Tree,
      clearTree.IsPlain ∧
        clearTree.Settles blockedConfiguration ∧
        clearTree.History untouched blockedConfiguration [⟨quietDocument, ⟨0, 0⟩⟩] once ∧
        clearTree.History untouched blockedConfiguration
          [⟨quietDocument, ⟨0, 0⟩⟩, ⟨repliesDocument, ⟨0, 0⟩⟩] twice ∧
        Artifact.pagination.durability = .regenerated ∧
        once.entry? (names (Artifact.pagination.target blockedConfiguration)) = none ∧
        ∃ content,
          twice.entry? (names (Artifact.pagination.target blockedConfiguration)) =
            some (.file content) := by
  obtain ⟨content, isWritten⟩ := repliesDocument_writes_iterators
  obtain ⟨_, _, resolved⟩ := clearTree_settles
  have ready := Configuration.resolve_isReady clearTree_isPlain.isSound resolved
  have inModule := Configuration.resolve_inModule clearTree_isPlain resolved
  have nothing :
      clearTree.entry? (names (Artifact.pagination.target blockedConfiguration)) = none := by
    decide +kernel
  have once : clearTree.History untouched blockedConfiguration [⟨quietDocument, ⟨0, 0⟩⟩] _ :=
    .run .start (.of_isSome clearTree_quiet_listed.1)
  have twice : clearTree.History untouched blockedConfiguration
      [⟨quietDocument, ⟨0, 0⟩⟩, ⟨repliesDocument, ⟨0, 0⟩⟩] _ :=
    .run (.run .start (.of_isSome clearTree_listed_quiet.1))
      (.of_isSome clearTree_listed_quiet.2)
  have onceStands := (once.leaves clearTree_isPlain ready inModule).2 .pagination rfl
  have twiceStands := (twice.leaves clearTree_isPlain ready inModule).2 .pagination rfl
  simp only [List.foldr_cons, List.foldr_nil, quietDocument_leaves_iterators, nothing]
    at onceStands twiceStands
  simp only [Artifact.left, isWritten] at twiceStands
  exact ⟨_, _, clearTree_isPlain, clearTree_settles, once, twice, rfl, onceStands, _,
    twiceStands⟩

end RpcStubs
