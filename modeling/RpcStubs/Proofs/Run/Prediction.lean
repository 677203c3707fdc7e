import RpcStubs.Proofs.Run.Prefix
namespace RpcStubs

open Files Files.Path

/-!
# What a dry run foresees

A dry run judges every draft by the tree that it finds, a real run each one by what the drafts
before it have left.  The two differ about a protected file that is missing at first and whose
place a directory has taken by its turn, and about no other one.
-/

variable {first before after : Tree} {draft : Draft} {done drafts : List Draft}

namespace Draft

/-- What is to be said of a draft, judged by a tree. -/
def foreseen (draft : Draft) (tree : Tree) : Written :=
  ⟨draft.artifact.name, draft.path, outcomeOf draft.artifact.policy (tree.isPresent draft.path)⟩

/-- The target of a protected draft is missing at first, and has become a directory. -/
def IsDisplaced (draft : Draft) (before after : Tree) : Prop :=
  draft.artifact.policy = .skipIfExists ∧
    before.isPresent draft.path = false ∧
    after.entry? (names draft.path) = some .directory

/-- Something stands at the target of a draft with which writing is done. -/
theorem IsSettled.stands
    (plain : after.IsPlain)
    (straight : IsStraight draft.path)
    (settled : draft.IsSettled before after) :
    ∃ entry, after.entry? (names draft.path) = some entry := by
  rcases settled with shown | ⟨_, present, _⟩
  · exact ⟨_, ((plain.read_eq_ok_iff straight).mp shown).1⟩
  · obtain ⟨entry, stands, _⟩ := (plain.isPresent_iff straight).mp present
    exact ⟨entry, stands⟩

end Draft

theorem Files.Tree.IsPlain.isPresent_congr
    {path : String}
    (plainBefore : before.IsPlain)
    (plainAfter : after.IsPlain)
    (straight : IsStraight path)
    (same : after.entry? (names path) = before.entry? (names path)) :
    after.isPresent path = before.isPresent path := by
  rw [Bool.eq_iff_iff, plainAfter.isPresent_iff straight, plainBefore.isPresent_iff straight,
    same]

theorem Files.Tree.IsPlain.isPresent_of_directory
    {path : String}
    (plain : before.IsPlain)
    (straight : IsStraight path)
    (directory : before.entry? (names path) = some .directory) :
    before.isPresent path = true :=
  (plain.isPresent_iff straight).mpr ⟨.directory, directory, fun _ => rfl⟩

namespace Writer

/-- A dry run over drafts says what is foreseen of each, and leaves the tree as it is. -/
theorem writeAll_dry
    (drafts : List Draft)
    (tree : Tree) :
    writeAll (m := StateM Tree) dry drafts tree = (.ok (drafts.map (·.foreseen tree)), tree) := by
  induction drafts with
  | nil =>
      rfl
  | cons draft rest inductionHypothesis =>
      have judged : dry (m := StateM Tree) draft tree =
          (.ok (draft.foreseen tree).outcome, tree) := rfl
      simp only [writeAll, bind_changing, judged, inductionHypothesis]
      rfl

/-- The outcome of writing a draft is the one that its policy asks for. -/
theorem files_outcome
    {outcome : WriteOutcome}
    (ran : files (m := StateM Tree) draft before = (.ok outcome, after)) :
    outcome = outcomeOf draft.artifact.policy (before.isPresent draft.path) := by
  rcases files_cases ran with ⟨skipped, _, isPolicy, present⟩ | ⟨asked, _⟩ | ⟨_, impossible, _⟩
  · cases skipped
    rw [isPolicy, present]
    rfl
  · exact Except.ok.inj asked
  · cases impossible

theorem not_directory_of_writeFile
    {written : Tree}
    (plain : before.IsPlain)
    (straight : IsStraight draft.path)
    (writes : (makeParent (m := StateM Tree) draft.path before).2.writeFile draft.path
      draft.content.toUTF8 = .ok written) :
    before.entry? (names draft.path) ≠ some .directory := by
  intro directory
  have grows := makeParent_grows plain straight
  obtain ⟨_, _, noDirectory, _⟩ := grows.plain.writeFile_cases straight writes
  rcases grows.kept (names draft.path) with same | ⟨_, missing, _⟩
  · exact noDirectory (same.trans directory)
  · rw [missing] at directory
    cases directory

/-- A draft's outcome is foreseen unless a directory has taken its place. -/
theorem files_foreseen_iff
    (plain : first.IsPlain)
    (changes : Changes first before done done)
    (straight : IsStraight draft.path)
    (noTarget : ∀ other ∈ done, names draft.path ≠ names other.path)
    {outcome : WriteOutcome}
    (ran : files (m := StateM Tree) draft before = (.ok outcome, after)) :
    outcome = (draft.foreseen first).outcome ↔ ¬draft.IsDisplaced first after := by
  have asked := files_outcome ran
  have unchanged
      (same : before.entry? (names draft.path) = first.entry? (names draft.path)) :
      outcome = (draft.foreseen first).outcome := by
    rw [asked, plain.isPresent_congr changes.plain straight same]
    rfl
  rcases files_cases ran with ⟨skipped, rfl, isPolicy, present⟩ | ⟨_, _, writes, _⟩ |
    ⟨_, impossible, _⟩
  · cases skipped
    rcases changes.kept (names draft.path) with same | ⟨other, member, isTarget, _⟩ |
      ⟨missing, made, _⟩
    · refine iff_of_true (unchanged same) fun ⟨_, absent, directory⟩ => ?_
      rw [← plain.isPresent_congr changes.plain straight same, present] at absent
      cases absent
    · exact (noTarget other member isTarget).elim
    · have absent : first.isPresent draft.path = false := by
        rw [Bool.eq_false_iff, ne_eq, plain.isPresent_iff straight]
        rintro ⟨entry, stands, _⟩
        rw [missing] at stands
        cases stands
      refine iff_of_false ?_ fun spared => spared ⟨isPolicy, absent, made⟩
      simp [Draft.foreseen, outcomeOf, absent]
  · have noDirectory := not_directory_of_writeFile changes.plain straight writes
    have notDisplaced : ¬draft.IsDisplaced first after := by
      rintro ⟨_, _, directory⟩
      have grows := makeParent_grows changes.plain straight
      obtain ⟨notTop, rfl, _⟩ := grows.plain.writeFile_eq_ok straight writes
      rw [Tree.entry?_place _ notTop, if_pos rfl] at directory
      cases directory
    -- Had a directory come to stand there, the file could not be written.
    rcases changes.kept (names draft.path) with same | ⟨other, member, isTarget, _⟩ |
      ⟨_, made, _⟩
    · exact iff_of_true (unchanged same) notDisplaced
    · exact (noTarget other member isTarget).elim
    · exact (noDirectory made).elim
  · cases impossible

end Writer

/-- The outcomes of a run are foreseen unless directories have taken the place of drafts. -/
theorem writeAll_foreseen_iff
    {written : List Written}
    (plain : first.IsPlain)
    (changes : Changes first before done done)
    (straight : ∀ draft ∈ drafts, IsStraight draft.path)
    (differ : ((done ++ drafts).map fun draft => names draft.path).Nodup)
    (ran : Writer.writeAll (m := StateM Tree) Writer.files drafts before =
      (.ok written, after)) :
    written.map (fun entry => (entry.name, entry.path)) =
        drafts.map (fun draft => (draft.artifact.name, draft.path)) ∧
      (written = drafts.map (·.foreseen first) ↔
        ∀ draft ∈ drafts, ¬draft.IsDisplaced first after) := by
  induction drafts generalizing before done written with
  | nil =>
      cases ran
      simp
  | cons draft rest inductionHypothesis =>
      have draftStraight : IsStraight draft.path := straight draft (by simp)
      have restStraight : ∀ other ∈ rest, IsStraight other.path :=
        fun other member => straight other (List.mem_cons_of_mem _ member)
      obtain ⟨_, laterDiffer, apart⟩ :=
        List.nodup_append.mp ((List.map_append ..).symm ▸ differ)
      have noTarget : ∀ other ∈ done, names draft.path ≠ names other.path := by
        intro other member same
        exact apart _ (List.mem_map_of_mem member) _ (by simp) same.symm
      obtain ⟨noLater, restDiffer⟩ := targets_differ_cons laterDiffer
      obtain ⟨outcome, between, others, firstRan, restRan, rfl⟩ :=
        Writer.writeAll_cons_eq_ok ran
      obtain ⟨settled, draftChanges⟩ :=
        Writer.files_eq_ok changes.plain draftStraight firstRan
      obtain ⟨_, restChanges⟩ :=
        writeAll_settles draftChanges.plain restStraight restDiffer restRan
      -- What stands at the target after its turn is still there at the end.
      have stays : draft.IsDisplaced first between ↔ draft.IsDisplaced first after := by
        obtain ⟨entry, stands⟩ := settled.stands draftChanges.plain draftStraight
        unfold Draft.IsDisplaced
        rw [stands, restChanges.entry?_eq noLater stands]
      have outcomeIff :=
        Writer.files_foreseen_iff plain changes draftStraight noTarget firstRan
      obtain ⟨restNamed, restIff⟩ :=
        inductionHypothesis (changes.trans draftChanges) restStraight (by simpa using differ)
          restRan
      refine ⟨by simp [restNamed], ?_⟩
      rw [List.forall_mem_cons, ← stays, ← outcomeIff, ← restIff]
      simp [Draft.foreseen]

/-- A directory takes the place of a missing protected file when it is above another draft. -/
theorem Draft.isDisplaced_iff
    (plain : before.IsPlain)
    (straight : ∀ draft ∈ drafts, IsStraight draft.path)
    (settled : ∀ draft ∈ drafts, draft.IsSettled before after)
    (changes : Changes before after drafts drafts)
    (member : draft ∈ drafts) :
    draft.IsDisplaced before after ↔
      draft.artifact.policy = .skipIfExists ∧
        before.isPresent draft.path = false ∧
        ∃ other ∈ drafts, Above (names draft.path) (names other.path) := by
  constructor
  · rintro ⟨isPolicy, absent, directory⟩
    refine ⟨isPolicy, absent, ?_⟩
    rcases changes.kept (names draft.path) with same | ⟨_, _, _, stands⟩ |
      ⟨_, _, other, otherMember, above⟩
    · have present :=
        plain.isPresent_of_directory (straight draft member) (same.symm.trans directory)
      rw [present] at absent
      cases absent
    · rw [directory] at stands
      cases stands
    · exact ⟨other, otherMember, above⟩
  · rintro ⟨isPolicy, absent, other, otherMember, name, rest, shape⟩
    obtain ⟨entry, stands⟩ :=
      (settled other otherMember).stands changes.plain (straight other otherMember)
    exact ⟨isPolicy, absent, changes.plain.directory_above (shape ▸ stands)⟩

variable {tree : Tree} {formatter : Source.Formatter} {request : Request}
  {configuration : Configuration} {plan : Plan}

namespace Artifact

/-- The files that are protected are in the output directory, under the names of templates. -/
theorem of_skipIfExists
    (configuration : Configuration)
    {artifact : Artifact}
    (isPolicy : artifact.policy = .skipIfExists) :
    artifact.destination = .outputDirectory ∧
      artifact.condition = .full ∧
      artifact ≠ .proto ∧
      artifact.template ≠ "cmd" ∧
      names (artifact.relativePath configuration) = [artifact.template] := by
  cases artifact with
  | buf | bufGen =>
      exact ⟨rfl, rfl, by decide, by decide, by simp only [relativePath, template]; decide⟩
  | _ =>
      cases isPolicy

/-- Only the daemon and the messages can lie in a directory of their own. -/
theorem names_relativePath
    (configuration : Configuration)
    {artifact : Artifact}
    (other : artifact ≠ .proto) :
    names (artifact.relativePath configuration) = [artifact.template] ∨
      names (artifact.relativePath configuration) = ["cmd", "server", artifact.template] := by
  cases artifact with
  | proto =>
      exact (other rfl).elim
  | _ =>
      simp only [relativePath, template]
      decide

/--
Above a target lies a file of the output directory only when the path of the messages says so.

This is about the files that are named by their templates, and not the command.
-/
theorem above_target_iff_of_flat
    (ready : configuration.IsReady)
    (inModule : names configuration.moduleRoot <+: names configuration.output)
    {artifact other : Artifact}
    (inOutput : artifact.destination = .outputDirectory)
    (notMessages : artifact ≠ .proto)
    (notCommand : artifact.template ≠ "cmd")
    (isTemplate : names (artifact.relativePath configuration) = [artifact.template]) :
    Above (names (artifact.target configuration)) (names (other.target configuration)) ↔
      other = .proto ∧ (names configuration.protoPath).head? = some artifact.template := by
  simp only [names_target ready artifact, inOutput, isTemplate]
  constructor
  · rintro ⟨name, rest, shape⟩
    by_cases otherInOutput : other.destination = .outputDirectory
    · rw [names_target ready other, otherInOutput, List.append_assoc,
        List.append_cancel_left_eq] at shape
      by_cases messages : other = .proto
      · subst messages
        exact ⟨rfl, by rw [show names configuration.protoPath = _ from shape]; rfl⟩
      · rcases names_relativePath configuration messages with flat | deep
        · simp [flat] at shape
        · rw [deep] at shape
          exact (notCommand (List.cons.inj shape).1.symm).elim
    · obtain rfl : other = .makefile := by
        cases other <;> simp [destination] at otherInOutput ⊢
      have lands : names (target configuration .makefile) =
          names configuration.moduleRoot ++ names "Makefile" :=
        names_target ready .makefile
      rw [show names "Makefile" = ["Makefile"] by decide] at lands
      have shorter := inModule.length_le
      have lengths := congrArg List.length (lands.symm.trans shape)
      simp only [List.length_append, List.length_cons, List.length_nil] at lengths
      omega
  · rintro ⟨rfl, starts⟩
    obtain ⟨rest, shape⟩ := List.head?_eq_some_iff.mp starts
    rw [names_target ready .proto, relativePath, shape]
    cases rest with
    | nil =>
        have sameName :
            fileName? configuration.protoPath =
              fileName? (artifact.relativePath configuration) := by
          rw [ready.protoPath.fileName?_eq, shape,
            (fileName?_relativePath configuration notMessages).2]
          rfl
        have isProto := (extension?_congr sameName).symm.trans ready.isProto
        exact (extension?_relativePath configuration notMessages isProto).elim
    | cons name later =>
        exact ⟨name, later, by simp [destination]⟩

/-- Above a target lies a protected file only when the path of the messages says so. -/
theorem above_target_iff
    (ready : configuration.IsReady)
    (inModule : names configuration.moduleRoot <+: names configuration.output)
    {artifact other : Artifact}
    (isPolicy : artifact.policy = .skipIfExists) :
    Above (names (artifact.target configuration)) (names (other.target configuration)) ↔
      other = .proto ∧ (names configuration.protoPath).head? = some artifact.template := by
  obtain ⟨inOutput, _, notMessages, notCommand, isTemplate⟩ :=
    of_skipIfExists configuration isPolicy
  exact above_target_iff_of_flat ready inModule inOutput notMessages notCommand isTemplate

end Artifact

/-- The message file is to lie in a directory that takes the place of a protected file. -/
def Configuration.Displaces (configuration : Configuration) (tree : Tree) : Prop :=
  configuration.full = true ∧
    ∃ artifact : Artifact,
      artifact.policy = .skipIfExists ∧
        (names configuration.protoPath).head? = some artifact.template ∧
        tree.isPresent (artifact.target configuration) = false

/-- Among the drafts of a plan one is displaced exactly if the path of the messages says so. -/
theorem Plan.exists_displaced_iff
    {document : Document}
    {time : Instant}
    (plain : before.IsPlain)
    (ready : configuration.IsReady)
    (inModule : names configuration.moduleRoot <+: names configuration.output)
    (made : Plan.make formatter document configuration time = .ok plan)
    (settled : ∀ draft ∈ plan.drafts, draft.IsSettled before after)
    (changes : Changes before after plan.drafts plan.drafts) :
    (∃ draft ∈ plan.drafts, draft.IsDisplaced before after) ↔ configuration.Displaces before := by
  obtain ⟨inOrder, allMade⟩ := Plan.drafts_of_make made
  obtain ⟨straight, _⟩ := Plan.targets_differ ready inOrder allMade
  have full : plan.model.full = configuration.full := by
    obtain ⟨_, _, isModel⟩ := Plan.exists_operations_of_make made
    rw [isModel]
    rfl
  have selects {artifact : Artifact} (isPolicy : artifact.policy = .skipIfExists) :
      artifact.isSelected plan.model = configuration.full := by
    obtain ⟨_, onlyFull, _⟩ := Artifact.of_skipIfExists configuration isPolicy
    rw [Artifact.isSelected, onlyFull, full]
  constructor
  · rintro ⟨draft, member, displaced⟩
    obtain ⟨isPolicy, absent, other, otherMember, above⟩ :=
      (Draft.isDisplaced_iff plain straight settled changes member).mp displaced
    have isSelected : draft.artifact ∈ Artifact.selected plan.model := by
      rw [← inOrder]
      exact List.mem_map_of_mem member
    rw [(allMade draft member).path] at absent above
    rw [(allMade other otherMember).path] at above
    refine ⟨?_, draft.artifact, isPolicy, ?_, absent⟩
    · exact (selects isPolicy).symm.trans (List.mem_filter.mp isSelected).2
    · exact ((Artifact.above_target_iff ready inModule isPolicy).mp above).2
  · rintro ⟨isFull, artifact, isPolicy, starts, absent⟩
    obtain ⟨draft, member, rfl⟩ :=
      Plan.exists_draft_of_selected made artifact ((selects isPolicy).trans isFull)
    obtain ⟨messages, messagesMember, isMessages⟩ :=
      Plan.exists_draft_of_selected made .proto rfl
    refine ⟨draft, member, (Draft.isDisplaced_iff plain straight settled changes member).mpr
      ⟨isPolicy, ?_, messages, messagesMember, ?_⟩⟩
    · rw [(allMade draft member).path]
      exact absent
    · rw [(allMade draft member).path, (allMade messages messagesMember).path]
      exact (Artifact.above_target_iff ready inModule isPolicy).mpr ⟨isMessages, starts⟩

/-- A plan that is carried out has all its drafts written, and is reported with its counts. -/
theorem Writer.carryOut_eq_ok
    {result : RunResult}
    (ran : Writer.carryOut (m := StateM Tree) Writer.files plan tree = (.ok result, after)) :
    Writer.writeAll (m := StateM Tree) Writer.files plan.drafts tree =
        (.ok result.written, after) ∧
      result =
        { written := result.written
          operationCount := plan.model.operations.length
          listCount := plan.model.lists.length
          generatedAt := plan.model.generatedAt } := by
  rw [Writer.carryOut, bind_changing] at ran
  rcases written : Writer.writeAll (m := StateM Tree) Writer.files plan.drafts tree
    with ⟨outcomes, last⟩
  rw [written] at ran
  cases outcomes with
  | error failure =>
      cases ran
  | ok outcomes =>
      cases ran
      exact ⟨rfl, rfl⟩

/-- A dry run over a plan reports what is foreseen of its drafts. -/
theorem Writer.carryOut_dry
    (plan : Plan)
    (tree : Tree) :
    Writer.carryOut (m := StateM Tree) Writer.dry plan tree =
      (.ok
        { written := plan.drafts.map (·.foreseen tree)
          operationCount := plan.model.operations.length
          listCount := plan.model.lists.length
          generatedAt := plan.model.generatedAt }, tree) := by
  rw [Writer.carryOut, bind_changing, Writer.writeAll_dry]
  rfl

/--
A dry run changes nothing, and foresees a run that succeeds, unless that run displaces a
protected file.

Where the real run succeeds, so does the dry run, and its report has the same files in the
same order and the same counts of operations.  The reports are equal exactly when the message
file does not lie in a directory that takes the place of a protected file.
-/
theorem generate_dry_foresees_iff
    (plain : tree.IsPlain) :
    (tree.generate Writer.dry formatter request).2 = tree ∧
      ∀ report after,
        tree.generate Writer.files formatter request = (.ok report, after) →
          ∃ configuration plan predicted,
            request.prepare (m := ReaderM Tree) formatter tree = .ok (configuration, plan) ∧
              tree.generate Writer.dry formatter request = (.ok predicted, tree) ∧
              predicted =
                { report with result :=
                  { report.result with written := predicted.result.written } } ∧
              predicted.result.written.map (fun entry => (entry.name, entry.path)) =
                report.result.written.map (fun entry => (entry.name, entry.path)) ∧
              (predicted = report ↔ ¬configuration.Displaces tree) := by
  have dryRun :
      tree.generate Writer.dry formatter request =
        carryOut (m := StateM Tree) Writer.dry
          (request.prepare (m := ReaderM Tree) formatter tree) tree := rfl
  have realRun :
      tree.generate Writer.files formatter request =
        carryOut (m := StateM Tree) Writer.files
          (request.prepare (m := ReaderM Tree) formatter tree) tree := rfl
  rw [dryRun, realRun]
  rcases Request.prepare_cases plain
    (rfl : request.prepare (m := ReaderM Tree) formatter tree = _) with
    ⟨rejection, failed, _⟩ | ⟨configuration, plan, prepared, ready, inOrder, allMade⟩
  · rw [failed]
    refine ⟨rfl, fun report after ran => ?_⟩
    cases ran
  · rw [prepared]
    simp only [carryOut, bind_changing, Writer.carryOut_dry]
    refine ⟨rfl, fun report after ran => ?_⟩
    rcases carried : Writer.carryOut (m := StateM Tree) Writer.files plan tree
      with ⟨outcome, last⟩
    rw [carried] at ran
    cases outcome with
    | error failure =>
        cases ran
    | ok result =>
        cases ran
        obtain ⟨⟨_, resolved⟩, _, made⟩ := Request.exists_of_prepare prepared
        obtain ⟨written, counts⟩ := Writer.carryOut_eq_ok carried
        obtain ⟨straight, differ⟩ := Plan.targets_differ ready inOrder allMade
        obtain ⟨settled, changes⟩ := writeAll_settles plain straight differ written
        obtain ⟨sameFiles, foreseenIff⟩ :=
          writeAll_foreseen_iff plain (.refl plain [] []) straight differ written
        have displacedIff :=
          Plan.exists_displaced_iff plain ready
            (Configuration.resolve_inModule plain resolved) made settled changes
        refine ⟨configuration, plan, _, rfl, rfl, ?_, ?_, ?_⟩
        · rw [counts]
        · rw [sameFiles, List.map_map]
          rfl
        · rw [← displacedIff, not_exists]
          simp only [not_and]
          rw [← foreseenIff, counts]
          simp only [GenerationReport.mk.injEq, RunResult.mk.injEq, true_and, and_true]
          exact eq_comm

/-- A tree in which everything can be generated. -/
def clearTree : Tree := blockedTree.remove ["work", "proto"]

/-- A request to generate everything, with a path for the message file. -/
def fullRequest (protoPath : String) : Request :=
  { blockedRequest with choices := { full := true, protoPath := some protoPath } }

theorem clearTree_isPlain : clearTree.IsPlain :=
  Tree.isPlain_of_entries (by decide) (by decide) (by decide) (by decide)

/-- With the messages in a directory of their own, everything is generated as foreseen. -/
theorem clearTree_foreseen :
    clearTree.IsPlain ∧
      ∃ report after,
        clearTree.generate Writer.files untouched (fullRequest "proto/api.proto") =
            (.ok report, after) ∧
          clearTree.generate Writer.dry untouched (fullRequest "proto/api.proto") =
            (.ok report, clearTree) := by
  have succeeds :
      (clearTree.generate Writer.files untouched
        (fullRequest "proto/api.proto")).1.toOption.isSome = true := by
    decide +kernel
  have paths :
      ((fullRequest "proto/api.proto").prepare (m := ReaderM Tree) untouched
        clearTree).toOption.map (fun prepared => prepared.1.protoPath) =
        some "proto/api.proto" := by
    decide +kernel
  rcases ran : clearTree.generate Writer.files untouched (fullRequest "proto/api.proto")
    with ⟨result, after⟩
  rw [ran] at succeeds
  cases result with
  | error rejection =>
      cases succeeds
  | ok report =>
      obtain ⟨configuration, plan, predicted, prepared, dryRan, _, _, equalIff⟩ :=
        (generate_dry_foresees_iff clearTree_isPlain).2 report after ran
      rw [prepared] at paths
      have isPath : configuration.protoPath = "proto/api.proto" := Option.some.inj paths
      have spared : ¬configuration.Displaces clearTree := by
        rintro ⟨_, artifact, isPolicy, starts, _⟩
        rw [isPath] at starts
        cases artifact <;> revert isPolicy starts <;> decide
      rw [equalIff.mpr spared] at dryRan
      exact ⟨clearTree_isPlain, report, after, rfl, dryRan⟩

/-- With the messages below `buf.yaml`, a file is foreseen that is then skipped. -/
theorem clearTree_displaced :
    clearTree.IsPlain ∧
      ∃ report predicted,
        (clearTree.generate Writer.files untouched (fullRequest "buf.yaml/api.proto")).1 =
            .ok report ∧
          (clearTree.generate Writer.dry untouched (fullRequest "buf.yaml/api.proto")).1 =
            .ok predicted ∧
          ⟨"buf", "/work/buf.yaml", .skipped⟩ ∈ report.result.written ∧
          ⟨"buf", "/work/buf.yaml", .created⟩ ∈ predicted.result.written ∧
          predicted ≠ report := by
  have skips :
      ((clearTree.generate Writer.files untouched
        (fullRequest "buf.yaml/api.proto")).1.toOption.map fun report =>
          report.result.written.filter (·.name = "buf")) =
        some [⟨"buf", "/work/buf.yaml", .skipped⟩] := by
    decide +kernel
  have creates :
      ((clearTree.generate Writer.dry untouched
        (fullRequest "buf.yaml/api.proto")).1.toOption.map fun report =>
          report.result.written.filter (·.name = "buf")) =
        some [⟨"buf", "/work/buf.yaml", .created⟩] := by
    decide +kernel
  cases ran : (clearTree.generate Writer.files untouched (fullRequest "buf.yaml/api.proto")).1
    with
  | error rejection =>
      rw [ran] at skips
      cases skips
  | ok report =>
      cases dryRan : (clearTree.generate Writer.dry untouched
        (fullRequest "buf.yaml/api.proto")).1 with
      | error rejection =>
          rw [dryRan] at creates
          cases creates
      | ok predicted =>
          rw [ran] at skips
          rw [dryRan] at creates
          have reported := Option.some.inj skips
          have foreseen := Option.some.inj creates
          refine ⟨clearTree_isPlain, report, predicted, rfl, rfl, ?_, ?_, ?_⟩
          · exact (List.mem_filter.mp (reported ▸ List.mem_singleton.mpr rfl)).1
          · exact (List.mem_filter.mp (foreseen ▸ List.mem_singleton.mpr rfl)).1
          · rintro rfl
            rw [reported] at foreseen
            cases foreseen

end RpcStubs
