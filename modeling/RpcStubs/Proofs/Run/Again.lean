import RpcStubs.Proofs.Files.Additions
import RpcStubs.Proofs.Run.Footprint
namespace RpcStubs

open Files Files.Path

/-!
# Runs that are repeated

A run that has succeeded can be repeated on the tree that it leaves, and leaves that tree as it
is.  The second run finds every target where the first one has put it.  While it goes on, the
tree differs from the final one at most in files that the first run had not yet replaced when it
was as far; each step brings it as far as the first run was after that step.
-/

/-- What happens again to a file that is there. -/
def WritePolicy.again : WritePolicy → WriteOutcome
  | .overwrite => .overwritten
  | .skipIfExists => .skipped

/-- What a repeated run reports of an artifact. -/
def Artifact.again (configuration : Configuration) (artifact : Artifact) : Written :=
  ⟨artifact.name, artifact.target configuration, artifact.policy.again⟩

/-- What a repeated run reports of a draft. -/
def Draft.again (draft : Draft) : Written :=
  ⟨draft.artifact.name, draft.path, draft.artifact.policy.again⟩

/--
A tree that is like the final one, except for files that are like in an earlier one.

It has the same names in the same order, and under each the entry of the final tree, or the
file of the earlier one.
-/
structure Files.Tree.Mixes (tree earlier final : Tree) : Prop where
  workplace : tree.workplace = final.workplace
  names : tree.entries.names = final.entries.names
  entries : ∀ names,
    tree.entries.get? names = final.entries.get? names ∨
      ∃ content,
        tree.entries.get? names = some (.file content) ∧
          earlier.entries.get? names = some (.file content)

variable {tree before made after final : Tree} {draft : Draft}

namespace Files.Tree.Mixes

theorem refl
    (earlier final : Tree) :
    final.Mixes earlier final :=
  ⟨rfl, rfl, fun _ => Or.inl rfl⟩

/-- A tree that mixes the final one with itself is the final one. -/
theorem eq
    (mixes : tree.Mixes final final) :
    tree = final := by
  have same : tree.entries = final.entries := by
    refine Catalog.eq_of_get? mixes.names fun names => ?_
    rcases mixes.entries names with same | ⟨content, here, there⟩
    · exact same
    · rw [here, there]
  obtain ⟨entries, workplace⟩ := tree
  obtain ⟨finalEntries, finalWorkplace⟩ := final
  cases same
  cases mixes.workplace
  rfl

/-- What mixes the final tree with one that it extends has everything that the final one has. -/
theorem extended
    (mixes : tree.Mixes before final)
    (becomes : before.Extends final) :
    final.Extends tree := by
  have kept (names : List String) (entry : Entry)
      (stands : final.entry? names = some entry) :
      ∃ other, tree.entry? names = some other ∧ entry.SameKind other := by
    have noLink (target : String) : entry ≠ .link target :=
      fun same => becomes.linkFree names target (same ▸ stands)
    by_cases top : names = []
    · rw [top] at stands ⊢
      exact ⟨entry, stands, .of_not_link noLink⟩
    · rcases mixes.entries names with same | ⟨content, here, there⟩
      · rw [Tree.entry?_of_ne_nil top] at stands ⊢
        exact ⟨entry, same.trans stands, .of_not_link noLink⟩
      · rw [← Tree.entry?_of_ne_nil top] at here there
        obtain ⟨_, stillThere, same⟩ := becomes.kept names _ there
        rw [stands] at stillThere
        cases stillThere
        cases same
        exact ⟨_, here, .file _ _⟩
  refine ⟨?_, mixes.workplace, kept⟩
  intro names target stands
  by_cases top : names = []
  · rw [top] at stands
    cases stands
  · rcases mixes.entries names with same | ⟨content, here, _⟩
    · rw [Tree.entry?_of_ne_nil top, same, ← Tree.entry?_of_ne_nil top] at stands
      exact becomes.linkFree names target stands
    · rw [Tree.entry?_of_ne_nil top, here] at stands
      cases stands

/-- What was not written since the earlier tree is mixed in from a later one as well. -/
theorem mono
    (mixes : tree.Mixes before final)
    (kept : ∀ names content,
      before.entries.get? names = some (.file content) →
        after.entries.get? names = some (.file content)) :
    tree.Mixes after final where
  workplace := mixes.workplace
  names := mixes.names
  entries names := (mixes.entries names).imp_right fun ⟨content, here, there⟩ =>
    ⟨content, here, kept names content there⟩

/-- A file that is written again is as in the later tree. -/
theorem place
    {names : List String}
    {content : ByteArray}
    (mixes : tree.Mixes before final)
    (there : names ∈ tree.entries.names)
    (kept : ∀ others, others ≠ names →
      ∀ entry, before.entries.get? others = some entry → after.entries.get? others = some entry)
    (written : after.entries.get? names = some (.file content)) :
    (tree.place names (.file content)).Mixes after final where
  workplace := mixes.workplace
  names := by
    rw [← mixes.names]
    exact (Catalog.map_declareIn _ _ _).trans (if_pos there)
  entries others := by
    rw [Tree.get?_place]
    split
    · rename_i same
      exact Or.inr ⟨content, rfl, same ▸ written⟩
    · rename_i differs
      refine (mixes.entries others).imp_right ?_
      rintro ⟨old, here, earlier⟩
      exact ⟨old, here, kept others differs _ earlier⟩

end Files.Tree.Mixes

namespace Writer

/-- Room for a file is made by adding directories, and then it is there. -/
theorem makeParent_eq_ok
    {path : String}
    (linkFree : before.LinkFree)
    (isMade : makeParent (m := StateM Tree) path before = (.ok (), made)) :
    before.Adds made ∧ made.HasRoom path := by
  unfold makeParent at isMade
  cases isParent : parent? path with
  | none =>
      rw [isParent] at isMade
      cases isMade
      exact ⟨.refl linkFree, fun parent same => by rw [isParent] at same; cases same⟩
  | some parent =>
      rw [isParent] at isMade
      have chained : before.makeChain (parent :: parents parent) = (.ok (), made) := isMade
      have added := linkFree.makeChain_adds (parent :: parents parent)
      rw [chained] at added
      refine ⟨added, fun other same => ?_⟩
      rw [isParent] at same
      cases same
      exact linkFree.makeChain_eq_ok chained

/-- Where there is room for a file, nothing is made. -/
theorem makeParent_of_hasRoom
    {path : String}
    (linkFree : tree.LinkFree)
    (room : tree.HasRoom path) :
    makeParent (m := StateM Tree) path tree = (.ok (), tree) := by
  unfold makeParent
  cases isParent : parent? path with
  | none =>
      rfl
  | some parent =>
      exact linkFree.makeChain_of_isDirectory (room parent isParent) (parents parent)

/-- A draft that is not refused is skipped, or written where room is made for it. -/
theorem files_ok_cases
    {outcome : WriteOutcome}
    (ran : files (m := StateM Tree) draft before = (.ok outcome, after)) :
    (after = before ∧
        draft.artifact.policy = .skipIfExists ∧ before.isPresent draft.path = true) ∨
      ∃ made,
        makeParent (m := StateM Tree) draft.path before = (.ok (), made) ∧
          made.writeFile draft.path draft.content.toUTF8 = .ok after ∧
          (draft.artifact.policy = .skipIfExists → before.isPresent draft.path = false) := by
  rcases files_cases ran with ⟨_, same, isProtected⟩ | ⟨_, room, writes⟩ | ⟨_, impossible, _⟩
  · exact Or.inl ⟨same, isProtected⟩
  · exact Or.inr ⟨_, Prod.ext room rfl, writes⟩
  · cases impossible

/-- A draft that is overwritten where it is changes nothing but its content. -/
theorem files_overwrites
    {names : List String}
    {old : ByteArray}
    (linkFree : tree.LinkFree)
    (isPolicy : draft.artifact.policy = .overwrite)
    (room : tree.HasRoom draft.path)
    (ends : Tree.endsInDirectory (piecesOf draft.path) = false)
    (looked : tree.look draft.path = .ok ({ names := names }, .file old)) :
    files (m := StateM Tree) draft tree =
      (.ok .overwritten, tree.place names (.file draft.content.toUTF8)) := by
  have present : tree.isPresent draft.path = true := by
    rw [Tree.isPresent, looked]
  have overwritten : outcomeOf draft.artifact.policy (tree.isPresent draft.path) =
      .overwritten := by
    rw [isPolicy, present]
    rfl
  rw [files, writeAt, bind_changing, dryAt_on_tree]
  simp only [overwritten, reduceCtorEq, ↓reduceIte]
  rw [bind_changing, makeParent_of_hasRoom linkFree room]
  simp only [bind_changing, Writes.writeFile]
  rw [linkFree.writeFile_of_look ends looked]
  rfl

/-- A draft that is done with extends the tree, and what is overwritten has its room there. -/
theorem files_extends
    {outcome : WriteOutcome}
    (linkFree : before.LinkFree)
    (ran : files (m := StateM Tree) draft before = (.ok outcome, after)) :
    before.Extends after ∧
      (draft.artifact.policy = .overwrite → after.HasRoom draft.path) := by
  rcases files_ok_cases ran with ⟨rfl, isPolicy, _⟩ | ⟨made, isMade, writes, _⟩
  · exact ⟨.refl linkFree, fun other => by rw [isPolicy] at other; cases other⟩
  · obtain ⟨adds, room⟩ := makeParent_eq_ok linkFree isMade
    obtain ⟨_, written, _⟩ := adds.linkFree.writeFile_eq_ok writes
    exact ⟨(adds.extended linkFree).trans written, fun _ => room.mono adds.linkFree written⟩

/--
A draft that was done with can be done with again in a tree that is as far.

A protected draft needs room that is there from the start: where the directories on the way
were still to be made, a file behind them would not have been seen.
-/
theorem files_again
    {outcome : WriteOutcome}
    (linkFree : before.LinkFree)
    (ran : files (m := StateM Tree) draft before = (.ok outcome, after))
    (becomes : after.Extends final)
    (mixes : tree.Mixes before final)
    (room : draft.artifact.policy = .skipIfExists → before.HasRoom draft.path) :
    ∃ next,
      files (m := StateM Tree) draft tree = (.ok draft.artifact.policy.again, next) ∧
        next.Mixes after final := by
  have extended : final.Extends tree :=
    mixes.extended ((files_extends linkFree ran).1.trans becomes)
  rcases files_ok_cases ran with ⟨rfl, isPolicy, present⟩ | ⟨made, isMade, writes, absent⟩
  · have stillPresent : tree.isPresent draft.path = true :=
      extended.isPresent becomes.linkFree (becomes.isPresent linkFree present)
    rw [isPolicy]
    exact ⟨tree, files_skips isPolicy stillPresent, mixes⟩
  · obtain ⟨adds, roomMade⟩ := makeParent_eq_ok linkFree isMade
    obtain ⟨ends, written, names, notTop, rfl, looked, free⟩ :=
      adds.linkFree.writeFile_eq_ok writes
    -- The second run finds the target where the first one has written it.
    have reaches := becomes.trans extended
    obtain ⟨_, looksAgain, same⟩ := reaches.look written.linkFree looked
    cases same with
    | file _ old =>
        have kept (others : List String) (differs : others ≠ names) (entry : Entry)
            (stands : before.entries.get? others = some entry) :
            (made.place names (.file draft.content.toUTF8)).entries.get? others =
              some entry := by
          rw [Tree.get?_place, if_neg differs]
          exact adds.kept others entry stands
        cases isPolicy : draft.artifact.policy with
        | overwrite =>
            have roomAgain : tree.HasRoom draft.path :=
              (roomMade.mono adds.linkFree written).mono written.linkFree reaches
            have stands :
                Tree.entry? (made.place names (.file draft.content.toUTF8)) names =
                  some (.file draft.content.toUTF8) := by
              rw [made.entry?_place notTop, if_pos rfl]
            obtain ⟨_, there, _⟩ := reaches.kept names _ stands
            rw [Tree.entry?_of_ne_nil notTop] at there stands
            have listed : names ∈ tree.entries.names :=
              List.mem_map_of_mem (Catalog.get?_eq_some_iff.mp there)
            exact ⟨_, files_overwrites extended.linkFree isPolicy roomAgain ends looksAgain,
              mixes.place listed kept stands⟩
        | skipIfExists =>
            have present : tree.isPresent draft.path = true := by
              rw [Tree.isPresent, looksAgain]
            refine ⟨tree, files_skips isPolicy present, mixes.mono ?_⟩
            intro others content stands
            refine kept others ?_ _ stands
            rintro rfl
            -- With room from the start, nothing stood at the target that was missed.
            rw [makeParent_of_hasRoom linkFree (room isPolicy)] at isMade
            cases isMade
            have missing := free (absent isPolicy)
            rw [Tree.entry?_of_ne_nil notTop, stands] at missing
            cases missing

/-- Writing drafts extends the tree, when it succeeds. -/
theorem writeAll_extends
    {drafts : List Draft}
    {written : List Written}
    (linkFree : before.LinkFree)
    (ran : writeAll (m := StateM Tree) files drafts before = (.ok written, after)) :
    before.Extends after := by
  induction drafts generalizing before written with
  | nil =>
      cases ran
      exact .refl linkFree
  | cons draft rest inductionHypothesis =>
      obtain ⟨_, between, _, firstRan, restRan, _⟩ := writeAll_cons_eq_ok ran
      have extended := (files_extends linkFree firstRan).1
      exact extended.trans (inductionHypothesis extended.linkFree restRan)

/-- Writing goes on after a draft with which it is done. -/
theorem writeAll_cons
    {rest : List Draft}
    {outcome : WriteOutcome}
    {written : List Written}
    (first : files (m := StateM Tree) draft before = (.ok outcome, made))
    (others : writeAll (m := StateM Tree) files rest made = (.ok written, after)) :
    writeAll (m := StateM Tree) files (draft :: rest) before =
      (.ok (⟨draft.artifact.name, draft.path, outcome⟩ :: written), after) := by
  rw [writeAll, bind_changing, first]
  simp only [bind_changing, others]
  rfl

/-- Drafts that were written can be written again in a tree that is as far. -/
theorem writeAll_again
    {drafts : List Draft}
    {written : List Written}
    (linkFree : before.LinkFree)
    (ran : writeAll (m := StateM Tree) files drafts before = (.ok written, after))
    (becomes : after.Extends final)
    (mixes : tree.Mixes before final)
    (rooms : ∀ draft ∈ drafts,
      draft.artifact.policy = .skipIfExists → before.HasRoom draft.path) :
    ∃ next,
      writeAll (m := StateM Tree) files drafts tree = (.ok (drafts.map Draft.again), next) ∧
        next.Mixes after final := by
  induction drafts generalizing before tree written with
  | nil =>
      cases ran
      exact ⟨tree, rfl, mixes⟩
  | cons draft rest inductionHypothesis =>
      obtain ⟨_, between, _, firstRan, restRan, _⟩ := writeAll_cons_eq_ok ran
      have extended := (files_extends linkFree firstRan).1
      have restExtends := writeAll_extends extended.linkFree restRan
      obtain ⟨next, firstAgain, nextMixes⟩ :=
        files_again linkFree firstRan (restExtends.trans becomes) mixes (rooms draft (by simp))
      obtain ⟨last, restAgain, lastMixes⟩ :=
        inductionHypothesis extended.linkFree restRan nextMixes fun other member isPolicy =>
          (rooms other (List.mem_cons_of_mem _ member) isPolicy).mono linkFree extended
      exact ⟨last, writeAll_cons firstAgain restAgain, lastMixes⟩

/--
Drafts that were written can be written again, and leave the tree as it is.

The first of them makes room for the protected ones.
-/
theorem writeAll_twice
    {first : Draft}
    {rest : List Draft}
    {written : List Written}
    (linkFree : before.LinkFree)
    (ran : writeAll (m := StateM Tree) files (first :: rest) before = (.ok written, after))
    (overwrites : first.artifact.policy = .overwrite)
    (together : ∀ draft ∈ rest,
      draft.artifact.policy = .skipIfExists → parent? draft.path = parent? first.path) :
    writeAll (m := StateM Tree) files (first :: rest) after =
      (.ok ((first :: rest).map Draft.again), after) := by
  obtain ⟨_, between, _, firstRan, restRan, _⟩ := writeAll_cons_eq_ok ran
  obtain ⟨extended, room⟩ := files_extends linkFree firstRan
  have restExtends := writeAll_extends extended.linkFree restRan
  obtain ⟨next, firstAgain, nextMixes⟩ :=
    files_again linkFree firstRan restExtends (.refl before after) fun isPolicy => by
      rw [overwrites] at isPolicy
      cases isPolicy
  have rooms (draft : Draft) (member : draft ∈ rest)
      (isPolicy : draft.artifact.policy = .skipIfExists) :
      between.HasRoom draft.path := by
    rw [Tree.HasRoom, together draft member isPolicy]
    exact room overwrites
  obtain ⟨last, restAgain, lastMixes⟩ :=
    writeAll_again extended.linkFree restRan (.refl restExtends.linkFree) nextMixes rooms
  cases lastMixes.eq
  exact writeAll_cons firstAgain restAgain

end Writer

namespace Artifact

/-- The client takes part in every run, and comes first. -/
theorem selected_client
    (model : Model) :
    ∃ rest, selected model = client :: rest := by
  refine ⟨_, List.filter_cons_of_pos ?_⟩
  rfl

/-- A protected artifact lands in the directory of the client. -/
theorem parent?_target
    (configuration : Configuration)
    {artifact : Artifact}
    (isPolicy : artifact.policy = .skipIfExists) :
    parent? (artifact.target configuration) = parent? (client.target configuration) := by
  have sibling {name : String} (isName : IsName name) :
      parent? (join configuration.output name) =
        parent? (join configuration.output "client.go") :=
    parent?_join_congr isName (by decide) configuration.output
  cases artifact with
  | buf =>
      exact @sibling "buf.yaml" (by decide)
  | bufGen =>
      exact @sibling "buf.gen.yaml" (by decide)
  | _ =>
      cases isPolicy

end Artifact

namespace Plan

variable {formatter : Source.Formatter} {document : Document} {configuration : Configuration}
  {time : Instant} {plan : Plan}

/-- A repeated run reports the selected artifacts. -/
theorem map_again
    (made : make formatter document configuration time = .ok plan) :
    plan.drafts.map Draft.again =
      (Artifact.selected plan.model).map (Artifact.again configuration) := by
  obtain ⟨inOrder, allMade⟩ := drafts_of_make made
  rw [← inOrder, List.map_map]
  refine List.map_congr_left fun draft member => ?_
  rw [Draft.again, (allMade draft member).path]
  rfl

/-- The drafts of a plan that were written can be written again. -/
theorem writeAll_twice
    {written : List Written}
    (linkFree : before.LinkFree)
    (made : make formatter document configuration time = .ok plan)
    (ran : Writer.writeAll (m := StateM Tree) Writer.files plan.drafts before =
      (.ok written, after)) :
    Writer.writeAll (m := StateM Tree) Writer.files plan.drafts after =
      (.ok (plan.drafts.map Draft.again), after) := by
  obtain ⟨inOrder, allMade⟩ := drafts_of_make made
  obtain ⟨others, clientFirst⟩ := Artifact.selected_client plan.model
  rw [clientFirst] at inOrder
  obtain ⟨first, rest, shape, isClient, _⟩ := List.map_eq_cons_iff.mp inOrder
  rw [shape] at ran allMade ⊢
  refine Writer.writeAll_twice linkFree ran (by rw [isClient]; rfl) ?_
  intro draft member isPolicy
  rw [(allMade draft (List.mem_cons_of_mem _ member)).path, (allMade first (by simp)).path,
    isClient]
  exact Artifact.parent?_target configuration isPolicy

end Plan

/--
A run that has succeeded can be repeated, and changes nothing then.

On a tree without links, the same document, configuration and time give the same plan.  Carried
out again on the tree that the first run leaves, it succeeds with the same counts and the same
time, and leaves the tree as it is.  Every selected artifact that may be overwritten is reported
as overwritten, and every protected one as skipped.
-/
theorem runDocument_again
    {formatter : Source.Formatter}
    {document : Document}
    {configuration : Configuration}
    {time : Instant}
    {result : RunResult}
    (linkFree : before.LinkFree)
    (ran : runDocument (m := StateM Tree) Writer.files formatter document configuration time
      before = (.ok result, after)) :
    ∃ model,
      Plan.modelOf document configuration time = .ok model ∧
        runDocument (m := StateM Tree) Writer.files formatter document configuration time
            after =
          (.ok
            { written := (Artifact.selected model).map (Artifact.again configuration)
              operationCount := result.operationCount
              listCount := result.listCount
              generatedAt := result.generatedAt }, after) := by
  cases made : Plan.make formatter document configuration time with
  | error failure =>
      rw [runDocument, made] at ran
      cases ran
  | ok plan =>
      rw [runDocument, made] at ran ⊢
      obtain ⟨wrote, counts⟩ := Writer.carryOut_eq_ok ran
      refine ⟨plan.model, Plan.modelOf_of_make made, ?_⟩
      simp only [Writer.carryOut]
      rw [bind_changing, Plan.writeAll_twice linkFree made wrote, counts, Plan.map_again made]
      rfl

/-- A full configuration whose output directory leads through one that is still to be made. -/
def detourConfiguration : Configuration :=
  { editedConfiguration "v1/api.proto" "v1" with output := "/new/.." }

/-- A full run under that configuration, and what the tree then is. -/
def detourRun : StateM Tree (Except Failure RunResult) :=
  runDocument Writer.files untouched quietDocument detourConfiguration ⟨0, 0⟩

/-- The run makes the directory and skips the file that is protected; repeated, it skips two. -/
theorem detourRun_again :
    ∃ (result again : RunResult) (after : Tree),
      detourRun editedTree = (.ok result, after) ∧
        result.written.map Written.outcome =
          [.created, .created, .created, .created, .created, .created, .created, .skipped,
            .created] ∧
        detourRun after = (.ok again, after) ∧
        again.written.map Written.outcome =
          [.overwritten, .overwritten, .overwritten, .overwritten, .overwritten, .overwritten,
            .overwritten, .skipped, .skipped] := by
  have linkFree : editedTree.LinkFree :=
    (Tree.isPlain_of_entries (by decide) (by decide) (by decide) (by decide)).linkFree
  have created :
      (detourRun editedTree).1.toOption.map (fun result => result.written.map (·.outcome)) =
        some [.created, .created, .created, .created, .created, .created, .created, .skipped,
          .created] := by
    decide +kernel
  have selected :
      (Plan.modelOf quietDocument detourConfiguration ⟨0, 0⟩).map Artifact.selected =
        .ok [.client, .server, .proto, .daemon, .service, .serviceTest, .makefile, .buf,
          .bufGen] := by
    decide +kernel
  rcases ran : detourRun editedTree with ⟨answer, after⟩
  rw [ran] at created
  cases answer with
  | error failure =>
      cases created
  | ok result =>
      obtain ⟨model, isModel, again⟩ := runDocument_again linkFree ran
      rw [isModel] at selected
      refine ⟨result, _, after, rfl, Option.some.inj created, again, ?_⟩
      rw [Except.ok.inj selected]
      rfl

end RpcStubs
