import RpcStubs.Proofs.Files.Effects
import RpcStubs.Run.Writing
namespace RpcStubs

open Files Files.Path

/-!
# What writing drafts leaves behind

Drafts with different targets are written one after the other, until one fails.  The drafts
before it are then settled, the targets from there on are spared, and beside them only
directories are made.  When none fails, all are settled.
-/

variable {before after : Tree} {draft : Draft}

/-- Under some names stands what stood there, or a directory made since. -/
def Files.Tree.Spares (before after : Tree) (names : List String) : Prop :=
  after.entry? names = before.entry? names ∨
    before.entry? names = none ∧ after.entry? names = some .directory

theorem Files.Tree.Spares.trans
    {first second third : Tree}
    {names : List String}
    (earlier : first.Spares second names)
    (later : second.Spares third names) :
    first.Spares third names := by
  rcases later with same | ⟨missing, made⟩
  · rcases earlier with unchanged | ⟨missing, made⟩
    · exact Or.inl (same.trans unchanged)
    · exact Or.inr ⟨missing, same.trans made⟩
  · rcases earlier with unchanged | ⟨_, there⟩
    · exact Or.inr ⟨unchanged ▸ missing, made⟩
    · rw [missing] at there
      cases there

/--
All that changes while some drafts are written.

Under the names of a written draft its content may stand, and directories may be made above
the targets of those for which room is made.
-/
structure Changes (before after : Tree) (written roomed : List Draft) : Prop where
  plain : after.IsPlain
  workplace : after.workplace = before.workplace
  kept : ∀ names,
    after.entry? names = before.entry? names ∨
      (∃ draft ∈ written,
        names = Path.names draft.path ∧
          after.entry? names = some (.file draft.content.toUTF8)) ∨
      before.entry? names = none ∧
        after.entry? names = some .directory ∧
        ∃ draft ∈ roomed, Above names (Path.names draft.path)

namespace Changes

theorem refl
    (plain : before.IsPlain)
    (written roomed : List Draft) :
    Changes before before written roomed :=
  ⟨plain, rfl, fun _ => Or.inl rfl⟩

theorem trans
    {first second third : Tree}
    {written roomed laterWritten laterRoomed : List Draft}
    (earlier : Changes first second written roomed)
    (later : Changes second third laterWritten laterRoomed) :
    Changes first third (written ++ laterWritten) (roomed ++ laterRoomed) where
  plain := later.plain
  workplace := later.workplace.trans earlier.workplace
  kept names := by
    rcases later.kept names with same | ⟨draft, member, isTarget, stands⟩ |
      ⟨missing, made, draft, member, above⟩
    · rw [same]
      rcases earlier.kept names with unchanged | ⟨draft, member, isTarget, stands⟩ |
        ⟨missing, made, draft, member, above⟩
      · exact Or.inl unchanged
      · exact Or.inr (Or.inl ⟨draft, List.mem_append_left _ member, isTarget, stands⟩)
      · exact Or.inr (Or.inr ⟨missing, made, draft, List.mem_append_left _ member, above⟩)
    · exact Or.inr (Or.inl ⟨draft, List.mem_append_right _ member, isTarget, stands⟩)
    · rcases earlier.kept names with unchanged | ⟨_, _, _, stands⟩ | ⟨_, there, _⟩
      · exact Or.inr (Or.inr
          ⟨unchanged ▸ missing, made, draft, List.mem_append_right _ member, above⟩)
      · rw [missing] at stands
        cases stands
      · rw [missing] at there
        cases there

/-- Only the targets of written drafts are not spared. -/
theorem spares
    {written roomed : List Draft}
    (changes : Changes before after written roomed)
    {names : List String}
    (noTarget : ∀ draft ∈ written, names ≠ Path.names draft.path) :
    before.Spares after names := by
  rcases changes.kept names with same | ⟨draft, member, isTarget, _⟩ | ⟨missing, made, _⟩
  · exact Or.inl same
  · exact (noTarget draft member isTarget).elim
  · exact Or.inr ⟨missing, made⟩

/-- What stands elsewhere keeps standing. -/
theorem entry?_eq
    {written roomed : List Draft}
    (changes : Changes before after written roomed)
    {names : List String}
    {entry : Entry}
    (noTarget : ∀ draft ∈ written, names ≠ Path.names draft.path)
    (stands : before.entry? names = some entry) :
    after.entry? names = some entry := by
  rcases changes.spares noTarget with same | ⟨missing, _⟩
  · rw [same, stands]
  · rw [missing] at stands
    cases stands

end Changes

/-- A draft with which writing is done: its content is there, or its target was protected. -/
def Draft.IsSettled (draft : Draft) (before after : Tree) : Prop :=
  after.read draft.path = .ok draft.content.toUTF8 ∨
    draft.artifact.policy = .skipIfExists ∧
      after.isPresent draft.path = true ∧
      before.Spares after (names draft.path)

/-- What a run leaves behind that was done with some drafts and then failed at one. -/
structure KeepsPrefix
    (before after : Tree) (done : List Draft) (failing : Draft) (pending : List Draft) :
    Prop where
  settled : ∀ draft ∈ done, draft.IsSettled before after
  unread : ∀ draft ∈ failing :: pending, ∀ content,
    after.read draft.path = .ok content ↔ before.read draft.path = .ok content
  spared : ∀ draft ∈ failing :: pending, before.Spares after (names draft.path)
  changes : Changes before after done (done ++ [failing])

namespace Writer

/-- Room for a file is made by making directories above it. -/
theorem makeParent_grows
    {path : String}
    (plain : before.IsPlain)
    (straight : IsStraight path) :
    Tree.Grows (Above · (names path)) before
      (makeParent (m := StateM Tree) path before).2 := by
  unfold makeParent
  cases isParent : parent? path with
  | none =>
      exact .refl plain
  | some parent =>
      exact plain.makeDirectories_grows straight (List.mem_of_head? isParent)

theorem dryAt_on_tree
    (path : String)
    (policy : WritePolicy)
    (tree : Tree) :
    dryAt (m := StateM Tree) path policy tree =
      (outcomeOf policy (tree.isPresent path), tree) := rfl

/--
A draft is skipped, or written after room is made, or its write fails after that.

What is reported is what the policy asks for; a draft that is written is not protected there.
-/
theorem files_cases
    {result : Except Failure WriteOutcome}
    (ran : files (m := StateM Tree) draft before = (result, after)) :
    (result = .ok .skipped ∧
      after = before ∧
      draft.artifact.policy = .skipIfExists ∧
      before.isPresent draft.path = true) ∨
    (result = .ok (outcomeOf draft.artifact.policy (before.isPresent draft.path)) ∧
      (makeParent (m := StateM Tree) draft.path before).1 = .ok () ∧
      (makeParent (m := StateM Tree) draft.path before).2.writeFile draft.path
        draft.content.toUTF8 = .ok after ∧
      (draft.artifact.policy = .skipIfExists → before.isPresent draft.path = false)) ∨
    ∃ cause,
      result = .error (.write draft.path cause) ∧
        after = (makeParent (m := StateM Tree) draft.path before).2 := by
  rw [files, writeAt, bind_changing, dryAt_on_tree] at ran
  split at ran
  · rename_i skipped
    cases ran
    refine Or.inl ⟨congrArg _ skipped, rfl, ?_⟩
    unfold outcomeOf at skipped
    split at skipped
    · cases skipped
    · rename_i present isPolicy
      exact ⟨isPolicy, present⟩
    · cases skipped
  · rename_i notSkipped
    rcases parentRun : makeParent (m := StateM Tree) draft.path before with ⟨room, made⟩
    rw [bind_changing, parentRun] at ran
    cases room with
    | error cause =>
        cases ran
        exact Or.inr (Or.inr ⟨cause, rfl, rfl⟩)
    | ok =>
        simp only [bind_changing, Writes.writeFile] at ran
        cases writes : made.writeFile draft.path draft.content.toUTF8 with
        | error cause =>
            rw [writes] at ran
            cases ran
            exact Or.inr (Or.inr ⟨cause, rfl, rfl⟩)
        | ok written =>
            rw [writes] at ran
            cases ran
            refine Or.inr (Or.inl ⟨rfl, rfl, rfl, fun isPolicy => ?_⟩)
            rw [isPolicy] at notSkipped
            rw [← Bool.not_eq_true]
            exact fun present => notSkipped (by rw [present]; rfl)

/-- A draft that is not refused is settled, and nothing but its target is touched. -/
theorem files_eq_ok
    (plain : before.IsPlain)
    (straight : IsStraight draft.path)
    {outcome : WriteOutcome}
    (ran : files (m := StateM Tree) draft before = (.ok outcome, after)) :
    draft.IsSettled before after ∧ Changes before after [draft] [draft] := by
  rcases files_cases ran with ⟨_, rfl, isPolicy, present⟩ | ⟨_, _, writes, _⟩ |
    ⟨_, impossible, _⟩
  · exact ⟨Or.inr ⟨isPolicy, present, Or.inl rfl⟩, .refl plain _ _⟩
  · have grows := makeParent_grows plain straight
    obtain ⟨notTop, rfl, plainAfter, ends⟩ := grows.plain.writeFile_eq_ok straight writes
    have stands := Tree.entry?_place (makeParent (m := StateM Tree) draft.path before).2 notTop
      (.file draft.content.toUTF8)
    refine ⟨Or.inl ?_, plainAfter, grows.workplace, fun others => ?_⟩
    · exact (plainAfter.read_eq_ok_iff straight).mpr ⟨by rw [stands, if_pos rfl], ends⟩
    · rw [stands]
      split
      · rename_i same
        exact Or.inr (Or.inl ⟨draft, by simp, same, rfl⟩)
      · rcases grows.kept others with same | ⟨above, missing, made⟩
        · exact Or.inl same
        · exact Or.inr (Or.inr ⟨missing, made, draft, by simp, above⟩)
  · cases impossible

/-- A write that fails names its target, and at most makes directories above it. -/
theorem files_eq_error
    (plain : before.IsPlain)
    (straight : IsStraight draft.path)
    {failure : Failure}
    (ran : files (m := StateM Tree) draft before = (.error failure, after)) :
    (∃ cause, failure = .write draft.path cause) ∧ Changes before after [] [draft] := by
  rcases files_cases ran with ⟨impossible, _⟩ | ⟨impossible, _⟩ | ⟨cause, same, rfl⟩
  · cases impossible
  · cases impossible
  · cases same
    have grows := makeParent_grows plain straight
    refine ⟨⟨cause, rfl⟩, grows.plain, grows.workplace, fun others => ?_⟩
    rcases grows.kept others with same | ⟨above, missing, made⟩
    · exact Or.inl same
    · exact Or.inr (Or.inr ⟨missing, made, draft, by simp, above⟩)

/-- Writing fails at the first draft, or goes on after it. -/
theorem writeAll_cons_eq_error
    {rest : List Draft}
    {failure : Failure}
    (ran : writeAll (m := StateM Tree) files (draft :: rest) before = (.error failure, after)) :
    files (m := StateM Tree) draft before = (.error failure, after) ∨
      ∃ outcome between,
        files (m := StateM Tree) draft before = (.ok outcome, between) ∧
          writeAll (m := StateM Tree) files rest between = (.error failure, after) := by
  rcases firstRun : files (m := StateM Tree) draft before with ⟨result, between⟩
  rw [writeAll, bind_changing, firstRun] at ran
  cases result with
  | error other =>
      cases ran
      exact Or.inl rfl
  | ok outcome =>
      refine Or.inr ⟨outcome, between, rfl, ?_⟩
      rcases restRun : writeAll (m := StateM Tree) files rest between with ⟨others, last⟩
      simp only [bind_changing, restRun] at ran
      cases others with
      | error other =>
          cases ran
          rfl
      | ok written =>
          cases ran

/-- Writing that succeeds has succeeded at the first draft and goes on after it. -/
theorem writeAll_cons_eq_ok
    {rest : List Draft}
    {written : List Written}
    (ran : writeAll (m := StateM Tree) files (draft :: rest) before = (.ok written, after)) :
    ∃ outcome between others,
      files (m := StateM Tree) draft before = (.ok outcome, between) ∧
        writeAll (m := StateM Tree) files rest between = (.ok others, after) ∧
        written = ⟨draft.artifact.name, draft.path, outcome⟩ :: others := by
  rcases firstRun : files (m := StateM Tree) draft before with ⟨result, between⟩
  rw [writeAll, bind_changing, firstRun] at ran
  cases result with
  | error failure =>
      cases ran
  | ok outcome =>
      rcases restRun : writeAll (m := StateM Tree) files rest between with ⟨others, last⟩
      simp only [bind_changing, restRun] at ran
      cases others with
      | error failure =>
          cases ran
      | ok others =>
          cases ran
          exact ⟨outcome, between, others, rfl, restRun, rfl⟩

end Writer

/-- What is settled stays settled while other targets are written. -/
theorem Draft.IsSettled.mono
    {between : Tree}
    {written roomed : List Draft}
    (plain : between.IsPlain)
    (straight : IsStraight draft.path)
    (settled : draft.IsSettled before between)
    (changes : Changes between after written roomed)
    (noTarget : ∀ other ∈ written, names draft.path ≠ names other.path) :
    draft.IsSettled before after := by
  rcases settled with shown | ⟨isPolicy, present, spared⟩
  · obtain ⟨stands, ends⟩ := (plain.read_eq_ok_iff straight).mp shown
    exact Or.inl ((changes.plain.read_eq_ok_iff straight).mpr
      ⟨changes.entry?_eq noTarget stands, ends⟩)
  · obtain ⟨entry, stands, onlyDirectory⟩ := (plain.isPresent_iff straight).mp present
    refine Or.inr ⟨isPolicy, ?_, spared.trans (changes.spares noTarget)⟩
    exact (changes.plain.isPresent_iff straight).mpr
      ⟨entry, changes.entry?_eq noTarget stands, onlyDirectory⟩

/-- What is settled is settled also as seen from before other targets were written. -/
theorem Draft.IsSettled.of_earlier
    {between : Tree}
    {written roomed : List Draft}
    (settled : draft.IsSettled between after)
    (changes : Changes before between written roomed)
    (noTarget : ∀ other ∈ written, names draft.path ≠ names other.path) :
    draft.IsSettled before after := by
  rcases settled with shown | ⟨isPolicy, present, spared⟩
  · exact Or.inl shown
  · exact Or.inr ⟨isPolicy, present, (changes.spares noTarget).trans spared⟩

/-- A path under whose names everything is spared shows the same file. -/
theorem read_eq_ok_iff_of_spares
    {path : String}
    {content : ByteArray}
    (plainBefore : before.IsPlain)
    (plainAfter : after.IsPlain)
    (straight : IsStraight path)
    (spares : before.Spares after (names path)) :
    after.read path = .ok content ↔ before.read path = .ok content := by
  rw [plainAfter.read_eq_ok_iff straight, plainBefore.read_eq_ok_iff straight]
  rcases spares with same | ⟨missing, made⟩
  · rw [same]
  · simp [missing, made]

namespace KeepsPrefix

variable {done pending : List Draft} {failing : Draft}

/-- A run that fails at its first draft keeps nothing. -/
theorem of_first
    (plain : before.IsPlain)
    (straight : ∀ draft ∈ failing :: pending, IsStraight draft.path)
    (changes : Changes before after [] [failing]) :
    KeepsPrefix before after [] failing pending where
  settled := by simp
  unread other member content :=
    read_eq_ok_iff_of_spares plain changes.plain (straight other member)
      (changes.spares (by simp))
  spared other _ := changes.spares (by simp)
  changes := changes

/-- A draft that is settled before a run fails later is kept, too. -/
theorem cons
    {between : Tree}
    (plain : before.IsPlain)
    (straight : ∀ other ∈ draft :: (done ++ failing :: pending), IsStraight other.path)
    (differs : ∀ other ∈ done ++ failing :: pending, names draft.path ≠ names other.path)
    (settled : draft.IsSettled before between)
    (changes : Changes before between [draft] [draft])
    (keeps : KeepsPrefix between after done failing pending) :
    KeepsPrefix before after (draft :: done) failing pending := by
  have noTarget {other : Draft} (member : other ∈ done ++ failing :: pending) :
      ∀ first ∈ [draft], names other.path ≠ names first.path := by
    intro first isFirst same
    rw [List.mem_singleton.mp isFirst] at same
    exact differs other member same.symm
  have allChanges := changes.trans keeps.changes
  have spared : ∀ other ∈ failing :: pending, before.Spares after (names other.path) := by
    intro other member
    have later := changes.spares (noTarget (List.mem_append_right _ member))
    exact later.trans (keeps.spared other member)
  refine ⟨?_, ?_, spared, allChanges⟩
  · intro other member
    rcases List.mem_cons.mp member with rfl | inDone
    · apply settled.mono changes.plain (straight _ (by simp)) keeps.changes
      intro later laterDone
      exact differs later (List.mem_append_left _ laterDone)
    · exact (keeps.settled other inDone).of_earlier changes
        (noTarget (List.mem_append_left _ inDone))
  · intro other member content
    have otherStraight : IsStraight other.path :=
      straight other (List.mem_cons_of_mem _ (List.mem_append_right _ member))
    exact read_eq_ok_iff_of_spares plain allChanges.plain otherStraight (spared other member)

end KeepsPrefix

/-- The target of the first draft is none of the others, which differ again. -/
theorem targets_differ_cons
    {rest : List Draft}
    (differ : ((draft :: rest).map fun draft => names draft.path).Nodup) :
    (∀ other ∈ rest, names draft.path ≠ names other.path) ∧
      (rest.map fun draft => names draft.path).Nodup := by
  rw [List.map_cons, List.nodup_cons] at differ
  refine ⟨fun other member same => ?_, differ.2⟩
  exact differ.1 (List.mem_map.mpr ⟨other, member, same.symm⟩)

/-- Writing drafts to different targets, when it succeeds, settles all of them. -/
theorem writeAll_settles
    {drafts : List Draft}
    {written : List Written}
    (plain : before.IsPlain)
    (straight : ∀ draft ∈ drafts, IsStraight draft.path)
    (differ : (drafts.map fun draft => names draft.path).Nodup)
    (ran : Writer.writeAll (m := StateM Tree) Writer.files drafts before =
      (.ok written, after)) :
    (∀ draft ∈ drafts, draft.IsSettled before after) ∧ Changes before after drafts drafts := by
  induction drafts generalizing before written with
  | nil =>
      cases ran
      exact ⟨by simp, .refl plain [] []⟩
  | cons draft rest inductionHypothesis =>
      have draftStraight : IsStraight draft.path := straight draft (by simp)
      obtain ⟨differs, restDiffer⟩ := targets_differ_cons differ
      obtain ⟨_, between, _, firstRan, restRan, _⟩ := Writer.writeAll_cons_eq_ok ran
      obtain ⟨settled, changes⟩ := Writer.files_eq_ok plain draftStraight firstRan
      obtain ⟨restSettled, restChanges⟩ :=
        inductionHypothesis changes.plain
          (fun other member => straight other (List.mem_cons_of_mem _ member)) restDiffer restRan
      refine ⟨fun other member => ?_, changes.trans restChanges⟩
      rcases List.mem_cons.mp member with rfl | inRest
      · exact settled.mono changes.plain draftStraight restChanges differs
      · apply (restSettled other inRest).of_earlier changes
        intro first isFirst same
        rw [List.mem_singleton.mp isFirst] at same
        exact differs other inRest same.symm

/-- Writing drafts to different targets fails at one of them and keeps what is before it. -/
theorem writeAll_keepsPrefix
    {drafts : List Draft}
    {failure : Failure}
    (plain : before.IsPlain)
    (straight : ∀ draft ∈ drafts, IsStraight draft.path)
    (differ : (drafts.map fun draft => names draft.path).Nodup)
    (ran : Writer.writeAll (m := StateM Tree) Writer.files drafts before =
      (.error failure, after)) :
    ∃ done failing pending cause,
      drafts = done ++ failing :: pending ∧
        failure = .write failing.path cause ∧
        KeepsPrefix before after done failing pending := by
  induction drafts generalizing before with
  | nil =>
      cases ran
  | cons draft rest inductionHypothesis =>
      have draftStraight : IsStraight draft.path := straight draft (by simp)
      obtain ⟨differs, restDiffer⟩ := targets_differ_cons differ
      rcases Writer.writeAll_cons_eq_error ran with failed | ⟨_, between, firstRan, restRan⟩
      · obtain ⟨⟨cause, named⟩, changes⟩ :=
          Writer.files_eq_error plain draftStraight failed
        exact ⟨[], draft, rest, cause, rfl, named, .of_first plain straight changes⟩
      · obtain ⟨settled, changes⟩ := Writer.files_eq_ok plain draftStraight firstRan
        have restStraight : ∀ other ∈ rest, IsStraight other.path :=
          fun other member => straight other (List.mem_cons_of_mem _ member)
        obtain ⟨done, failing, pending, cause, rfl, named, keeps⟩ :=
          inductionHypothesis changes.plain restStraight restDiffer restRan
        refine ⟨draft :: done, failing, pending, cause, rfl, named, ?_⟩
        exact .cons plain straight differs settled changes keeps

end RpcStubs
