import RpcStubs.Proofs.Run.Plan
import RpcStubs.Proofs.Run.Writing
namespace RpcStubs

open Files Files.Path

/-!
# Runs that fail

A run that fails before it writes leaves everything as it was.  A run that fails at a write
keeps the drafts before it, in the order of rendering, and nothing of the later ones.
-/

variable {tree after : Tree} {formatter : Source.Formatter} {request : Request}

/-- A plan that is not carried out fails while its drafts are written. -/
theorem Writer.carryOut_eq_error
    {plan : Plan}
    {failure : Failure}
    (ran : Writer.carryOut (m := StateM Tree) Writer.files plan tree = (.error failure, after)) :
    Writer.writeAll (m := StateM Tree) Writer.files plan.drafts tree =
      (.error failure, after) := by
  rw [Writer.carryOut, bind_changing] at ran
  rcases written : Writer.writeAll (m := StateM Tree) Writer.files plan.drafts tree
    with ⟨result, last⟩
  rw [written] at ran
  cases result with
  | error other =>
      cases ran
      rfl
  | ok outcomes =>
      cases ran

/-- The drafts of a plan for a ready configuration go to different straight targets. -/
theorem Plan.targets_differ
    {configuration : Configuration}
    {plan : Plan}
    (ready : configuration.IsReady)
    (inOrder : plan.drafts.map Draft.artifact = Artifact.selected plan.model)
    (allMade : ∀ draft ∈ plan.drafts, draft.IsMade formatter configuration plan.model) :
    (∀ draft ∈ plan.drafts, IsStraight draft.path) ∧
      (plan.drafts.map fun draft => names draft.path).Nodup := by
  constructor
  · intro draft member
    rw [(allMade draft member).path]
    exact (Artifact.target_lands ready draft.artifact).1
  · have targets :
        (plan.drafts.map fun draft => names draft.path) =
          (Artifact.selected plan.model).map fun artifact =>
            names (artifact.target configuration) := by
      rw [← inOrder, List.map_map]
      apply List.map_congr_left
      intro draft member
      rw [(allMade draft member).path]
      rfl
    rw [targets, List.Nodup, List.pairwise_map]
    apply (Artifact.selected_nodup plan.model).imp
    intro first second differ same
    exact differ (Artifact.target_injective ready same)

/--
A run that fails is all or nothing up to its writes, and a failed write keeps a prefix.

Unless a write fails, the tree is the one before.  When one fails, it is that of a draft of
the plan: the drafts before it are settled, those from there on are untouched, and otherwise
only directories above the targets so far are made.  A formatter that itself reports a failed
write, as those of `formatterOf` never do, does so before anything is written.
-/
theorem generate_unchanged_or_keepsPrefix
    (plain : tree.IsPlain)
    {rejection : Rejection}
    (ran : tree.generate Writer.files formatter request = (.error rejection, after)) :
    ((∀ path cause, rejection ≠ .failed (.write path cause)) → after = tree) ∧
      ∀ path cause, rejection = .failed (.write path cause) →
        (after = tree ∧
          request.prepare (m := ReaderM Tree) formatter tree = .error rejection ∧
          ∃ target source, formatter target source = .error (.write path cause)) ∨
        ∃ configuration plan done failing pending,
          request.prepare (m := ReaderM Tree) formatter tree = .ok (configuration, plan) ∧
            plan.drafts.map Draft.artifact = Artifact.selected plan.model ∧
            (∀ draft ∈ plan.drafts, draft.IsMade formatter configuration plan.model) ∧
            plan.drafts = done ++ failing :: pending ∧
            path = failing.path ∧
            KeepsPrefix tree after done failing pending := by
  change carryOut (m := StateM Tree) Writer.files
    (request.prepare (m := ReaderM Tree) formatter tree) tree =
      (.error rejection, after) at ran
  rcases Request.prepare_cases plain
    (rfl : request.prepare (m := ReaderM Tree) formatter tree = _) with
    ⟨reason, failed, reported⟩ |
      ⟨configuration, plan, prepared, ready, inOrder, allMade⟩
  · rw [failed] at ran ⊢
    cases ran
    refine ⟨fun _ => rfl, fun path cause same => Or.inl ⟨rfl, rfl, ?_⟩⟩
    exact reported path cause same
  · rw [prepared] at ran
    rw [carryOut, bind_changing] at ran
    rcases carried : Writer.carryOut (m := StateM Tree) Writer.files plan tree
      with ⟨result, last⟩
    rw [carried] at ran
    cases result with
    | ok report =>
        cases ran
    | error failure =>
        cases ran
        obtain ⟨straight, differ⟩ := Plan.targets_differ ready inOrder allMade
        obtain ⟨done, failing, pending, cause, shape, rfl, keeps⟩ :=
          writeAll_keepsPrefix plain straight differ (Writer.carryOut_eq_error carried)
        refine ⟨fun noWrite => (noWrite failing.path cause rfl).elim,
          fun path otherCause same => Or.inr ?_⟩
        cases same
        exact ⟨configuration, plan, done, failing, pending, prepared, inOrder, allMade, shape,
          rfl, keeps⟩

/-- Results can be compared. -/
instance decidableEqExcept
    {Reason Value : Type}
    [DecidableEq Reason]
    [DecidableEq Value] :
    DecidableEq (Except Reason Value)
  | .error first, .error second =>
      decidable_of_iff (first = second) ⟨congrArg _, Except.error.inj⟩
  | .ok first, .ok second =>
      decidable_of_iff (first = second) ⟨congrArg _, Except.ok.inj⟩
  | .error _, .ok _ => isFalse nofun
  | .ok _, .error _ => isFalse nofun

/-- A tree in which a file stands where the directory of the message file would have to be. -/
def blockedTree : Tree where
  entries := Catalog.ofList [
    (["work"], .directory),
    (["work", "go.mod"], .file "module example.com/acme\n".toUTF8),
    (["work", "api.json"], .file
      ("\x7b\"openapi\":\"3.0.0\",\"info\":\x7b\"title\":\"t\",\"version\":\"1\"\x7d," ++
        "\"paths\":\x7b\x7d\x7d").toUTF8),
    (["work", "proto"], .file "".toUTF8)]
  workplace := { names := ["work"] }

/-- A request to generate from the document in that tree. -/
def blockedRequest : Request where
  spec := "api.json"
  time := ⟨0, 0⟩

/-- The formatter that leaves every text as it is. -/
def untouched : Source.Formatter := fun _ source => .ok source

/-- Where the message file cannot be written, client and server are kept. -/
theorem blockedTree_keepsPrefix :
    blockedTree.IsPlain ∧
      ∃ (after : Tree) (plan : Plan) (done : List Draft) (failing : Draft)
        (pending : List Draft),
        blockedTree.generate Writer.files untouched blockedRequest =
            (.error (.failed (.write "/work/proto/api/v1/api.proto" .notDirectory)), after) ∧
          plan.drafts = done ++ failing :: pending ∧
          failing.path = "/work/proto/api/v1/api.proto" ∧
          KeepsPrefix blockedTree after done failing pending := by
  have plain : blockedTree.IsPlain :=
    Tree.isPlain_of_entries (by decide) (by decide) (by decide) (by decide)
  have failed : (blockedTree.generate Writer.files untouched blockedRequest).1 =
      .error (.failed (.write "/work/proto/api/v1/api.proto" .notDirectory)) := by
    decide +kernel
  have ran : blockedTree.generate Writer.files untouched blockedRequest =
      (.error (.failed (.write "/work/proto/api/v1/api.proto" .notDirectory)),
        (blockedTree.generate Writer.files untouched blockedRequest).2) := by
    rw [← failed]
  have kept :=
    (generate_unchanged_or_keepsPrefix plain ran).2 "/work/proto/api/v1/api.proto"
      .notDirectory rfl
  rcases kept with ⟨_, _, _, _, impossible⟩ |
    ⟨_, plan, done, failing, pending, _, _, _, shape, same, keeps⟩
  · cases impossible
  · exact ⟨plain, _, plan, done, failing, pending, ran, shape, same.symm, keeps⟩

end RpcStubs
