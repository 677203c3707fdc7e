import RpcStubs.Proofs.Configuration.Targets
import RpcStubs.Proofs.Extraction.Outcome
import RpcStubs.Run.Request
namespace RpcStubs

open Files

/-!
# What a plan holds

Preparing a request only reads.  When it comes to a plan, the plan holds one draft for each
selected artifact, in order; when it fails, no write has failed, unless the formatter says so.
-/

/-- A draft as a plan makes it: at the target of its artifact, rendered and formatted. -/
structure Draft.IsMade
    (draft : Draft) (formatter : Source.Formatter) (configuration : Configuration)
    (model : Model) : Prop where
  path : draft.path = draft.artifact.target configuration
  content : formatter draft.path (draft.artifact.render model) = .ok draft.content

namespace Plan

variable {formatter : Source.Formatter} {configuration : Configuration} {model : Model}

theorem draft_eq_ok
    {artifact : Artifact}
    {made : Draft}
    (drafted : draft formatter configuration model artifact = .ok made) :
    made.artifact = artifact ∧ made.IsMade formatter configuration model := by
  unfold draft at drafted
  cases formatted : formatter (artifact.target configuration) (artifact.render model) with
  | error failure =>
      simp only [formatted] at drafted
      cases drafted
  | ok content =>
      simp only [formatted] at drafted
      cases drafted
      exact ⟨rfl, rfl, formatted⟩

theorem draft_eq_error
    {artifact : Artifact}
    {failure : Failure}
    (drafted : draft formatter configuration model artifact = .error failure) :
    ∃ path source, formatter path source = .error failure := by
  unfold draft at drafted
  cases formatted : formatter (artifact.target configuration) (artifact.render model) with
  | error cause =>
      simp only [formatted] at drafted
      cases drafted
      exact ⟨_, _, formatted⟩
  | ok content =>
      simp only [formatted] at drafted
      cases drafted

/-- Drafts are made for artifacts in order, or the formatter fails at one of them. -/
theorem mapM_draft
    {artifacts : List Artifact}
    {result : Except Failure (List Draft)}
    (mapped : artifacts.mapM (draft formatter configuration model) = result) :
    (∃ failure path source,
      result = .error failure ∧ formatter path source = .error failure) ∨
      ∃ drafts,
        result = .ok drafts ∧
          drafts.map Draft.artifact = artifacts ∧
          ∀ draft ∈ drafts, draft.IsMade formatter configuration model := by
  subst mapped
  induction artifacts with
  | nil =>
      exact Or.inr ⟨[], rfl, rfl, by simp⟩
  | cons artifact others inductionHypothesis =>
      rw [List.mapM_cons]
      cases drafted : draft formatter configuration model artifact with
      | error failure =>
          obtain ⟨path, source, failed⟩ := draft_eq_error drafted
          exact Or.inl ⟨failure, path, source, rfl, failed⟩
      | ok made =>
          obtain ⟨isFor, isMade⟩ := draft_eq_ok drafted
          rcases inductionHypothesis with ⟨failure, path, source, same, failed⟩ |
            ⟨drafts, same, inOrder, allMade⟩
          · rw [same]
            exact Or.inl ⟨failure, path, source, rfl, failed⟩
          · rw [same]
            refine Or.inr ⟨made :: drafts, rfl, ?_, ?_⟩
            · rw [List.map_cons, isFor, inOrder]
            · intro other member
              rcases List.mem_cons.mp member with rfl | later
              · exact isMade
              · exact allMade other later

/-- A plan has the drafts of the selected artifacts, or extracting or formatting fails. -/
theorem make_cases
    {document : Document}
    {time : Instant}
    {result : Except Failure Plan}
    (made : make formatter document configuration time = result) :
    (∃ failure,
      result = .error failure ∧
        (document.operations = .error failure ∨
          ∃ path source, formatter path source = .error failure)) ∨
      ∃ plan,
        result = .ok plan ∧
          plan.drafts.map Draft.artifact = Artifact.selected plan.model ∧
          ∀ draft ∈ plan.drafts, draft.IsMade formatter configuration plan.model := by
  subst made
  cases extracted : document.operations with
  | error failure =>
      refine Or.inl ⟨failure, ?_, Or.inl rfl⟩
      unfold make modelOf
      rw [extracted]
      rfl
  | ok operations =>
      let model :=
        Model.build configuration operations (Listing.classify document operations) time
      have shape : make formatter document configuration time =
          draftAll formatter configuration model >>= fun drafts => .ok ⟨model, drafts⟩ := by
        unfold make modelOf
        rw [extracted]
        rfl
      rw [shape, draftAll]
      rcases mapM_draft
        (rfl : (Artifact.selected model).mapM (draft formatter configuration model) = _) with
        ⟨failure, path, source, failed, reported⟩ | ⟨drafts, drafted, inOrder, allMade⟩
      · rw [failed]
        exact Or.inl ⟨failure, rfl, Or.inr ⟨path, source, reported⟩⟩
      · rw [drafted]
        exact Or.inr ⟨⟨model, drafts⟩, rfl, inOrder, allMade⟩

/-- The model of a plan is built from the operations of the document. -/
theorem exists_operations_of_make
    {document : Document}
    {time : Instant}
    {plan : Plan}
    (made : make formatter document configuration time = .ok plan) :
    ∃ operations,
      document.operations = .ok operations ∧
        plan.model =
          Model.build configuration operations (Listing.classify document operations) time := by
  cases extracted : document.operations with
  | error failure =>
      unfold make modelOf at made
      rw [extracted] at made
      cases made
  | ok operations =>
      unfold make modelOf at made
      rw [extracted] at made
      simp only [bind, Except.bind, pure, Except.pure] at made
      split at made
      · cases made
      · cases made
        exact ⟨operations, rfl, rfl⟩

theorem modelOf_of_make
    {document : Document}
    {time : Instant}
    {plan : Plan}
    (made : make formatter document configuration time = .ok plan) :
    modelOf document configuration time = .ok plan.model := by
  obtain ⟨operations, extracted, isModel⟩ := exists_operations_of_make made
  rw [isModel, modelOf, extracted]
  rfl

/-- A plan has one draft for each selected artifact, in order, and each is made. -/
theorem drafts_of_make
    {document : Document}
    {time : Instant}
    {plan : Plan}
    (made : make formatter document configuration time = .ok plan) :
    plan.drafts.map Draft.artifact = Artifact.selected plan.model ∧
      ∀ draft ∈ plan.drafts, draft.IsMade formatter configuration plan.model := by
  rcases make_cases made with ⟨_, impossible, _⟩ | ⟨_, same, drafted⟩
  · cases impossible
  · cases same
    exact drafted

/-- A plan has a draft for each artifact that is selected. -/
theorem exists_draft_of_selected
    {document : Document}
    {time : Instant}
    {plan : Plan}
    (made : make formatter document configuration time = .ok plan)
    (artifact : Artifact)
    (selected : artifact.isSelected plan.model = true) :
    ∃ draft ∈ plan.drafts, draft.artifact = artifact := by
  have member : artifact ∈ Artifact.selected plan.model := by
    refine List.mem_filter.mpr ⟨?_, selected⟩
    cases artifact <;> decide
  rw [← (drafts_of_make made).1] at member
  exact List.mem_map.mp member

end Plan

namespace Settings

variable {tree : Tree} {path : String} {failure : Failure}

theorem load_eq_error
    (loaded : load (m := ReaderM Tree) path tree = .error failure) :
    ∃ fault, failure = .configuration fault := by
  rw [load, bind_reading] at loaded
  cases text : readText (m := ReaderM Tree) path tree with
  | error cause =>
      rw [text] at loaded
      cases loaded
      exact ⟨_, rfl⟩
  | ok content =>
      rw [text] at loaded
      cases settings : ofText? content with
      | none =>
          simp only [settings] at loaded
          cases loaded
          exact ⟨_, rfl⟩
      | some found =>
          simp only [settings] at loaded
          cases loaded

theorem discover_eq_error
    (discovered : discover (m := ReaderM Tree) path tree = .error failure) :
    ∃ fault, failure = .configuration fault := by
  rw [discover, bind_reading] at discovered
  cases upward : findUpward (m := ReaderM Tree) path fileName tree with
  | none =>
      rw [upward] at discovered
      cases discovered
  | some found =>
      rw [upward] at discovered
      simp only [bind_reading] at discovered
      cases loaded : load (m := ReaderM Tree) found tree with
      | error cause =>
          rw [loaded] at discovered
          cases discovered
          exact load_eq_error loaded
      | ok settings =>
          rw [loaded] at discovered
          cases discovered

end Settings

theorem Document.load_eq_error
    {tree : Tree}
    {path : String}
    {failure : Failure}
    (loaded : Document.load (m := ReaderM Tree) path tree = .error failure) :
    ∃ fault, failure = .load fault := by
  rw [Document.load, bind_reading] at loaded
  cases text : readText (m := ReaderM Tree) path tree with
  | error cause =>
      rw [text] at loaded
      cases loaded
      exact ⟨_, rfl⟩
  | ok content =>
      rw [text] at loaded
      cases document : Document.ofText? (Document.formatOf path) content with
      | none =>
          simp only [document] at loaded
          cases loaded
          exact ⟨_, rfl⟩
      | some found =>
          simp only [document] at loaded
          cases loaded

namespace Request

variable {tree : Tree} {request : Request}

/-- Without fit settings, the configuration is at fault. -/
theorem findSettings_eq_error
    {failure : Failure}
    (found : request.findSettings (m := ReaderM Tree) tree = .error failure) :
    ∃ fault, failure = .configuration fault := by
  unfold findSettings at found
  cases given : request.settings with
  | some path =>
      simp only [given] at found
      exact Settings.load_eq_error found
  | none =>
      simp only [given, bind_reading] at found
      split at found
      · rw [bind_reading] at found
        cases discovered : Settings.discover (m := ReaderM Tree)
          (request.choices.output.getD request.fallbacks.output) tree with
        | error cause =>
            rw [discovered] at found
            cases found
            exact Settings.discover_eq_error discovered
        | ok settings =>
            rw [discovered] at found
            cases found
      · cases found

/-- A request comes to a configuration that is ready, or no write is at fault. -/
theorem configure_cases
    (plain : tree.IsPlain)
    {result : Except Failure Configuration}
    (configured : request.configure (m := ReaderM Tree) tree = result) :
    (∃ failure,
      result = .error failure ∧ ∀ path cause, failure ≠ .write path cause) ∨
      ∃ configuration, result = .ok configuration ∧ configuration.IsReady := by
  rw [configure, bind_reading] at configured
  cases found : request.findSettings (m := ReaderM Tree) tree with
  | error failure =>
      rw [found] at configured
      obtain ⟨fault, rfl⟩ := findSettings_eq_error found
      exact Or.inl ⟨_, configured.symm, fun _ _ same => by cases same⟩
  | ok settings =>
      rw [found] at configured
      have resolved : Configuration.resolve (m := ReaderM Tree)
          (request.choices.orElse settings) request.fallbacks tree = result := configured
      rcases Configuration.resolve_cases resolved with ⟨fault, rfl⟩ | ⟨fault, rfl⟩ |
        ⟨_, _, _, _, _, _, _, _, rfl⟩
      · exact Or.inl ⟨_, rfl, fun _ _ same => by cases same⟩
      · exact Or.inl ⟨_, rfl, fun _ _ same => by cases same⟩
      · exact Or.inr ⟨_, rfl, Configuration.resolve_isReady plain.isSound resolved⟩

/-- When a document is not loaded, no write is at fault. -/
theorem loadDocument_eq_error
    {rejection : Rejection}
    (loaded : request.loadDocument (m := ReaderM Tree) tree = .error rejection) :
    ∀ path cause, rejection ≠ .failed (.write path cause) := by
  rw [loadDocument, bind_reading] at loaded
  cases found : Document.load (m := ReaderM Tree) request.spec tree with
  | error failure =>
      rw [found] at loaded
      obtain ⟨fault, rfl⟩ := Document.load_eq_error found
      cases loaded
      exact fun _ _ same => by cases same
  | ok document =>
      rw [found] at loaded
      simp only at loaded
      split at loaded
      · cases loaded
      · cases loaded
        exact fun _ _ same => by cases same

/-- What is prepared is a configuration that is resolved, and a plan that is made. -/
theorem exists_of_prepare
    {formatter : Source.Formatter}
    {configuration : Configuration}
    {plan : Plan}
    (prepared : request.prepare (m := ReaderM Tree) formatter tree =
      .ok (configuration, plan)) :
    (∃ settings,
      Configuration.resolve (m := ReaderM Tree) (request.choices.orElse settings)
        request.fallbacks tree = .ok configuration) ∧
      ∃ document, Plan.make formatter document configuration request.time = .ok plan := by
  rw [prepare, bind_reading, configure, bind_reading] at prepared
  cases found : request.findSettings (m := ReaderM Tree) tree with
  | error failure =>
      rw [found] at prepared
      cases prepared
  | ok settings =>
      rw [found] at prepared
      simp only at prepared
      cases resolved : Configuration.resolve (m := ReaderM Tree)
        (request.choices.orElse settings) request.fallbacks tree with
      | error failure =>
          rw [resolved] at prepared
          cases prepared
      | ok other =>
          rw [resolved] at prepared
          simp only [bind_reading] at prepared
          cases loaded : request.loadDocument (m := ReaderM Tree) tree with
          | error rejection =>
              rw [loaded] at prepared
              cases prepared
          | ok document =>
              rw [loaded] at prepared
              simp only at prepared
              cases made : Plan.make formatter document other request.time with
              | error failure =>
                  rw [made] at prepared
                  cases prepared
              | ok planned =>
                  rw [made] at prepared
                  cases prepared
                  exact ⟨⟨settings, resolved⟩, document, made⟩

/-- Preparing comes to a plan for a ready configuration, or no write is at fault. -/
theorem prepare_cases
    (plain : tree.IsPlain)
    {formatter : Source.Formatter}
    {result : Except Rejection (Configuration × Plan)}
    (prepared : request.prepare (m := ReaderM Tree) formatter tree = result) :
    (∃ rejection,
      result = .error rejection ∧
        ∀ path cause, rejection = .failed (.write path cause) →
          ∃ target source, formatter target source = .error (.write path cause)) ∨
      ∃ configuration plan,
        result = .ok (configuration, plan) ∧
          configuration.IsReady ∧
          plan.drafts.map Draft.artifact = Artifact.selected plan.model ∧
          ∀ draft ∈ plan.drafts, draft.IsMade formatter configuration plan.model := by
  subst prepared
  rw [prepare, bind_reading]
  rcases configure_cases plain (rfl : request.configure (m := ReaderM Tree) tree = _) with
    ⟨failure, failed, noWrite⟩ | ⟨configuration, configured, ready⟩
  · rw [failed]
    refine Or.inl ⟨.failed failure, rfl, fun path cause same => ?_⟩
    cases same
    exact (noWrite path cause rfl).elim
  · rw [configured]
    simp only [bind_reading]
    cases loaded : request.loadDocument (m := ReaderM Tree) tree with
    | error rejection =>
        exact Or.inl ⟨rejection, rfl, fun path cause same =>
          (loadDocument_eq_error loaded path cause same).elim⟩
    | ok document =>
        simp only
        rcases Plan.make_cases
          (rfl : Plan.make formatter document configuration request.time = _) with
          ⟨failure, failed, reported⟩ | ⟨plan, made, inOrder, allMade⟩
        · rw [failed]
          refine Or.inl ⟨.failed failure, rfl, fun path cause same => ?_⟩
          cases same
          rcases reported with extracting | formatting
          · obtain ⟨_, _, impossible, _⟩ := Extraction.operations_eq_error_iff.mp extracting
            cases impossible
          · exact formatting
        · rw [made]
          exact Or.inr ⟨configuration, plan, rfl, ready, inOrder, allMade⟩

end Request

end RpcStubs
