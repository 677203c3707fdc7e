import Mathlib.Data.List.Forall2
import Mathlib.Data.List.Nodup
import RpcStubs.Proofs.Extraction.Outcome
namespace RpcStubs.Extraction

/-!
# The log of extraction

Every declared path that extraction passes leaves one record.  The record says that the path
was extracted exactly when it is in the result, it says that there is no call exactly when
there is none, and it warns of every other path.  An error ends the log before the path that
it names.
-/

/-- A declared path that is written in place and has no `POST` call. -/
def WithoutPost (entry : Declared) : Prop :=
  ∃ item, entry.2 = .inline item ∧ item.post = none

/-- The record of an operation that is extracted. -/
def extractedRecord (operation : Operation) : LogRecord where
  level := .debug
  message := "Extracted operation"
  fields := [
    ("path", operation.path),
    ("method", operation.methodName),
    ("request", operation.requestType),
    ("response", operation.responseType)]

/-- The record of a declared path without a `POST` call. -/
def withoutPostRecord (path : String) : LogRecord where
  level := .debug
  message := "No POST operation, skipping path"
  fields := [("path", path)]

/-- A record accounts for a declared path beside the operations that are extracted. -/
structure Accounts (operations : List Operation) (entry : Declared) (record : LogRecord) :
    Prop where
  path : record.fields.lookup "path" = some entry.1
  extracted_iff :
    record.message = "Extracted operation" ↔ entry.1 ∈ operations.map Operation.path
  extracted : ∀ operation ∈ operations,
    operation.path = entry.1 → record = extractedRecord operation
  withoutPost_iff :
    record.message = "No POST operation, skipping path" ↔ WithoutPost entry
  withoutPost : WithoutPost entry → record = withoutPostRecord entry.1
  warning_iff :
    record.level = .warning ↔
      entry.1 ∉ operations.map Operation.path ∧ ¬WithoutPost entry

/-- The log of a document accounts for its declared paths, up to a failure. -/
def Logged (document : Document) : Except Failure (List Operation) → Prop
  | .ok operations =>
      List.Forall₂ (Accounts operations) document.paths.entries document.extractionLog
  | .error failure =>
      ∃ earlier path item later side operations,
        document.paths.entries = earlier ++ (path, item) :: later ∧
          failure = .inlineSchema path side ∧
          Kept document earlier operations ∧
          Offends document operations (path, item) side ∧
          List.Forall₂ (Accounts operations) earlier document.extractionLog

/-- What a report says about the declared path that it is about. -/
structure Reports (entry : Declared) (report : Report) : Prop where
  skipped_or_extracted :
    (∃ reason, report = .skipped reason) ∨
      ∃ operation, report = .extracted operation ∧ operation.path = entry.1
  withoutPost_iff : report = .skipped .withoutPost ↔ WithoutPost entry

/-- Judging a declared path reports about that path. -/
theorem reports_of_judge
    {document : Document}
    {kept : List Operation}
    {entry : Declared}
    {report : Report}
    (judged : judge document kept entry.1 entry.2 = .ok report) :
    Reports entry report := by
  obtain ⟨path, declared⟩ := entry
  cases declared with
  | reference target =>
      cases judged
      exact ⟨.inl ⟨_, rfl⟩, by simp [WithoutPost]⟩
  | inline item =>
      cases posted : item.post with
      | none =>
          have withoutPost : WithoutPost (path, .inline item) := ⟨item, rfl, posted⟩
          simp only [judge, posted] at judged
          cases judged
          exact ⟨.inl ⟨_, rfl⟩, by simp [withoutPost]⟩
      | some call =>
          have withPost : ¬WithoutPost (path, .inline item) := by
            simp [WithoutPost, posted]
          cases parsed : Route.parse? path with
          | none =>
              simp only [judge, posted, parsed] at judged
              cases judged
              exact ⟨.inl ⟨_, rfl⟩, by simp [withPost]⟩
          | some route =>
              cases found :
                  kept.find? fun operation => operation.methodName = route.methodName with
              | some first =>
                  simp only [judge, posted, parsed, found] at judged
                  cases judged
                  exact ⟨.inl ⟨_, rfl⟩, by simp [withPost]⟩
              | none =>
                  have unshadowed : Unshadowed kept route := by
                    intro operation member
                    simpa using List.find?_eq_none.mp found operation member
                  have called := judged
                  rw [judge_eq_judgeCall ⟨parsed, item, rfl, posted⟩ unshadowed] at called
                  rcases judgeCall_cases called with rfl | rfl | ⟨operation, rfl⟩
                  · exact ⟨.inl ⟨_, rfl⟩, by simp [withPost]⟩
                  · exact ⟨.inl ⟨_, rfl⟩, by simp [withPost]⟩
                  · obtain ⟨_, _, _, _, describes⟩ := judge_eq_extracted_iff.mp judged
                    exact ⟨.inr ⟨operation, rfl, describes.path⟩, by simp [withPost]⟩

/-- The operations that some events report, in order. -/
def extractedBy (events : List Event) : List Operation :=
  events.filterMap fun event => operationOf? event.report

/-- An event is about a declared path, and reports about it. -/
def IsEventOf (entry : Declared) (event : Event) : Prop :=
  event.path = entry.1 ∧ Reports entry event.report

/--
Walking some declared paths leaves one event for each path that it passes.

It passes all of them, or it stops at the first that offends beside the operations that are
kept by then, which are those kept before and those of the events.
-/
theorem exists_passed_of_walk
    {document : Document}
    {earlier : List Declared}
    {kept : List Operation}
    (rest : List Declared)
    (keptSoFar : Kept document earlier kept) :
    ∃ passed later,
      rest = passed ++ later ∧
        List.Forall₂ IsEventOf passed (walk document kept rest).1 ∧
        Kept document (earlier ++ passed)
          (kept ++ extractedBy (walk document kept rest).1) ∧
        ((later = [] ∧
            (walk document kept rest).2 =
              .ok (kept ++ extractedBy (walk document kept rest).1)) ∨
          ∃ entry others side,
            later = entry :: others ∧
              (walk document kept rest).2 = .error (.inlineSchema entry.1 side) ∧
              Offends document (kept ++ extractedBy (walk document kept rest).1) entry side) := by
  induction rest generalizing earlier kept with
  | nil =>
      exact ⟨[], [], rfl, .nil, by simpa [walk, extractedBy] using keptSoFar,
        .inl ⟨rfl, by simp [walk, extractedBy]⟩⟩
  | cons entry rest inductionHypothesis =>
      cases judged : judge document kept entry.1 entry.2 with
      | error failure =>
          obtain ⟨side, offends, rfl⟩ := judge_eq_error_iff.mp judged
          rw [walk_cons_of_error judged]
          exact ⟨[], entry :: rest, rfl, .nil, by simpa [extractedBy] using keptSoFar,
            .inr ⟨entry, rest, side, rfl, rfl, by simpa [extractedBy] using offends⟩⟩
      | ok report =>
          have extends_ (events : List Event) :
              kept ++ extractedBy (⟨entry.1, report⟩ :: events) =
                kept ++ (operationOf? report).toList ++ extractedBy events := by
            cases brought : operationOf? report <;> simp [extractedBy, brought]
          obtain ⟨passed, later, rfl, eventful, keptThere, ending⟩ :=
            inductionHypothesis (keptSoFar.of_judge judged)
          rw [walk_cons_of_ok judged]
          refine ⟨entry :: passed, later, rfl, .cons ⟨rfl, reports_of_judge judged⟩ eventful, ?_⟩
          rw [extends_]
          exact ⟨by simpa using keptThere, ending⟩

theorem message_eq_extracted_iff
    {report : Report} :
    report.message = "Extracted operation" ↔ ∃ operation, report = .extracted operation := by
  cases report with
  | skipped reason =>
      cases reason <;> simp [Report.message, Skip.message]
  | extracted operation =>
      simp [Report.message]
  | withoutOffset | withoutItems =>
      simp [Report.message]

theorem message_eq_withoutPost_iff
    {report : Report} :
    report.message = "No POST operation, skipping path" ↔ report = .skipped .withoutPost := by
  cases report with
  | skipped reason =>
      cases reason <;> simp [Report.message, Skip.message]
  | extracted operation =>
      simp [Report.message]
  | withoutOffset | withoutItems =>
      simp [Report.message]

/-- A report warns of every skip but that of a path without a call. -/
theorem level_eq_warning_iff
    {report : Report} :
    report.level = .warning ↔ ∃ reason, report = .skipped reason ∧ reason ≠ .withoutPost := by
  cases report with
  | skipped reason =>
      cases reason <;> simp [Report.level, Skip.level]
  | extracted operation =>
      simp [Report.level]
  | withoutOffset | withoutItems =>
      simp [Report.level]

/-- Events of different paths tell their operations apart by the paths. -/
theorem mem_extractedBy_iff
    {events : List Event}
    (distinct : (events.map Event.path).Nodup)
    (ownPath : ∀ event ∈ events, ∀ operation,
      event.report = .extracted operation → operation.path = event.path)
    {event : Event}
    (member : event ∈ events)
    {operation : Operation} :
    operation ∈ extractedBy events ∧ operation.path = event.path ↔
      event.report = .extracted operation := by
  constructor
  · rintro ⟨brought, samePath⟩
    obtain ⟨other, otherMember, otherBrings⟩ := List.mem_filterMap.mp brought
    have otherReports : other.report = .extracted operation := by
      cases shape : other.report with
      | extracted found =>
          rw [shape] at otherBrings
          exact congrArg Report.extracted (Option.some.inj otherBrings)
      | skipped _ | withoutOffset | withoutItems =>
          rw [shape] at otherBrings
          cases otherBrings
    have otherPath := ownPath other otherMember operation otherReports
    have same : other = event :=
      List.inj_on_of_nodup_map distinct otherMember member (otherPath.symm.trans samePath)
    rw [← same]
    exact otherReports
  · intro reports
    exact ⟨List.mem_filterMap.mpr ⟨event, member, by rw [reports]; rfl⟩,
      ownPath event member operation reports⟩

/-- The record of an event accounts for its path beside the operations of all events. -/
theorem IsEventOf.accounts
    {operations : List Operation}
    {entry : Declared}
    {event : Event}
    (isEvent : IsEventOf entry event)
    (brings : ∀ operation,
      operation ∈ operations ∧ operation.path = event.path ↔
        event.report = .extracted operation) :
    Accounts operations entry event.record := by
  obtain ⟨samePath, reports⟩ := isEvent
  rw [samePath] at brings
  have inResult :
      entry.1 ∈ operations.map Operation.path ↔
        ∃ operation, event.report = .extracted operation := by
    simp only [List.mem_map, brings]
  refine ⟨?_, ?_, ?_, ?_, ?_, ?_⟩
  · simp [Event.record, samePath]
  · rw [inResult]
    exact message_eq_extracted_iff
  · intro operation member ownPath
    have shape := (brings operation).mp ⟨member, ownPath⟩
    simp [Event.record, extractedRecord, shape, samePath, ownPath, Report.level,
      Report.message, Report.details]
  · rw [← reports.withoutPost_iff]
    exact message_eq_withoutPost_iff
  · intro withoutPost
    have shape := reports.withoutPost_iff.mpr withoutPost
    simp [Event.record, withoutPostRecord, shape, samePath, Report.level, Skip.level,
      Report.message, Skip.message, Report.details, Skip.details]
  · rw [inResult, ← reports.withoutPost_iff]
    refine level_eq_warning_iff.trans ?_
    rcases reports.skipped_or_extracted with ⟨reason, shape⟩ | ⟨operation, shape, _⟩
    · simp [shape]
    · simp [shape]

/-- Events of declared paths have their paths, in order. -/
theorem paths_of_isEventOf
    {passed : List Declared}
    {events : List Event}
    (eventful : List.Forall₂ IsEventOf passed events) :
    events.map Event.path = passed.map Prod.fst ∧
      ∀ event ∈ events, ∃ entry, IsEventOf entry event := by
  induction eventful with
  | nil =>
      exact ⟨rfl, by simp⟩
  | @cons entry event _ _ isEvent _ inductionHypothesis =>
      obtain ⟨samePaths, owned⟩ := inductionHypothesis
      refine ⟨by rw [List.map_cons, List.map_cons, isEvent.1, samePaths], ?_⟩
      intro other member
      rcases List.mem_cons.mp member with rfl | later
      · exact ⟨entry, isEvent⟩
      · exact owned other later

/-- The records of events of different paths account for the paths. -/
theorem accounts_of_isEventOf
    {passed : List Declared}
    {events : List Event}
    (distinct : (passed.map Prod.fst).Nodup)
    (eventful : List.Forall₂ IsEventOf passed events) :
    List.Forall₂ (Accounts (extractedBy events)) passed (events.map Event.record) := by
  obtain ⟨samePaths, owned⟩ := paths_of_isEventOf eventful
  have ownPath : ∀ event ∈ events, ∀ operation,
      event.report = .extracted operation → operation.path = event.path := by
    intro event member operation extracted
    obtain ⟨entry, samePath, reports⟩ := owned event member
    rcases reports.skipped_or_extracted with ⟨reason, skipped⟩ | ⟨other, shape, itsPath⟩
    · rw [skipped] at extracted
      cases extracted
    · rw [shape] at extracted
      cases extracted
      rw [itsPath, samePath]
  rw [List.forall₂_map_right_iff]
  obtain ⟨sameLength, pairs⟩ := List.forall₂_iff_zip.mp eventful
  refine List.forall₂_iff_zip.mpr ⟨sameLength, fun {entry event} paired => ?_⟩
  refine (pairs paired).accounts fun operation => ?_
  exact mem_extractedBy_iff (samePaths ▸ distinct) ownPath (List.of_mem_zip paired).2

/--
The log of extraction accounts for every declared path.

Where extraction succeeds there is one record for each declared path, in declared order;
where it fails there is one for each path before the one that the failure names, and none for
that path or a later one.
-/
theorem operations_logged
    (document : Document) :
    Logged document document.operations := by
  obtain ⟨passed, later, shape, eventful, keptThere, ending⟩ :=
    exists_passed_of_walk document.paths.entries (.start : Kept document [] [])
  rw [List.nil_append, List.nil_append] at keptThere
  simp only [List.nil_append] at ending
  have distinct : (passed.map Prod.fst).Nodup := by
    have all := document.paths.distinct
    rw [shape, List.map_append] at all
    exact (List.nodup_append.mp all).1
  have accounted := accounts_of_isEventOf distinct eventful
  rcases ending with ⟨rfl, succeeded⟩ | ⟨⟨path, item⟩, others, side, rfl, failed, offends⟩
  · have result : document.operations = .ok (extractedBy document.extractionEvents) := succeeded
    rw [result, Logged, shape, List.append_nil]
    exact accounted
  · have result : document.operations = .error (.inlineSchema path side) := failed
    rw [result]
    exact ⟨passed, path, item, others, side, _, shape, rfl, keptThere, offends, accounted⟩

end RpcStubs.Extraction
