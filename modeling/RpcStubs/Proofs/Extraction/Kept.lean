import RpcStubs.Proofs.Document.Selection
namespace RpcStubs.Extraction

/-!
# The operations that a document keeps

A specification of extraction on the declared paths alone.  A path is a candidate when it is
declared in place, has a `POST` call and spells a route; it is shadowed when an earlier kept
operation has its method.  An unshadowed candidate is kept when both of its schemas are
references, and offends when extraction has to name a schema that is written in place.

Walking the paths follows this specification: it ends at the first offence, and otherwise it
returns the kept operations.
-/

/-- A declared path with what it declares. -/
abbrev Declared := String × Ref PathItem

/-- A declared path that may become an operation, with its route and its call. -/
def Candidate (entry : Declared) (route : Route) (call : Call) : Prop :=
  Route.parse? entry.1 = some route ∧
    ∃ item, entry.2 = .inline item ∧ item.post = some call

/-- No operation that is already kept has the method of a route. -/
def Unshadowed (kept : List Operation) (route : Route) : Prop :=
  ∀ operation ∈ kept, operation.methodName ≠ route.methodName

/-- A declared path ends the extraction when it is reached with these operations kept. -/
def Offends (document : Document) (kept : List Operation) (entry : Declared) (side : Side) :
    Prop :=
  ∃ route call,
    Candidate entry route call ∧
      Unshadowed kept route ∧
      Call.Unnamed document call side

/--
What an operation says about the route and the call that it is made from.

Its identifiers are those of the route, and its message names are what the references of the
two schemas end in.
-/
structure Describes (document : Document) (path : String) (route : Route) (call : Call)
    (operation : Operation) : Prop where
  path : operation.path = path
  methodName : operation.methodName = route.methodName
  constantName : operation.constantName = route.constantName
  summary : operation.summary = summaryOf call
  request :
    ∃ target,
      call.RequestSchema document (.reference target) ∧
        Ref.EndsIn target operation.requestType
  response :
    ∃ target,
      call.ResponseSchema document (.reference target) ∧
        Ref.EndsIn target operation.responseType

/-- A declared path brings an operation when it is reached with these operations kept. -/
def Brings (document : Document) (kept : List Operation) (entry : Declared)
    (operation : Operation) : Prop :=
  ∃ route call,
    Candidate entry route call ∧
      Unshadowed kept route ∧
      Describes document entry.1 route call operation

/-- The operations that are kept after some declared paths, in declared order. -/
inductive Kept (document : Document) : List Declared → List Operation → Prop
  | start :
      Kept document [] []
  | keep {entries : List Declared} {kept : List Operation} {entry : Declared}
      {operation : Operation} :
      Kept document entries kept →
      Brings document kept entry operation →
      Kept document (entries ++ [entry]) (kept ++ [operation])
  | pass {entries : List Declared} {kept : List Operation} {entry : Declared} :
      Kept document entries kept →
      (∀ operation, ¬Brings document kept entry operation) →
      Kept document (entries ++ [entry]) kept

/-- A declared path offends where it stands, after the given paths. -/
def OffendsAfter (document : Document) (earlier : List Declared) (entry : Declared) (side : Side) :
    Prop :=
  ∃ kept, Kept document earlier kept ∧ Offends document kept entry side

/-- No path of a list offends where it stands. -/
def Clean (document : Document) (entries : List Declared) : Prop :=
  ∀ earlier entry later,
    entries = earlier ++ entry :: later →
      ∀ side, ¬OffendsAfter document earlier entry side

/-- Some declared path offends. -/
def Offence (document : Document) (path : String) (side : Side) : Prop :=
  ∃ earlier item later,
    document.paths.entries = earlier ++ (path, item) :: later ∧
      OffendsAfter document earlier (path, item) side

/-- The first declared path that offends. -/
def FirstOffence (document : Document) (path : String) (side : Side) : Prop :=
  ∃ earlier item later,
    document.paths.entries = earlier ++ (path, item) :: later ∧
      OffendsAfter document earlier (path, item) side ∧
      Clean document earlier

/-- A declared path is a candidate in one way only. -/
theorem Candidate.unique
    {entry : Declared}
    {firstRoute secondRoute : Route}
    {firstCall secondCall : Call}
    (first : Candidate entry firstRoute firstCall)
    (second : Candidate entry secondRoute secondCall) :
    firstRoute = secondRoute ∧ firstCall = secondCall := by
  obtain ⟨firstParsed, firstItem, firstWritten, firstPosted⟩ := first
  obtain ⟨secondParsed, secondItem, secondWritten, secondPosted⟩ := second
  rw [firstWritten, Ref.inline.injEq] at secondWritten
  subst secondWritten
  exact ⟨Option.some.inj (firstParsed.symm.trans secondParsed),
    Option.some.inj (firstPosted.symm.trans secondPosted)⟩

/-- An unshadowed candidate whose two schemas are references brings an operation. -/
theorem Candidate.brings
    {document : Document}
    {entry : Declared}
    {route : Route}
    {call : Call}
    (candidate : Candidate entry route call)
    {kept : List Operation}
    (unshadowed : Unshadowed kept route)
    {requestTarget responseTarget : String}
    (referred : call.RequestSchema document (.reference requestTarget))
    (answered : call.ResponseSchema document (.reference responseTarget)) :
    ∃ operation, Brings document kept entry operation := by
  refine ⟨
    { methodName := route.methodName
      path := entry.1
      constantName := route.constantName
      summary := summaryOf call
      requestType := Ref.nameOf requestTarget
      responseType := Ref.nameOf responseTarget },
    route, call, candidate, unshadowed, ?_⟩
  exact {
    path := rfl
    methodName := rfl
    constantName := rfl
    summary := rfl
    request := ⟨requestTarget, referred, Ref.nameOf_eq_iff.mp rfl⟩
    response := ⟨responseTarget, answered, Ref.nameOf_eq_iff.mp rfl⟩
  }

/-- Naming a schema fails exactly when it is written in place. -/
theorem namedSchema_eq_error_iff
    {path : String}
    {side : Side}
    {media : Option (Option (Ref Schema))}
    {failure : Failure} :
    namedSchema path side media = .error failure ↔
      (∃ schema, media = some (some (.inline schema))) ∧
        failure = .inlineSchema path side := by
  unfold namedSchema
  split <;> simp_all [eq_comm]

/-- A schema is named by what its reference ends in. -/
theorem namedSchema_eq_some_iff
    {path : String}
    {side : Side}
    {media : Option (Option (Ref Schema))}
    {name : String} :
    namedSchema path side media = .ok (some name) ↔
      ∃ target, media = some (some (.reference target)) ∧ Ref.EndsIn target name := by
  unfold namedSchema
  split <;> simp_all [← Ref.nameOf_eq_iff]

/-- No schema is named exactly when there is none. -/
theorem namedSchema_eq_none_iff
    {path : String}
    {side : Side}
    {media : Option (Option (Ref Schema))} :
    namedSchema path side media = .ok none ↔
      ∀ schema, media ≠ some (some schema) := by
  constructor
  · rintro unnamed (target | written) rfl
    · simp [namedSchema] at unnamed
    · simp [namedSchema] at unnamed
  · intro absent
    unfold namedSchema
    split
    · exact (absent _ rfl).elim
    · exact (absent _ rfl).elim
    · rfl

/-- What a candidate comes to once its method is free. -/
def judgeCall (document : Document) (path : String) (route : Route) (call : Call) :
    Except Failure Report := do
  match ← namedSchema path .request (requestMedia? document call) with
  | none => return .skipped .withoutRequest
  | some requestType =>
      match ← namedSchema path .response (call.successMedia? document) with
      | none => return .skipped .withoutResponse
      | some responseType =>
          return .extracted
            { methodName := route.methodName
              path := path
              constantName := route.constantName
              summary := summaryOf call
              requestType := requestType
              responseType := responseType }

/-- An unshadowed candidate is judged by its call alone. -/
theorem judge_eq_judgeCall
    {document : Document}
    {kept : List Operation}
    {entry : Declared}
    {route : Route}
    {call : Call}
    (candidate : Candidate entry route call)
    (unshadowed : Unshadowed kept route) :
    judge document kept entry.1 entry.2 = judgeCall document entry.1 route call := by
  obtain ⟨parsed, item, written, posted⟩ := candidate
  have free :
      (kept.find? fun operation => operation.methodName = route.methodName) = none := by
    rw [List.find?_eq_none]
    intro operation member
    simpa using unshadowed operation member
  rw [written]
  simp only [judge, posted, parsed, free]
  rfl

/-- Whatever is no unshadowed candidate is passed over. -/
theorem judge_of_not_candidate
    (document : Document)
    {kept : List Operation}
    {entry : Declared}
    (passed : ∀ route call, Candidate entry route call → ¬Unshadowed kept route) :
    ∃ reason, judge document kept entry.1 entry.2 = .ok (.skipped reason) := by
  obtain ⟨path, declared⟩ := entry
  cases declared with
  | reference target =>
      exact ⟨.referenced target, rfl⟩
  | inline item =>
      cases posted : item.post with
      | none =>
          exact ⟨.withoutPost, by simp [judge, posted]⟩
      | some call =>
          cases parsed : Route.parse? path with
          | none =>
              exact ⟨.malformed, by simp [judge, posted, parsed]⟩
          | some route =>
              cases found :
                  kept.find? fun operation => operation.methodName = route.methodName with
              | some first =>
                  exact ⟨.taken first.path route.methodName, by
                    simp [judge, posted, parsed, found]⟩
              | none =>
                  refine (passed route call ⟨parsed, item, rfl, posted⟩ ?_).elim
                  intro operation member
                  simpa using List.find?_eq_none.mp found operation member

/-- A call that is judged leaves out a schema, or it makes an operation. -/
theorem judgeCall_cases
    {document : Document}
    {path : String}
    {route : Route}
    {call : Call}
    {report : Report}
    (judged : judgeCall document path route call = .ok report) :
    report = .skipped .withoutRequest ∨
      report = .skipped .withoutResponse ∨
      ∃ operation, report = .extracted operation := by
  unfold judgeCall at judged
  cases request : namedSchema path .request (requestMedia? document call) with
  | error failure =>
      rw [request] at judged
      cases judged
  | ok requestName =>
      rw [request] at judged
      cases requestName with
      | none =>
          cases judged
          exact .inl rfl
      | some requestType =>
          cases response : namedSchema path .response (call.successMedia? document) with
          | error failure =>
              simp only [response, bind, Except.bind] at judged
              cases judged
          | ok responseName =>
              simp only [response, bind, Except.bind] at judged
              cases responseName with
              | none =>
                  cases judged
                  exact .inr (.inl rfl)
              | some responseType =>
                  cases judged
                  exact .inr (.inr ⟨_, rfl⟩)

/-- Judging a call fails exactly when it lacks a name, and says on which side. -/
theorem judgeCall_eq_error_iff
    {document : Document}
    {path : String}
    {route : Route}
    {call : Call}
    {failure : Failure} :
    judgeCall document path route call = .error failure ↔
      ∃ side, Call.Unnamed document call side ∧ failure = .inlineSchema path side := by
  unfold judgeCall
  cases request : namedSchema path .request (requestMedia? document call) with
  | error requestFailure =>
      obtain ⟨⟨schema, written⟩, rfl⟩ := namedSchema_eq_error_iff.mp request
      have unnamed : Call.Unnamed document call .request :=
        .request (requestMedia?_eq_some_iff.mp written)
      constructor
      · intro failed
        cases failed
        exact ⟨.request, unnamed, rfl⟩
      · rintro ⟨side, other, rfl⟩
        cases unnamed.unique other
        rfl
  | ok requestName =>
      cases requestName with
      | none =>
          have absent := namedSchema_eq_none_iff.mp request
          constructor
          · intro failed
            cases failed
          · rintro ⟨side, unnamed, rfl⟩
            cases unnamed with
            | request written =>
                exact (absent _ (requestMedia?_eq_some_iff.mpr written)).elim
            | response referred =>
                exact (absent _ (requestMedia?_eq_some_iff.mpr referred)).elim
      | some requestType =>
          obtain ⟨target, referred, _⟩ := namedSchema_eq_some_iff.mp request
          have requestSchema := requestMedia?_eq_some_iff.mp referred
          have onlyResponse :
              (∃ side, Call.Unnamed document call side ∧ failure = .inlineSchema path side) ↔
                (∃ schema, call.successMedia? document = some (some (.inline schema))) ∧
                  failure = .inlineSchema path .response := by
            constructor
            · rintro ⟨side, unnamed, rfl⟩
              cases unnamed with
              | request written =>
                  cases requestSchema.unique written
              | response _ written =>
                  exact ⟨⟨_, Call.successMedia?_eq_some_iff.mpr written⟩, rfl⟩
            · rintro ⟨⟨schema, written⟩, rfl⟩
              exact ⟨.response,
                .response requestSchema (Call.successMedia?_eq_some_iff.mp written), rfl⟩
          rw [onlyResponse, ← namedSchema_eq_error_iff]
          cases namedSchema path .response (call.successMedia? document) with
          | error responseFailure =>
              simp [bind, Except.bind]
          | ok responseName =>
              cases responseName with
              | none =>
                  simp [bind, Except.bind, pure, Except.pure]
              | some responseType =>
                  simp [bind, Except.bind, pure, Except.pure]

/-- A call makes exactly the operation that describes it. -/
theorem judgeCall_eq_extracted_iff
    {document : Document}
    {path : String}
    {route : Route}
    {call : Call}
    {operation : Operation} :
    judgeCall document path route call = .ok (.extracted operation) ↔
      Describes document path route call operation := by
  constructor
  · intro extracted
    unfold judgeCall at extracted
    cases request : namedSchema path .request (requestMedia? document call) with
    | error requestFailure =>
        simp [request, bind, Except.bind] at extracted
    | ok requestName =>
        cases requestName with
        | none =>
            simp [request, bind, Except.bind, pure, Except.pure] at extracted
        | some requestType =>
            cases response :
                namedSchema path .response (call.successMedia? document) with
            | error responseFailure =>
                simp [request, response, bind, Except.bind] at extracted
            | ok responseName =>
                cases responseName with
                | none =>
                    simp [request, response, bind, Except.bind, pure, Except.pure] at extracted
                | some responseType =>
                    simp only [request, response, bind, Except.bind, pure, Except.pure,
                      Except.ok.injEq, Report.extracted.injEq] at extracted
                    subst extracted
                    obtain ⟨requestTarget, referred, requestEnd⟩ :=
                      namedSchema_eq_some_iff.mp request
                    obtain ⟨responseTarget, answered, responseEnd⟩ :=
                      namedSchema_eq_some_iff.mp response
                    exact {
                      path := rfl
                      methodName := rfl
                      constantName := rfl
                      summary := rfl
                      request :=
                        ⟨requestTarget, requestMedia?_eq_some_iff.mp referred, requestEnd⟩
                      response :=
                        ⟨responseTarget, Call.successMedia?_eq_some_iff.mp answered,
                          responseEnd⟩
                    }
  · intro describes
    obtain ⟨requestTarget, referred, requestEnd⟩ := describes.request
    obtain ⟨responseTarget, answered, responseEnd⟩ := describes.response
    have request :
        namedSchema path .request (requestMedia? document call) =
          .ok (some operation.requestType) :=
      namedSchema_eq_some_iff.mpr
        ⟨requestTarget, requestMedia?_eq_some_iff.mpr referred, requestEnd⟩
    have response :
        namedSchema path .response (call.successMedia? document) =
          .ok (some operation.responseType) :=
      namedSchema_eq_some_iff.mpr
        ⟨responseTarget, Call.successMedia?_eq_some_iff.mpr answered, responseEnd⟩
    unfold judgeCall
    simp only [request, response, bind, Except.bind, pure, Except.pure]
    rw [← describes.path, ← describes.methodName, ← describes.constantName,
      ← describes.summary]

/-- Judging a declared path fails exactly when it offends. -/
theorem judge_eq_error_iff
    {document : Document}
    {kept : List Operation}
    {entry : Declared}
    {failure : Failure} :
    judge document kept entry.1 entry.2 = .error failure ↔
      ∃ side, Offends document kept entry side ∧ failure = .inlineSchema entry.1 side := by
  by_cases inQuestion :
      ∃ route call, Candidate entry route call ∧ Unshadowed kept route
  · obtain ⟨route, call, candidate, unshadowed⟩ := inQuestion
    rw [judge_eq_judgeCall candidate unshadowed, judgeCall_eq_error_iff]
    constructor
    · rintro ⟨side, unnamed, rfl⟩
      exact ⟨side, ⟨route, call, candidate, unshadowed, unnamed⟩, rfl⟩
    · rintro ⟨side, ⟨otherRoute, otherCall, other, _, unnamed⟩, rfl⟩
      obtain ⟨_, rfl⟩ := candidate.unique other
      exact ⟨side, unnamed, rfl⟩
  · obtain ⟨reason, skipped⟩ :=
      judge_of_not_candidate document fun route call candidate unshadowed =>
        inQuestion ⟨route, call, candidate, unshadowed⟩
    rw [skipped]
    constructor
    · intro failed
      cases failed
    · rintro ⟨side, ⟨route, call, candidate, unshadowed, _⟩, _⟩
      exact (inQuestion ⟨route, call, candidate, unshadowed⟩).elim

/-- A declared path makes an operation exactly when it brings that operation. -/
theorem judge_eq_extracted_iff
    {document : Document}
    {kept : List Operation}
    {entry : Declared}
    {operation : Operation} :
    judge document kept entry.1 entry.2 = .ok (.extracted operation) ↔
      Brings document kept entry operation := by
  by_cases inQuestion :
      ∃ route call, Candidate entry route call ∧ Unshadowed kept route
  · obtain ⟨route, call, candidate, unshadowed⟩ := inQuestion
    rw [judge_eq_judgeCall candidate unshadowed, judgeCall_eq_extracted_iff]
    constructor
    · intro describes
      exact ⟨route, call, candidate, unshadowed, describes⟩
    · rintro ⟨otherRoute, otherCall, other, _, describes⟩
      obtain ⟨rfl, rfl⟩ := candidate.unique other
      exact describes
  · obtain ⟨reason, skipped⟩ :=
      judge_of_not_candidate document fun route call candidate unshadowed =>
        inQuestion ⟨route, call, candidate, unshadowed⟩
    rw [skipped]
    constructor
    · intro extracted
      cases extracted
    · rintro ⟨route, call, candidate, unshadowed, _⟩
      exact (inQuestion ⟨route, call, candidate, unshadowed⟩).elim

/-- A declared path brings one operation at most. -/
theorem Brings.unique
    {document : Document}
    {kept : List Operation}
    {entry : Declared}
    {first second : Operation}
    (firstBrought : Brings document kept entry first)
    (secondBrought : Brings document kept entry second) :
    first = second := by
  rw [← judge_eq_extracted_iff] at firstBrought secondBrought
  simpa [firstBrought] using secondBrought

/-- The operations kept after some declared paths are determined by the paths. -/
theorem Kept.unique
    {document : Document}
    {entries : List Declared}
    {first second : List Operation}
    (firstKept : Kept document entries first)
    (secondKept : Kept document entries second) :
    first = second := by
  induction firstKept generalizing second with
  | start =>
      generalize shape : ([] : List Declared) = none_ at secondKept
      cases secondKept with
      | start =>
          rfl
      | keep =>
          simp at shape
      | pass =>
          simp at shape
  | @keep entries kept entry operation earlier brought inductionHypothesis =>
      generalize shape : entries ++ [entry] = whole at secondKept
      cases secondKept with
      | start =>
          simp at shape
      | keep otherEarlier otherBrought =>
          obtain ⟨rfl, sameEntry⟩ := List.append_inj' shape rfl
          cases sameEntry
          cases inductionHypothesis otherEarlier
          rw [brought.unique otherBrought]
      | pass otherEarlier otherPassed =>
          obtain ⟨rfl, sameEntry⟩ := List.append_inj' shape rfl
          cases sameEntry
          cases inductionHypothesis otherEarlier
          exact (otherPassed operation brought).elim
  | @pass entries kept entry earlier passed inductionHypothesis =>
      generalize shape : entries ++ [entry] = whole at secondKept
      cases secondKept with
      | start =>
          simp at shape
      | keep otherEarlier otherBrought =>
          obtain ⟨rfl, sameEntry⟩ := List.append_inj' shape rfl
          cases sameEntry
          cases inductionHypothesis otherEarlier
          exact (passed _ otherBrought).elim
      | pass otherEarlier _ =>
          obtain ⟨rfl, sameEntry⟩ := List.append_inj' shape rfl
          exact inductionHypothesis otherEarlier

/-- Kept operations have pairwise different methods. -/
theorem Kept.methodNames_nodup
    {document : Document}
    {entries : List Declared}
    {kept : List Operation}
    (keptSoFar : Kept document entries kept) :
    (kept.map Operation.methodName).Nodup := by
  induction keptSoFar with
  | start =>
      exact List.nodup_nil
  | @keep entries kept entry operation _ brought inductionHypothesis =>
      obtain ⟨route, call, _, unshadowed, describes⟩ := brought
      rw [List.map_append, List.nodup_append]
      refine ⟨inductionHypothesis, by simp, ?_⟩
      intro method member other otherMember
      obtain ⟨earlier, earlierMember, rfl⟩ := List.mem_map.mp member
      simp only [List.map_cons, List.map_nil, List.mem_singleton] at otherMember
      rw [otherMember, describes.methodName]
      exact unshadowed earlier earlierMember
  | pass _ _ inductionHypothesis =>
      exact inductionHypothesis

/-- The constant of a kept operation is named after its method. -/
theorem Kept.constantName_eq
    {document : Document}
    {entries : List Declared}
    {kept : List Operation}
    (keptSoFar : Kept document entries kept) :
    kept.map Operation.constantName =
      (kept.map Operation.methodName).map Route.constantFor := by
  induction keptSoFar with
  | start =>
      rfl
  | @keep entries kept entry operation _ brought inductionHypothesis =>
      obtain ⟨route, call, _, _, describes⟩ := brought
      simp [inductionHypothesis, describes.methodName, describes.constantName,
        Route.constantName]
  | pass _ _ inductionHypothesis =>
      exact inductionHypothesis

/-- Kept operations have pairwise different constants. -/
theorem Kept.constantNames_nodup
    {document : Document}
    {entries : List Declared}
    {kept : List Operation}
    (keptSoFar : Kept document entries kept) :
    (kept.map Operation.constantName).Nodup := by
  rw [keptSoFar.constantName_eq]
  exact List.pairwise_map.mpr
    (keptSoFar.methodNames_nodup.imp fun differ same =>
      differ (Route.constantFor_injective same))

/-- The paths of kept operations are declared paths, in declared order. -/
theorem Kept.paths_sublist
    {document : Document}
    {entries : List Declared}
    {kept : List Operation}
    (keptSoFar : Kept document entries kept) :
    (kept.map Operation.path).Sublist (entries.map Prod.fst) := by
  induction keptSoFar with
  | start =>
      exact .slnil
  | @keep entries kept entry operation _ brought inductionHypothesis =>
      obtain ⟨route, call, _, _, describes⟩ := brought
      rw [List.map_append, List.map_append]
      exact inductionHypothesis.append (by simp [describes.path])
  | @pass entries kept entry _ _ inductionHypothesis =>
      rw [List.map_append]
      exact inductionHypothesis.trans (List.sublist_append_left _ _)

end RpcStubs.Extraction
