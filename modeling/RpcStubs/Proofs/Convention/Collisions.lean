import RpcStubs.Proofs.Convention.Accepted
import RpcStubs.Proofs.Convention.References
namespace RpcStubs

open Extraction (Declared Candidate Unshadowed Kept Brings)

/-!
# Methods that are taken

Two loops look for paths that derive one method.  The convention goes over every path and
remembers which path was the first to derive a method; extraction compares a path with the
operations that it has kept.  Whatever extraction passes over as taken is a collision for the
convention.  When every path names its schemas, the two loops remember the same paths, so they
find the same collisions in the same order.
-/

namespace Convention

/-- The first of some paths that derives a method. -/
def firstDeriving? (paths : List String) (method : String) : Option String :=
  paths.find? fun path => (Route.parse? path).map Route.methodName = some method

theorem firstDeriving?_snoc
    (paths : List String)
    (path : String)
    (method : String) :
    firstDeriving? (paths ++ [path]) method =
      (firstDeriving? paths method).or (firstDeriving? [path] method) :=
  List.find?_append

theorem firstDeriving?_singleton
    {path : String}
    {route : Route}
    (parsed : Route.parse? path = some route)
    (method : String) :
    firstDeriving? [path] method =
      if route.methodName = method then some path else none := by
  by_cases same : route.methodName = method
  · simp [firstDeriving?, parsed, same]
  · simp [firstDeriving?, parsed, same]

/-- A method that is derived is derived by a first path. -/
theorem exists_firstDeriving
    {paths : List String}
    {method : String}
    (derived : method ∈ derivedMethods paths) :
    ∃ first, firstDeriving? paths method = some first := by
  obtain ⟨path, member, derives⟩ := List.mem_filterMap.mp derived
  rw [← Option.isSome_iff_exists, firstDeriving?, List.find?_isSome]
  exact ⟨path, member, by simpa using derives⟩

/-- The violation of a path after other ones, if one of them derives its method. -/
def collisionAfter? (earlier : List String) (path : String) : Option Violation := do
  let route ← Route.parse? path
  let first ← firstDeriving? earlier route.methodName
  return ⟨path, .methodTaken route.methodName first⟩

/-- The table of methods tells the first path that derives each of them. -/
def Tells (seen : List (String × String)) (paths : List String) : Prop :=
  ∀ method, seen.lookup method = firstDeriving? paths method

/-- Looking at one path reports its collision, and keeps the table of methods up to date. -/
theorem collisions_cons
    {seen : List (String × String)}
    {earlier : List String}
    (tells : Tells seen earlier)
    (path : String) :
    ∃ seenAfter,
      Tells seenAfter (earlier ++ [path]) ∧
        ∀ rest,
          collisions seen (path :: rest) =
            (collisionAfter? earlier path).toList ++ collisions seenAfter rest := by
  cases parsed : Route.parse? path with
  | none =>
      refine ⟨seen, ?_, ?_⟩
      · intro method
        rw [firstDeriving?_snoc, ← tells method]
        simp [firstDeriving?, parsed]
      · intro rest
        simp [collisions, collisionAfter?, parsed]
  | some route =>
      cases found : seen.lookup route.methodName with
      | some first =>
          refine ⟨seen, ?_, ?_⟩
          · intro method
            rw [firstDeriving?_snoc, ← tells method, firstDeriving?_singleton parsed]
            by_cases same : route.methodName = method
            · subst same
              simp [found]
            · simp [same]
          · intro rest
            simp [collisions, collisionAfter?, parsed, ← tells route.methodName, found]
      | none =>
          refine ⟨seen ++ [(route.methodName, path)], ?_, ?_⟩
          · intro method
            rw [firstDeriving?_snoc, ← tells method, firstDeriving?_singleton parsed,
              List.lookup_append, List.lookup_singleton]
            simp only [beq_iff_eq, @eq_comm _ method]
          · intro rest
            simp [collisions, collisionAfter?, parsed, ← tells route.methodName, found]

/-- The collisions of paths that follow other ones come after the collisions of those. -/
theorem collisions_append
    {seen : List (String × String)}
    {earlier : List String}
    (tells : Tells seen earlier)
    (front : List String) :
    ∃ seenAfter,
      Tells seenAfter (earlier ++ front) ∧
        ∀ rest,
          collisions seen (front ++ rest) = collisions seen front ++ collisions seenAfter rest := by
  induction front generalizing seen earlier with
  | nil =>
      exact ⟨seen, by simpa using tells, fun rest => rfl⟩
  | cons path front inductionHypothesis =>
      obtain ⟨seenBetween, tellsBetween, stepped⟩ := collisions_cons tells path
      obtain ⟨seenAfter, tellsAfter, split⟩ := inductionHypothesis tellsBetween
      refine ⟨seenAfter, by simpa using tellsAfter, ?_⟩
      intro rest
      rw [List.cons_append, stepped, split, stepped front, List.append_assoc]

theorem tells_nil :
    Tells [] [] :=
  fun _ => rfl

/-- The last of some paths adds its collision to those of the others. -/
theorem collisions_snoc
    (paths : List String)
    (path : String) :
    collisions [] (paths ++ [path]) =
      collisions [] paths ++ (collisionAfter? paths path).toList := by
  obtain ⟨seenBetween, tellsBetween, split⟩ := collisions_append tells_nil paths
  obtain ⟨seenAfter, _, stepped⟩ := collisions_cons tellsBetween path
  rw [split, stepped]
  simp [collisions]

/-- A path that collides with earlier ones is reported, whatever follows it. -/
theorem mem_collisions_of_collisionAfter
    {earlier later : List String}
    {path : String}
    {violation : Violation}
    (collides : collisionAfter? earlier path = some violation) :
    violation ∈ collisions [] (earlier ++ path :: later) := by
  obtain ⟨seenBetween, tellsBetween, split⟩ := collisions_append tells_nil earlier
  obtain ⟨seenAfter, _, stepped⟩ := collisions_cons tellsBetween path
  rw [split, stepped, List.nil_append, collides]
  simp

end Convention

namespace Extraction

/-- An event of a walk is the judgement of a path after the operations kept before it. -/
theorem exists_judged_of_mem_walk
    {document : Document}
    {earlier rest : List Declared}
    {kept : List Operation}
    {event : Event}
    (keptSoFar : Kept document earlier kept)
    (happens : event ∈ (walk document kept rest).1) :
    ∃ middle item later keptBefore,
      rest = middle ++ (event.path, item) :: later ∧
        Kept document (earlier ++ middle) keptBefore ∧
        judge document keptBefore event.path item = .ok event.report := by
  induction rest generalizing earlier kept with
  | nil =>
      cases happens
  | cons entry rest inductionHypothesis =>
      cases judged : judge document kept entry.1 entry.2 with
      | error failure =>
          rw [walk_cons_of_error judged] at happens
          cases happens
      | ok report =>
          rw [walk_cons_of_ok judged] at happens
          rcases List.mem_cons.mp happens with rfl | later
          · exact ⟨[], entry.2, rest, kept, rfl, by simpa using keptSoFar, judged⟩
          · obtain ⟨middle, item, after, keptBefore, rfl, keptThere, judgedThere⟩ :=
              inductionHypothesis (keptSoFar.of_judge judged) later
            exact ⟨entry :: middle, item, after, keptBefore, rfl, by simpa using keptThere,
              judgedThere⟩

/-- A call on its own never makes its path a taken one. -/
theorem judgeCall_ne_taken
    (document : Document)
    (path : String)
    (route : Route)
    (call : Call)
    (first method : String) :
    judgeCall document path route call ≠ .ok (.skipped (.taken first method)) := by
  intro judged
  rcases judgeCall_cases judged with same | same | ⟨_, same⟩ <;> cases same

/-- A path is taken when an operation that is already kept has its method. -/
theorem exists_kept_of_judge_taken
    {document : Document}
    {kept : List Operation}
    {entry : Declared}
    {first method : String}
    (judged : judge document kept entry.1 entry.2 = .ok (.skipped (.taken first method))) :
    ∃ route,
      Route.parse? entry.1 = some route ∧
        ∃ operation ∈ kept, operation.methodName = route.methodName := by
  obtain ⟨path, declared⟩ := entry
  cases declared with
  | reference target =>
      cases judged
  | inline item =>
      cases posted : item.post with
      | none =>
          simp [judge, posted] at judged
      | some call =>
          cases parsed : Route.parse? path with
          | none =>
              simp [judge, posted, parsed] at judged
          | some route =>
              refine ⟨route, rfl, ?_⟩
              by_cases taken :
                  ∃ operation ∈ kept, operation.methodName = route.methodName
              · exact taken
              · have unshadowed : Unshadowed kept route := by
                  intro operation member same
                  exact taken ⟨operation, member, same⟩
                rw [judge_eq_judgeCall ⟨parsed, item, rfl, posted⟩ unshadowed] at judged
                exact (judgeCall_ne_taken document path route call first method judged).elim

end Extraction

namespace Convention

/-- A path that extraction passes over as taken is a collision of the declared paths. -/
theorem exists_collision_of_taken
    {document : Document}
    {path first method : String}
    (happens : ⟨path, .skipped (.taken first method)⟩ ∈ document.extractionEvents) :
    ∃ violation ∈ collisions [] document.paths.names, violation.path = path := by
  obtain ⟨earlier, item, later, kept, shape, keptSoFar, judged⟩ :=
    Extraction.exists_judged_of_mem_walk .start happens
  obtain ⟨route, parsed, operation, member, sameMethod⟩ :=
    @Extraction.exists_kept_of_judge_taken document kept (path, item) first method judged
  have derived : route.methodName ∈ derivedMethods (earlier.map Prod.fst) := by
    rw [← sameMethod]
    exact (methodNames_sublist keptSoFar).subset (List.mem_map_of_mem member)
  obtain ⟨firstPath, firstOne⟩ := exists_firstDeriving derived
  have collides :
      collisionAfter? (earlier.map Prod.fst) path =
        some ⟨path, .methodTaken route.methodName firstPath⟩ := by
    simp [collisionAfter?, parsed, firstOne]
  refine ⟨⟨path, .methodTaken route.methodName firstPath⟩, ?_, rfl⟩
  rw [Catalog.names, shape, List.map_append, List.map_cons]
  exact mem_collisions_of_collisionAfter collides

/-- The rule on methods is the rule of taken methods only. -/
theorem rule_eq_uniqueMethod_iff
    {breach : Breach} :
    breach.rule = "unique-method" ↔ ∃ method first, breach = .methodTaken method first := by
  constructor
  · intro named
    cases breach with
    | methodTaken method first =>
        exact ⟨method, first, rfl⟩
    | schemaInline side =>
        cases side with
        | request =>
            simp [Breach.rule] at named
        | response =>
            simp [Breach.rule] at named
    | _ =>
        simp [Breach.rule] at named
  · rintro ⟨method, first, rfl⟩
    rfl

theorem message_methodTaken
    (method first : String) :
    (Breach.methodTaken method first).message = "derives " ++ method ++ " like " ++ first := by
  change s!"derives {method} like {first}" = _
  simp only [toString]

/-- What one path declares never takes a method. -/
theorem check_ne_methodTaken
    {check : Check}
    (listed : check ∈ checks)
    (document : Document)
    (path : String)
    (item : PathItem)
    (method first : String) :
    check document path item ≠ some (.methodTaken method first) := by
  have inlineFree (side : Side) (schema : Option (Ref Schema)) :
      schema.bind (inlineBreach? side) ≠ some (.methodTaken method first) := by
    rcases schema with _ | (target | written)
    · simp
    · simp [inlineBreach?]
    · simp [inlineBreach?]
  simp only [checks, List.mem_cons, List.not_mem_nil, or_false] at listed
  rcases listed with rfl | rfl | rfl | rfl | rfl | rfl | rfl | rfl
  · unfold checkPath
    split <;> simp
  · unfold checkVerbs
    split
    · simp
    · split <;> simp
  · unfold checkBody
    split
    · split <;> simp
    · simp
  · intro breached
    obtain ⟨call, _, breached⟩ := Option.bind_eq_some_iff.mp breached
    obtain ⟨body, _, breached⟩ := Option.bind_eq_some_iff.mp breached
    split at breached
    · simp at breached
    · split at breached <;> simp at breached
  · unfold checkSuccess
    split
    · split <;> simp
    · simp
  · exact inlineFree .request _
  · exact inlineFree .response _
  · unfold checkDeclared
    simp only
    split <;> simp

/-- The violations of the rule on methods are the collisions of the declared paths. -/
theorem filter_violations_eq_collisions
    (document : Document) :
    document.violations.filter (fun violation => violation.breach.rule = "unique-method") =
      collisions [] document.paths.names := by
  have apart (violation : Violation)
      (other : ∀ method first, violation.breach ≠ .methodTaken method first) :
      ¬violation.breach.rule = "unique-method" := by
    intro named
    obtain ⟨method, first, same⟩ := rule_eq_uniqueMethod_iff.mp named
    exact other method first same
  have ofPaths :
      (document.paths.entries.flatMap fun entry =>
          pathViolations document entry.1 entry.2).filter
        (fun violation => violation.breach.rule = "unique-method") = [] := by
    rw [List.filter_eq_nil_iff]
    intro violation member
    obtain ⟨⟨path, declared⟩, _, violates⟩ := List.mem_flatMap.mp member
    simp only [decide_eq_true_eq]
    cases declared with
    | reference target =>
        cases List.mem_singleton.mp violates
        exact apart _ (by simp)
    | inline item =>
        obtain ⟨breach, breached, rfl⟩ := List.mem_map.mp violates
        obtain ⟨check, listed, found⟩ := List.mem_filterMap.mp breached
        refine apart _ ?_
        rintro method first rfl
        exact check_ne_methodTaken listed document path item method first found
  have ofPairs :
      (collisions [] document.paths.names).filter
        (fun violation => violation.breach.rule = "unique-method") =
          collisions [] document.paths.names := by
    rw [List.filter_eq_self]
    intro violation member
    simpa using rule_eq_uniqueMethod_iff.mpr (breach_of_mem_collisions member)
  have ofComponents :
      (document.components.schemas.entries.flatMap fun entry =>
          componentViolations document entry.1 entry.2).filter
        (fun violation => violation.breach.rule = "unique-method") = [] := by
    rw [List.filter_eq_nil_iff]
    intro violation member
    obtain ⟨⟨name, schema⟩, _, violates⟩ := List.mem_flatMap.mp member
    obtain ⟨target, rfl, _⟩ := mem_componentViolations_iff.mp violates
    simpa using apart (danglingIn name target) (by simp [danglingIn])
  rw [Document.violations, List.filter_append, List.filter_append, ofPaths, ofPairs,
    ofComponents, List.nil_append, List.append_nil]

/-- A violation tells that a path derives the method of an operation, and names its path. -/
def TakenBy (violation : Violation) (operation : Operation) : Prop :=
  violation.breach = .methodTaken operation.methodName operation.path ∧
    (Route.parse? violation.path).map Route.methodName = some operation.methodName

/-- A path is declared in place, spells a route and names the schemas of its call. -/
def NamesSchemas (document : Document) (entry : Declared) : Prop :=
  ∃ route call requestTarget responseTarget,
    Candidate entry route call ∧
      call.RequestSchema document (.reference requestTarget) ∧
      call.ResponseSchema document (.reference responseTarget)

/-- What the collisions of some paths share with the operations that are kept from them. -/
structure Agree (paths : List String) (kept : List Operation) : Prop where
  firsts :
    ∀ method,
      firstDeriving? paths method =
        (kept.find? fun operation => operation.methodName = method).map Operation.path
  dropped :
    paths.filter (fun path => path ∉ kept.map Operation.path) =
      (collisions [] paths).map Violation.path
  told :
    ∀ violation ∈ collisions [] paths, ∃ operation ∈ kept, TakenBy violation operation

theorem agree_nil :
    Agree [] [] where
  firsts _ := rfl
  dropped := rfl
  told _ member := by cases member

/-- The loops agree after a path whose method is new to both of them. -/
theorem Agree.keep
    {paths : List String}
    {kept : List Operation}
    (agree : Agree paths kept)
    {path : String}
    (new : path ∉ paths)
    {route : Route}
    (parsed : Route.parse? path = some route)
    (unshadowed : Unshadowed kept route)
    {operation : Operation}
    (samePath : operation.path = path)
    (sameMethod : operation.methodName = route.methodName) :
    Agree (paths ++ [path]) (kept ++ [operation]) := by
  have untold : firstDeriving? paths route.methodName = none := by
    rw [agree.firsts, Option.map_eq_none_iff, List.find?_eq_none]
    intro other member
    simpa using unshadowed other member
  have quiet : collisionAfter? paths path = none := by
    simp [collisionAfter?, parsed, untold]
  have collisionsSame : collisions [] (paths ++ [path]) = collisions [] paths := by
    rw [collisions_snoc, quiet, Option.toList_none, List.append_nil]
  constructor
  · intro method
    rw [firstDeriving?_snoc, agree.firsts, firstDeriving?_singleton parsed, List.find?_append,
      Option.map_or]
    simp [List.find?_singleton, sameMethod, samePath]
  · have ofLast :
        [path].filter (fun path => path ∉ (kept ++ [operation]).map Operation.path) = [] := by
      simp [samePath]
    rw [collisionsSame, ← agree.dropped, List.filter_append, ofLast, List.append_nil]
    refine List.filter_congr fun other member => ?_
    have apart : other ≠ path := by
      rintro rfl
      exact new member
    simp [samePath, apart]
  · rw [collisionsSame]
    intro violation member
    obtain ⟨other, otherMember, taken⟩ := agree.told violation member
    exact ⟨other, List.mem_append_left _ otherMember, taken⟩

/-- The loops agree after a path whose method is taken by a kept operation. -/
theorem Agree.drop
    {paths : List String}
    {kept : List Operation}
    (agree : Agree paths kept)
    {path : String}
    (unkept : path ∉ kept.map Operation.path)
    {route : Route}
    (parsed : Route.parse? path = some route)
    (shadowed : ¬Unshadowed kept route) :
    Agree (paths ++ [path]) kept := by
  obtain ⟨operation, found⟩ :
      ∃ operation,
        (kept.find? fun operation => operation.methodName = route.methodName) =
          some operation := by
    cases found : kept.find? fun operation => operation.methodName = route.methodName with
    | some operation =>
        exact ⟨operation, rfl⟩
    | none =>
        refine (shadowed ?_).elim
        intro operation member
        simpa using List.find?_eq_none.mp found operation member
  have sameMethod : operation.methodName = route.methodName := by
    simpa using List.find?_some found
  have told : firstDeriving? paths route.methodName = some operation.path := by
    rw [agree.firsts, found, Option.map_some]
  have collisionsGrow :
      collisions [] (paths ++ [path]) =
        collisions [] paths ++ [⟨path, .methodTaken route.methodName operation.path⟩] := by
    rw [collisions_snoc]
    simp [collisionAfter?, parsed, told]
  constructor
  · intro method
    rw [firstDeriving?_snoc, ← agree.firsts, firstDeriving?_singleton parsed]
    by_cases same : route.methodName = method
    · subst same
      rw [told, Option.some_or]
    · simp [same]
  · rw [collisionsGrow, List.map_append, ← agree.dropped, List.filter_append]
    simpa using unkept
  · rw [collisionsGrow]
    intro violation member
    rcases List.mem_append.mp member with earlier | last
    · exact agree.told violation earlier
    · cases List.mem_singleton.mp last
      refine ⟨operation, List.mem_of_find?_eq_some found, ?_, ?_⟩
      · rw [sameMethod]
      · simp [parsed, sameMethod]

/-- The loops agree on declared paths that all name their schemas. -/
theorem Agree.of_kept
    {document : Document}
    {entries : List Declared}
    {kept : List Operation}
    (keptSoFar : Kept document entries kept)
    (named : ∀ entry ∈ entries, NamesSchemas document entry)
    (distinct : (entries.map Prod.fst).Nodup) :
    Agree (entries.map Prod.fst) kept := by
  induction keptSoFar with
  | start =>
      exact agree_nil
  | @keep entries kept entry operation earlier brought inductionHypothesis =>
      rw [List.map_append, List.nodup_append] at distinct
      have agree :=
        inductionHypothesis (fun other member => named other (by simp [member])) distinct.1
      obtain ⟨route, call, candidate, unshadowed, describes⟩ := brought
      rw [List.map_append]
      refine agree.keep ?_ candidate.1 unshadowed describes.path describes.methodName
      intro member
      exact distinct.2.2 entry.1 member entry.1 (by simp) rfl
  | @pass entries kept entry earlier passed inductionHypothesis =>
      rw [List.map_append, List.nodup_append] at distinct
      have agree :=
        inductionHypothesis (fun other member => named other (by simp [member])) distinct.1
      obtain ⟨route, call, _, _, candidate, referred, answered⟩ := named entry (by simp)
      rw [List.map_append]
      refine agree.drop ?_ candidate.1 ?_
      · intro member
        exact distinct.2.2 entry.1 (earlier.paths_sublist.subset member) entry.1 (by simp) rfl
      · -- With its schemas named, only a kept method can have made extraction pass the path.
        intro unshadowed
        obtain ⟨operation, brought⟩ := candidate.brings unshadowed referred answered
        exact passed operation brought

/-- A path that names its schemas does not offend, whatever is kept before it. -/
theorem NamesSchemas.not_offends
    {document : Document}
    {entry : Declared}
    (names : NamesSchemas document entry)
    (kept : List Operation)
    (side : Side) :
    ¬Extraction.Offends document kept entry side := by
  rintro ⟨otherRoute, otherCall, other, _, unnamed⟩
  obtain ⟨route, call, requestTarget, responseTarget, candidate, referred, answered⟩ := names
  obtain ⟨_, rfl⟩ := candidate.unique other
  cases unnamed with
  | request written =>
      cases referred.unique written
  | response _ written =>
      cases answered.unique written

end Convention

namespace Document

open Convention (NamesSchemas TakenBy Agree collisions)

/-- Every path is declared in place, spells a route and names the schemas of its call. -/
def NamesEverySchema (document : Document) : Prop :=
  ∀ entry ∈ document.paths.entries, NamesSchemas document entry

/-- The violations of the rule on methods, in the order of reports. -/
def methodViolations (document : Document) : List Violation :=
  document.violations.filter fun violation => violation.breach.rule = "unique-method"

/-- When every path names its schemas, extraction succeeds and both loops agree. -/
theorem NamesEverySchema.agree
    {document : Document}
    (named : document.NamesEverySchema) :
    ∃ operations,
      document.operations = .ok operations ∧ Agree document.paths.names operations := by
  cases result : document.operations with
  | ok operations =>
      obtain ⟨_, keptAll⟩ := Extraction.operations_eq_ok_iff.mp result
      exact ⟨operations, rfl, .of_kept keptAll named document.paths.distinct⟩
  | error failure =>
      obtain ⟨path, side, _, earlier, item, later, shape, ⟨kept, _, offends⟩, _⟩ :=
        Extraction.operations_eq_error_iff.mp result
      exact ((named (path, item) (by simp [shape])).not_offends kept side offends).elim

/--
The convention and extraction agree on methods that two paths derive.

Whatever extraction passes over as taken is reported by the rule on methods.  When every path
names its schemas, the paths that make no operation are exactly the reported ones, in order, and
each report names the path of the operation that was kept for the method.
-/
theorem taken_paths_are_reported
    (document : Document) :
    (∀ path first method,
        ⟨path, .skipped (.taken first method)⟩ ∈ document.extractionEvents →
          ∃ violation ∈ document.methodViolations, violation.path = path) ∧
      (document.NamesEverySchema →
        ∃ operations,
          document.operations = .ok operations ∧
            document.paths.names.filter (fun path => path ∉ operations.map Operation.path) =
              document.methodViolations.map Violation.path ∧
            ∀ violation ∈ document.methodViolations,
              ∃ operation ∈ operations,
                (Route.parse? violation.path).map Route.methodName =
                    some operation.methodName ∧
                  violation.breach.message =
                    "derives " ++ operation.methodName ++ " like " ++ operation.path) := by
  have reported : document.methodViolations = collisions [] document.paths.names :=
    Convention.filter_violations_eq_collisions document
  refine ⟨?_, ?_⟩
  · intro path first method happens
    rw [reported]
    exact Convention.exists_collision_of_taken happens
  · intro named
    rw [reported]
    obtain ⟨operations, extracted, agree⟩ := named.agree
    refine ⟨operations, extracted, agree.dropped, ?_⟩
    intro violation member
    obtain ⟨operation, kept, breached, derives⟩ := agree.told violation member
    exact ⟨operation, kept, derives, breached ▸ Convention.message_methodTaken _ _⟩

/-- A path that takes a user and answers with one. -/
def userItem : Ref PathItem :=
  .inline { post := some (Convention.userCall (some (.reference "#/components/schemas/User"))) }

/-- A document in which two methods are derived twice, once through another separator. -/
def collidingDocument : Document :=
  { Convention.userDocument none with
    paths := { entries := [
      ("/v1/users.create", userItem),
      ("/v1/user_groups.add", userItem),
      ("/v2/users.create", userItem),
      ("/v1/user-groups.add", userItem)] } }

/-- The second path of each method makes no operation, and both are reported. -/
theorem collidingDocument_taken :
    collidingDocument.NamesEverySchema ∧
      ∃ operations,
        collidingDocument.operations = .ok operations ∧
          collidingDocument.paths.names.filter
              (fun path => path ∉ operations.map Operation.path) =
            ["/v2/users.create", "/v1/user-groups.add"] := by
  have named : collidingDocument.NamesEverySchema := by
    have selects (path : String) (route : Route) (parsed : Route.parse? path = some route) :
        NamesSchemas collidingDocument (path, userItem) :=
      ⟨route, _, "#/components/schemas/User", "#/components/schemas/User",
        ⟨parsed, _, rfl, rfl⟩,
        Extraction.requestMedia?_eq_some_iff.mp rfl,
        Call.successMedia?_eq_some_iff.mp rfl⟩
    intro entry member
    simp only [collidingDocument, List.mem_cons, List.not_mem_nil, or_false] at member
    rcases member with rfl | rfl | rfl | rfl
    · exact selects _ ⟨"v1", "users", "create"⟩ (by decide)
    · exact selects _ ⟨"v1", "user_groups", "add"⟩ (by decide)
    · exact selects _ ⟨"v2", "users", "create"⟩ (by decide)
    · exact selects _ ⟨"v1", "user-groups", "add"⟩ (by decide)
  obtain ⟨operations, extracted, dropped, _⟩ := (taken_paths_are_reported _).2 named
  refine ⟨named, operations, extracted, dropped.trans ?_⟩
  decide +kernel

end Document

end RpcStubs
