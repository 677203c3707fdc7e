import Mathlib.Data.List.Perm.Basic
import RpcStubs.Proofs.Artifact.Names
import RpcStubs.Proofs.Convention.Accepted
import RpcStubs.Proofs.Listing.Fetchers
namespace RpcStubs

/-!
# Declarations of the output package

The files of the output package share one namespace.  Their names are fixed, or made of a
method name or an item type with fixed texts before and after it.  Fixed texts that do not fit
together keep most of them apart; the pairs that they do not keep apart are listed here.
-/

theorem append_ne_append_of_starts
    {first second : String}
    (apart : ¬first.toList <+: second.toList)
    (otherApart : ¬second.toList <+: first.toList)
    (rest other : String) :
    first ++ rest ≠ second ++ other := by
  intro same
  have shared : first.toList ++ rest.toList = second.toList ++ other.toList := by
    rw [← String.toList_append, same, String.toList_append]
  rcases List.prefix_or_prefix_of_prefix (List.prefix_append _ _)
    (shared ▸ List.prefix_append second.toList other.toList) with fits | fits
  · exact apart fits
  · exact otherApart fits

theorem append_ne_append_of_ends
    {first second : String}
    (apart : ¬first.toList <:+ second.toList)
    (otherApart : ¬second.toList <:+ first.toList)
    (start other : String) :
    start ++ first ≠ other ++ second := by
  intro same
  have shared : start.toList ++ first.toList = other.toList ++ second.toList := by
    rw [← String.toList_append, same, String.toList_append]
  rcases List.suffix_or_suffix_of_suffix (List.suffix_append _ _)
    (shared ▸ List.suffix_append other.toList second.toList) with fits | fits
  · exact apart fits
  · exact otherApart fits

/-- Names from which different keys can be told have no duplicates if the keys have none. -/
theorem map_nodup_of_key
    {α : Type}
    {key name : α → String}
    {elements : List α}
    (distinct : (elements.map key).Nodup)
    (tells : ∀ first ∈ elements, ∀ second ∈ elements,
      name first = name second → key first = key second) :
    (elements.map name).Nodup := by
  rw [List.Nodup, List.pairwise_map] at distinct ⊢
  exact distinct.imp_of_mem fun firstMember secondMember differ same =>
    differ (tells _ firstMember _ secondMember same)

namespace Artifact

/-- Whether an artifact is a file of the output package, as its first line says. -/
def isInPackage (model : Model) (artifact : Artifact) : Bool :=
  (artifact.lines model).head? = some [.text "package ", .text model.package]

variable {model : Model}

@[simp] theorem namesIn_declared?_messageImport
    (model : Model) :
    namesIn Part.declared? (messageImport model) = [] :=
  namesIn_messageImport Part.declared? (fun _ => rfl) model

@[simp] theorem namesIn_declared?_summaryLines
    (operation : Operation) :
    namesIn Part.declared? (summaryLines operation) = [] :=
  namesIn_summaryLines Part.declared? (fun _ => rfl) operation

/-- The client declares the constants of all paths and three fixed names. -/
theorem namesDeclared_client :
    client.namesDeclared model =
      model.operations.map Operation.constantName ++ ["Client", "NewClient", "Error"] := by
  have constants :
      namesIn Part.declared? (constantBlock model) =
        model.operations.map Operation.constantName := by
    unfold constantBlock
    split
    · rename_i empty
      simp [List.isEmpty_iff.mp empty]
    · simp [constantLine, Part.declared?, List.filterMap_cons,
      List.map_eq_flatMap]
  have type : namesIn Part.declared? clientType = ["Client", "NewClient"] := rfl
  have error : namesIn Part.declared? clientError = ["Error"] := rfl
  have call : namesIn Part.declared? clientCall = [] := rfl
  simp [namesDeclared, lines, clientLines, constants, type, error, call, clientMethod,
    clientMethodLine, Part.declared?, List.filterMap_cons]

theorem namesDeclared_server :
    server.namesDeclared model = ["ErrNotImplemented", "Service", "NewHandler", "handle"] := by
  have handle : namesIn Part.declared? serverHandle = ["handle"] := rfl
  have noNames : model.operations.flatMap (fun _ => ([] : List String)) = [] := by
    simp [List.flatMap_eq_nil_iff]
  simp [namesDeclared, lines, serverLines, handle, serviceMethodLine, routeLine, Part.declared?,
    List.filterMap_cons, noNames]

/-- The pagination file declares fetchers, and each iterator with its constructor. -/
theorem namesDeclared_pagination :
    pagination.namesDeclared model =
      model.fetchers.map PageFetcher.name ++
        model.lists.flatMap fun list => [list.iteratorName, "New" ++ list.iteratorName] := by
  simp [namesDeclared, lines, paginationLines, fetcherType, iterator, iteratorType,
    iteratorConstructor, iteratorNext, iteratorResults, Part.declared?, List.filterMap_cons,
      List.map_eq_flatMap]

theorem namesDeclared_service :
    service.namesDeclared model = ["service", "NewService"] := by
  have imports : namesIn Part.declared? (serviceImport model) = [] := by
    unfold serviceImport
    split <;> rfl
  simp [namesDeclared, lines, serviceLines, imports, implementation, implementationLine,
    Part.declared?, List.filterMap_cons]

/-- The tests are declared by one name for the service and one for each operation. -/
theorem namesDeclared_serviceTest :
    serviceTest.namesDeclared model =
      "TestNewService" ::
        model.operations.map fun operation => "Test" ++ operation.methodName := by
  have imports : namesIn Part.declared? (testImport model) = [] := by
    unfold testImport
    split <;> rfl
  simp [namesDeclared, lines, serviceTestLines, imports, operationTest, Part.declared?,
    List.filterMap_cons, List.map_eq_flatMap]

/-- The files of the output package that take part in a run. -/
theorem selected_inPackage
    (model : Model) :
    (selected model).filter (·.isInPackage model) =
      [client, server] ++ (if model.lists.isEmpty then [] else [pagination]) ++
        if model.full then [service, serviceTest] else [] := by
  have inPackage :
      all.filter (·.isInPackage model) = [client, server, pagination, service, serviceTest] := by
    simp [all, isInPackage, lines, clientLines, serverLines, paginationLines, protoLines,
      daemonLines, serviceLines, serviceTestLines, makefileLines, bufLines, bufGenLines, fixed]
  rw [selected, List.filter_comm, inPackage]
  cases listed : model.lists <;> cases full : model.full <;>
    simp [List.filter_cons, isSelected, condition, full, listed]

end Artifact

namespace Model

/-- The names that a run declares in its output package. -/
def namesDeclared (model : Model) : List String :=
  ((Artifact.selected model).filter (·.isInPackage model)).flatMap (·.namesDeclared model)

/-- The names that are the same for every document. -/
def fixedNames (model : Model) : List String :=
  ["Client", "NewClient", "Error", "ErrNotImplemented", "Service", "NewHandler", "handle"] ++
    if model.full then ["service", "NewService", "TestNewService"] else []

/-- The names of the tests of operations. -/
def testNames (model : Model) : List String :=
  if model.full then model.operations.map fun operation => "Test" ++ operation.methodName else []

/-- The declared names, family by family. -/
def nameFamilies (model : Model) : List (List String) := [
  model.fixedNames,
  model.operations.map Operation.constantName,
  model.fetchers.map PageFetcher.name,
  model.lists.map ListOperation.iteratorName,
  model.lists.map (fun list => "New" ++ list.iteratorName),
  model.testNames]

/-- The names of a model are made of its methods and item types. -/
structure NamesDerived (model : Model) : Prop where
  methods : (model.operations.map Operation.methodName).Nodup
  constants : ∀ operation ∈ model.operations,
    operation.constantName = "RPC" ++ operation.methodName
  listMethods : (model.lists.map fun list => list.methodName).Nodup
  iterators : ∀ list ∈ model.lists, list.iteratorName = list.methodName ++ "Iter"
  fetcherNames : (model.fetchers.map PageFetcher.name).Nodup
  fetchers : ∀ fetcher ∈ model.fetchers, ∃ stem, fetcher.name = stem ++ "PageFetcher"
  listed : model.lists = [] → model.fetchers = []

/-- The pairs of names that fixed texts do not keep apart are different. -/
structure NamesApart (model : Model) : Prop where
  constantFetcher : ∀ operation ∈ model.operations, ∀ fetcher ∈ model.fetchers,
    operation.constantName ≠ fetcher.name
  constantIterator : ∀ operation ∈ model.operations, ∀ list ∈ model.lists,
    operation.constantName ≠ list.iteratorName
  iteratorConstructor : ∀ first ∈ model.lists, ∀ second ∈ model.lists,
    first.methodName ≠ "New" ++ second.methodName
  testService : model.full = true → ∀ operation ∈ model.operations,
    operation.methodName ≠ "NewService"
  testFetcher : model.full = true → ∀ operation ∈ model.operations,
    ∀ fetcher ∈ model.fetchers, "Test" ++ operation.methodName ≠ fetcher.name
  testIterator : model.full = true → ∀ operation ∈ model.operations, ∀ list ∈ model.lists,
    "Test" ++ operation.methodName ≠ list.iteratorName

instance (model : Model) : Decidable model.NamesApart :=
  decidable_of_iff
    ((∀ operation ∈ model.operations, ∀ fetcher ∈ model.fetchers,
        operation.constantName ≠ fetcher.name) ∧
      (∀ operation ∈ model.operations, ∀ list ∈ model.lists,
        operation.constantName ≠ list.iteratorName) ∧
      (∀ first ∈ model.lists, ∀ second ∈ model.lists,
        first.methodName ≠ "New" ++ second.methodName) ∧
      (model.full = true → ∀ operation ∈ model.operations,
        operation.methodName ≠ "NewService") ∧
      (model.full = true → ∀ operation ∈ model.operations, ∀ fetcher ∈ model.fetchers,
        "Test" ++ operation.methodName ≠ fetcher.name) ∧
      (model.full = true → ∀ operation ∈ model.operations, ∀ list ∈ model.lists,
        "Test" ++ operation.methodName ≠ list.iteratorName))
    ⟨fun ⟨constantFetcher, constantIterator, iteratorConstructor, testService, testFetcher,
        testIterator⟩ =>
      ⟨constantFetcher, constantIterator, iteratorConstructor, testService, testFetcher,
        testIterator⟩,
      fun apart =>
      ⟨apart.constantFetcher, apart.constantIterator, apart.iteratorConstructor,
        apart.testService, apart.testFetcher, apart.testIterator⟩⟩

/-- The files of the output package declare exactly the names of the families. -/
theorem NamesDerived.namesDeclared_perm
    {model : Model}
    (derived : model.NamesDerived) :
    model.namesDeclared.Perm model.nameFamilies.flatten := by
  have iterators :
      (model.lists.map ListOperation.iteratorName ++
        model.lists.map (fun list => "New" ++ list.iteratorName)).Perm
        (model.lists.flatMap fun list => [list.iteratorName, "New" ++ list.iteratorName]) := by
    simpa [List.map_eq_flatMap] using
      List.map_append_flatMap_perm model.lists ListOperation.iteratorName
        (fun list => ["New" ++ list.iteratorName])
  have paged :
      ((if model.lists.isEmpty then [] else [Artifact.pagination]).flatMap
        (·.namesDeclared model)).Perm
        (model.fetchers.map PageFetcher.name ++
          (model.lists.map ListOperation.iteratorName ++
            model.lists.map (fun list => "New" ++ list.iteratorName))) := by
    split
    · rename_i empty
      have noLists := List.isEmpty_iff.mp empty
      simp [noLists, derived.listed noLists]
    · simpa [Artifact.namesDeclared_pagination] using iterators.symm.append_left _
  rw [namesDeclared, Artifact.selected_inPackage, List.flatMap_append, List.flatMap_append]
  rw [List.perm_iff_count]
  intro name
  have paginated := paged.count_eq name
  cases full : model.full <;>
    simp only [nameFamilies, fixedNames, testNames, full, Bool.false_eq_true, ↓reduceIte,
      List.flatten_cons, List.flatten_nil, List.flatMap_cons, List.flatMap_nil,
      Artifact.namesDeclared_client, Artifact.namesDeclared_server,
      Artifact.namesDeclared_service, Artifact.namesDeclared_serviceTest, List.count_append,
      List.count_cons, List.count_nil, paginated] <;>
    omega

/-- How fixed names start and end. -/
theorem fixedNames_affixes
    {model : Model}
    {name : String}
    (member : name ∈ model.fixedNames) :
    (∀ rest, name ≠ "RPC" ++ rest) ∧
      (∀ start, name ≠ start ++ "PageFetcher") ∧
      (∀ start, name ≠ start ++ "Iter") ∧
      ∀ rest, name = "Test" ++ rest → rest = "NewService" := by
  have affixes :
      ¬"RPC".toList <+: name.toList ∧
        ¬"PageFetcher".toList <:+ name.toList ∧
        ¬"Iter".toList <:+ name.toList ∧
        ("Test".toList <+: name.toList → name = "Test" ++ "NewService") := by
    revert name
    unfold fixedNames
    cases model.full <;> decide
  obtain ⟨noConstant, noFetcher, noIterator, onlyTest⟩ := affixes
  refine ⟨?_, ?_, ?_, ?_⟩
  · rintro rest rfl
    exact noConstant (by simp)
  · rintro start rfl
    exact noFetcher (by simp)
  · rintro start rfl
    exact noIterator (by simp)
  · rintro rest rfl
    have same := onlyTest (by simp)
    simpa [← String.toList_inj] using same

/-- Each family alone has no name twice. -/
theorem NamesDerived.families_nodup
    {model : Model}
    (derived : model.NamesDerived)
    {family : List String}
    (member : family ∈ model.nameFamilies) :
    family.Nodup := by
  have iteratorTells {first second : ListOperation}
      (firstMember : first ∈ model.lists)
      (secondMember : second ∈ model.lists)
      (same : first.iteratorName = second.iteratorName) :
      first.methodName = second.methodName := by
    rwa [derived.iterators first firstMember, derived.iterators second secondMember,
      String.append_left_inj] at same
  simp only [nameFamilies, List.mem_cons, List.not_mem_nil, or_false] at member
  rcases member with rfl | rfl | rfl | rfl | rfl | rfl
  · unfold fixedNames
    cases model.full <;> decide
  · apply map_nodup_of_key derived.methods
    intro first firstMember second secondMember same
    rwa [derived.constants first firstMember, derived.constants second secondMember,
      String.append_right_inj] at same
  · exact derived.fetcherNames
  · exact map_nodup_of_key derived.listMethods fun _ firstMember _ secondMember =>
      iteratorTells firstMember secondMember
  · apply map_nodup_of_key derived.listMethods
    intro first firstMember second secondMember same
    exact iteratorTells firstMember secondMember ((String.append_right_inj _).mp same)
  · unfold testNames
    split
    · apply map_nodup_of_key derived.methods
      intro first _ second _ same
      exact (String.append_right_inj _).mp same
    · exact List.nodup_nil

theorem mem_testNames_iff
    {model : Model}
    {name : String} :
    name ∈ model.testNames ↔
      model.full = true ∧
        ∃ operation ∈ model.operations, "Test" ++ operation.methodName = name := by
  unfold testNames
  split
  · rename_i full
    simp [full]
  · rename_i other
    simp [other]

/-- A constructor ends like an iterator. -/
theorem NamesDerived.constructor_eq
    {model : Model}
    (derived : model.NamesDerived)
    {list : ListOperation}
    (member : list ∈ model.lists) :
    "New" ++ list.iteratorName = "New" ++ list.methodName ++ "Iter" := by
  rw [derived.iterators list member, String.append_assoc]

/-- Only a test can have the name that is fixed for another declaration. -/
theorem NamesDerived.ne_of_mem_fixedNames
    {model : Model}
    (derived : model.NamesDerived)
    {name : String}
    (fixed : name ∈ model.fixedNames) :
    (∀ operation ∈ model.operations, name ≠ operation.constantName) ∧
      (∀ fetcher ∈ model.fetchers, name ≠ fetcher.name) ∧
      (∀ list ∈ model.lists, name ≠ list.iteratorName) ∧
      ∀ list ∈ model.lists, name ≠ "New" ++ list.iteratorName := by
  obtain ⟨noConstant, noFetcher, noIterator, _⟩ := fixedNames_affixes fixed
  refine ⟨?_, ?_, ?_, ?_⟩
  · intro operation member
    rw [derived.constants operation member]
    exact noConstant _
  · intro fetcher member
    obtain ⟨stem, shape⟩ := derived.fetchers fetcher member
    rw [shape]
    exact noFetcher stem
  · intro list member
    rw [derived.iterators list member]
    exact noIterator _
  · intro list member
    rw [derived.constructor_eq member]
    exact noIterator _

/-- The families are apart exactly when the pairs are that fixed texts do not keep apart. -/
theorem NamesDerived.families_apart_iff
    {model : Model}
    (derived : model.NamesDerived) :
    (model.nameFamilies.Pairwise fun family others =>
      ∀ name ∈ family, ∀ other ∈ others, name ≠ other) ↔ model.NamesApart := by
  simp only [nameFamilies, List.pairwise_cons, List.forall_mem_cons, List.forall_mem_map]
  constructor
  · rintro ⟨⟨_, _, _, _, fixedTests, _⟩, ⟨constantFetchers, constantIterators, _⟩,
      ⟨_, _, fetcherTests, _⟩, ⟨iteratorConstructors, iteratorTests, _⟩, _⟩
    refine ⟨constantFetchers, constantIterators, ?_, ?_, ?_, ?_⟩
    · intro first firstMember second secondMember same
      apply iteratorConstructors first firstMember second secondMember
      rw [derived.iterators first firstMember, derived.constructor_eq secondMember, same]
    · intro full operation member same
      refine fixedTests "TestNewService" (by simp [fixedNames, full]) _
        (mem_testNames_iff.mpr ⟨full, operation, member, rfl⟩) ?_
      rw [same]
      rfl
    · intro full operation member fetcher fetcherMember same
      exact fetcherTests fetcher fetcherMember _
        (mem_testNames_iff.mpr ⟨full, operation, member, rfl⟩) same.symm
    · intro full operation member list listMember same
      exact iteratorTests list listMember _
        (mem_testNames_iff.mpr ⟨full, operation, member, rfl⟩) same.symm
  · intro apart
    refine ⟨⟨?_, ?_, ?_, ?_, ?_, by simp⟩, ⟨apart.constantFetcher, apart.constantIterator, ?_,
      ?_, by simp⟩, ⟨?_, ?_, ?_, by simp⟩, ⟨?_, ?_, by simp⟩, ⟨?_, by simp⟩, by simp⟩
    -- Fixed names and the other families.
    · exact fun name fixed => (derived.ne_of_mem_fixedNames fixed).1
    · exact fun name fixed => (derived.ne_of_mem_fixedNames fixed).2.1
    · exact fun name fixed => (derived.ne_of_mem_fixedNames fixed).2.2.1
    · exact fun name fixed => (derived.ne_of_mem_fixedNames fixed).2.2.2
    · intro name fixed test isTest same
      obtain ⟨full, operation, member, rfl⟩ := mem_testNames_iff.mp isTest
      exact apart.testService full operation member
        ((fixedNames_affixes fixed).2.2.2 _ same)
    -- Constants with constructors and with tests.
    · intro operation member list _
      rw [derived.constants operation member]
      exact append_ne_append_of_starts (by decide) (by decide) _ _
    · intro operation member test isTest
      obtain ⟨_, other, _, rfl⟩ := mem_testNames_iff.mp isTest
      rw [derived.constants operation member]
      exact append_ne_append_of_starts (by decide) (by decide) _ _
    -- Fetchers with iterators, constructors and tests.
    · intro fetcher member list listMember
      obtain ⟨stem, shape⟩ := derived.fetchers fetcher member
      rw [shape, derived.iterators list listMember]
      exact append_ne_append_of_ends (by decide) (by decide) _ _
    · intro fetcher member list listMember
      obtain ⟨stem, shape⟩ := derived.fetchers fetcher member
      rw [shape, derived.constructor_eq listMember]
      exact append_ne_append_of_ends (by decide) (by decide) _ _
    · intro fetcher member test isTest same
      obtain ⟨full, operation, operationMember, rfl⟩ := mem_testNames_iff.mp isTest
      exact apart.testFetcher full operation operationMember fetcher member same.symm
    -- Iterators with constructors and tests.
    · intro first firstMember second secondMember same
      rw [derived.iterators first firstMember, derived.constructor_eq secondMember,
        String.append_left_inj] at same
      exact apart.iteratorConstructor first firstMember second secondMember same
    · intro list listMember test isTest same
      obtain ⟨full, operation, member, rfl⟩ := mem_testNames_iff.mp isTest
      exact apart.testIterator full operation member list listMember same.symm
    -- Constructors with tests.
    · intro list _ test isTest
      obtain ⟨_, operation, _, rfl⟩ := mem_testNames_iff.mp isTest
      exact append_ne_append_of_starts (by decide) (by decide) _ _

/-- What is built from the operations of a document has derived names. -/
theorem build_namesDerived
    {document : Document}
    {operations : List Operation}
    (extracted : document.operations = .ok operations)
    (configuration : Configuration)
    (time : Instant) :
    (build configuration operations (Listing.classify document operations) time).NamesDerived := by
  have kept := (Extraction.operations_eq_ok_iff.mp extracted).2
  refine ⟨kept.methodNames_nodup, ?_, ?_, ?_, ?_, ?_, ?_⟩
  · intro operation member
    have named := kept.constantName_eq
    rw [List.map_map, List.map_inj_left] at named
    exact named operation member
  · exact Listing.classify_methodNames_nodup kept.methodNames_nodup
  · intro list member
    obtain ⟨_, _, _, rfl⟩ := Listing.exists_of_mem_classify member
    rfl
  · exact map_distinctBy_nodup PageFetcher.name _
  · intro fetcher member
    obtain ⟨list, listMember, rfl⟩ := List.mem_map.mp (mem_of_mem_distinctBy member)
    exact ⟨_, Listing.fetcherName_of_mem_classify listMember⟩
  · intro noLists
    have empty : Listing.classify document operations = [] := noLists
    simp [build, empty, fetchersOf, distinctBy]

/--
The output package of an accepted document declares no name twice exactly when no two names of
six kinds of pairs happen to be the same.

Names of any other two kinds never are.  The kinds are listed in `NamesApart`.
-/
theorem namesDeclared_nodup_iff
    {document : Document}
    (accepted : document.violations = [])
    (configuration : Configuration)
    (time : Instant) :
    ∃ model,
      Plan.modelOf document configuration time = .ok model ∧
        model.full = configuration.full ∧
        (model.namesDeclared.Nodup ↔ model.NamesApart) := by
  obtain ⟨operations, extracted, _⟩ := Convention.operations_of_violations_eq_nil accepted
  have derived := build_namesDerived extracted configuration time
  refine ⟨build configuration operations (Listing.classify document operations) time, ?_, rfl,
    ?_⟩
  · rw [Plan.modelOf, extracted]
    rfl
  · rw [derived.namesDeclared_perm.nodup_iff, List.Nodup, List.pairwise_flatten]
    exact (and_iff_right fun _ member => derived.families_nodup member).trans
      derived.families_apart_iff

end Model

/-- A configuration for all files. -/
def fullConfiguration : Configuration :=
  { plainConfiguration with full := true }

/-- With all files, lists of users and of replies declare no name twice. -/
theorem repliesDocument_names_nodup :
    repliesDocument.violations = [] ∧
      ∃ model,
        Plan.modelOf repliesDocument fullConfiguration ⟨0, 0⟩ = .ok model ∧
          model.lists.length = 2 ∧
          model.full = true ∧
          model.namesDeclared.Nodup := by
  have accepted : repliesDocument.violations = [] := by
    decide +kernel
  obtain ⟨model, isModel, listed, apart⟩ :
      ∃ model,
        Plan.modelOf repliesDocument fullConfiguration ⟨0, 0⟩ = .ok model ∧
          model.lists.length = 2 ∧
          model.NamesApart :=
    ⟨_, rfl, by decide +kernel, by decide +kernel⟩
  obtain ⟨other, isOther, full, nodupIff⟩ :=
    Model.namesDeclared_nodup_iff accepted fullConfiguration ⟨0, 0⟩
  rw [isModel] at isOther
  cases isOther
  exact ⟨accepted, model, isModel, listed, full, nodupIff.mpr apart⟩

/-- A document that lists users and new users. -/
def newUsersDocument : Document :=
  { repliesDocument with
    paths := Catalog.ofList [
      ("/v1/users.list",
        .inline { post := some (pageCall "#/components/schemas/Users") }),
      ("/v1/new-users.list",
        .inline { post := some (pageCall "#/components/schemas/Users") })] }

/--
In an accepted document, the constructor of the iterator over users has the name of the
iterator over new users.
-/
theorem newUsersDocument_declares_twice :
    newUsersDocument.violations = [] ∧
      ∃ model,
        Plan.modelOf newUsersDocument plainConfiguration ⟨0, 0⟩ = .ok model ∧
          model.namesDeclared.count "NewUsersListIter" = 2 ∧
          ¬model.namesDeclared.Nodup := by
  obtain ⟨model, isModel, twice⟩ :
      ∃ model,
        Plan.modelOf newUsersDocument plainConfiguration ⟨0, 0⟩ = .ok model ∧
          model.namesDeclared.count "NewUsersListIter" = 2 :=
    ⟨_, rfl, by decide +kernel⟩
  refine ⟨by decide +kernel, model, isModel, twice, fun noDuplicates => ?_⟩
  have once := List.nodup_iff_count.mp noDuplicates "NewUsersListIter"
  omega

end RpcStubs
