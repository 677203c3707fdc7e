import RpcStubs.Convention
import RpcStubs.Listing
import RpcStubs.Proofs.Model.Distinct
import RpcStubs.Run.Plan
namespace RpcStubs

/-!
# Page fetchers and the operations that use them

A page fetcher is named after an item type without its ending `Response`.  Every list operation
finds exactly one fetcher of its name.  That fetcher returns the items of the operation as long
as no two item types differ by the ending alone; where they do, both operations share the
fetcher of the one that comes first.
-/

namespace Listing

/-- Two texts without an ending agree only when the texts do, or when one has it in addition. -/
theorem withoutEnding_eq_iff
    {ending first second : List Char} :
    withoutEnding ending first = withoutEnding ending second ↔
      first = second ∨
        (first = second ++ ending ∧ ¬ending <:+ second) ∨
        (second = first ++ ending ∧ ¬ending <:+ first) := by
  have shortened (text : List Char) :
      withoutEnding ending (text ++ ending) = text := by
    simp [withoutEnding]
  have untouched {text : List Char} (other : ¬ending <:+ text) :
      withoutEnding ending text = text := by
    simp [withoutEnding, other]
  by_cases firstEnds : ending <:+ first
  · obtain ⟨firstStem, rfl⟩ := firstEnds
    by_cases secondEnds : ending <:+ second
    · obtain ⟨secondStem, rfl⟩ := secondEnds
      simp [shortened]
    · rw [shortened, untouched secondEnds]
      constructor
      · rintro rfl
        exact .inr (.inl ⟨rfl, secondEnds⟩)
      · rintro (rfl | ⟨same, _⟩ | ⟨_, free⟩)
        · exact (secondEnds ⟨firstStem, rfl⟩).elim
        · exact List.append_cancel_right same
        · exact (free ⟨firstStem, rfl⟩).elim
  · by_cases secondEnds : ending <:+ second
    · obtain ⟨secondStem, rfl⟩ := secondEnds
      rw [shortened, untouched firstEnds]
      constructor
      · rintro rfl
        exact .inr (.inr ⟨rfl, firstEnds⟩)
      · rintro (rfl | ⟨_, free⟩ | ⟨same, _⟩)
        · exact (firstEnds ⟨secondStem, rfl⟩).elim
        · exact (free ⟨secondStem, rfl⟩).elim
        · exact (List.append_cancel_right same).symm
    · rw [untouched firstEnds, untouched secondEnds]
      constructor
      · exact .inl
      · rintro (same | ⟨rfl, _⟩ | ⟨rfl, _⟩)
        · exact same
        · exact (firstEnds ⟨second, rfl⟩).elim
        · exact (secondEnds ⟨first, rfl⟩).elim

/-- An item type that is another one with the ending `Response` in addition. -/
def AddsEnding (first second : String) : Prop :=
  first = second ++ "Response" ∧ ¬"Response".toList <:+ second.toList

/-- Item types share a fetcher when they are equal or differ by the ending alone. -/
theorem fetcherName_eq_iff
    {first second : String} :
    fetcherName first = fetcherName second ↔
      first = second ∨ AddsEnding first second ∨ AddsEnding second first := by
  have stems :
      fetcherName first = fetcherName second ↔
        withoutEnding "Response".toList first.toList =
          withoutEnding "Response".toList second.toList := by
    simp [fetcherName, ← String.toList_inj]
  rw [stems, withoutEnding_eq_iff]
  simp [AddsEnding, ← String.toList_inj]

/-- A list operation is made from an operation and a page. -/
theorem exists_of_classify?
    {document : Document}
    {operation : Operation}
    {list : ListOperation}
    (classified : classify? document operation = some list) :
    ∃ page, list = listOperation operation page := by
  unfold classify? at classified
  cases judged : judge document operation with
  | none report =>
      simp [judged] at classified
  | list found =>
      simp only [judged, Option.some.injEq] at classified
      subst classified
      unfold judge at judged
      repeat' split at judged
      all_goals simp only [Verdict.list.injEq, reduceCtorEq] at judged
      exact ⟨_, judged.symm⟩

/-- A list operation among some operations is made from one of them. -/
theorem exists_of_mem_classify
    {document : Document}
    {operations : List Operation}
    {list : ListOperation}
    (member : list ∈ classify document operations) :
    ∃ operation ∈ operations, ∃ page, list = listOperation operation page := by
  obtain ⟨operation, operationMember, classified⟩ := List.mem_filterMap.mp member
  exact ⟨operation, operationMember, exists_of_classify? classified⟩

/-- The fetcher of a list operation is named after its item type. -/
theorem fetcherName_of_mem_classify
    {document : Document}
    {operations : List Operation}
    {list : ListOperation}
    (member : list ∈ classify document operations) :
    list.fetcherName = fetcherName list.itemType := by
  obtain ⟨_, _, _, rfl⟩ := exists_of_mem_classify member
  rfl

/-- A list operation is one of the operations, with its page in addition. -/
theorem toOperation_mem_of_mem_classify
    {document : Document}
    {operations : List Operation}
    {list : ListOperation}
    (member : list ∈ classify document operations) :
    list.toOperation ∈ operations := by
  obtain ⟨_, operationMember, _, rfl⟩ := exists_of_mem_classify member
  exact operationMember

/-- Where operations have different methods, so have the list operations among them. -/
theorem classify_methodNames_nodup
    {document : Document}
    {operations : List Operation}
    (distinct : (operations.map Operation.methodName).Nodup) :
    ((classify document operations).map fun list => list.methodName).Nodup := by
  rw [List.Nodup, List.pairwise_map] at distinct ⊢
  rw [classify, List.pairwise_filterMap]
  refine distinct.imp fun {first second} differ list classified other otherClassified => ?_
  obtain ⟨_, rfl⟩ := exists_of_classify? classified
  obtain ⟨_, rfl⟩ := exists_of_classify? otherClassified
  exact differ

end Listing

namespace Model

/-- Every list operation has one fetcher of its name, and it returns items of its type. -/
def FetchersAgree (model : Model) : Prop :=
  ∀ list ∈ model.lists,
    ∃ fetcher,
      (model.fetchers.filter fun other => other.name = list.fetcherName) = [fetcher] ∧
        fetcher.itemType = list.itemType

/-- Exactly one fetcher has the name of a list operation: that of the first to have it. -/
theorem filter_fetchersOf
    {lists : List ListOperation}
    {list : ListOperation}
    (member : list ∈ lists) :
    ∃ first ∈ lists,
      first.fetcherName = list.fetcherName ∧
        ((fetchersOf lists).filter fun other => other.name = list.fetcherName) =
          [⟨first.fetcherName, first.itemType⟩] := by
  have own :
      (⟨list.fetcherName, list.itemType⟩ : PageFetcher) ∈
        lists.map fun list => ⟨list.fetcherName, list.itemType⟩ :=
    List.mem_map.mpr ⟨list, member, rfl⟩
  obtain ⟨fetcher, kept, sameName⟩ := exists_mem_distinctBy PageFetcher.name own
  obtain ⟨first, firstMember, rfl⟩ := List.mem_map.mp (mem_of_mem_distinctBy kept)
  have shared : first.fetcherName = list.fetcherName := sameName
  refine ⟨first, firstMember, shared, ?_⟩
  rw [← shared]
  exact filter_eq_singleton (map_distinctBy_nodup PageFetcher.name _) kept

/--
Fetchers agree with the list operations of a document exactly when no item type adds the ending
`Response` to another one that lacks it.

In any case a list operation has exactly one fetcher of its name.
-/
theorem fetchersAgree_iff
    (document : Document)
    (operations : List Operation)
    (configuration : Configuration)
    (time : Instant) :
    let model :=
      build configuration operations (Listing.classify document operations) time
    (∀ list ∈ model.lists,
        ∃ fetcher,
          (model.fetchers.filter fun other => other.name = list.fetcherName) = [fetcher]) ∧
      (model.FetchersAgree ↔
        ∀ first ∈ model.lists, ∀ second ∈ model.lists,
          ¬Listing.AddsEnding first.itemType second.itemType) := by
  intro model
  have named {list : ListOperation} (member : list ∈ model.lists) :
      list.fetcherName = Listing.fetcherName list.itemType :=
    Listing.fetcherName_of_mem_classify member
  refine ⟨?_, ?_, ?_⟩
  · intro list member
    obtain ⟨first, _, _, single⟩ := filter_fetchersOf member
    exact ⟨_, single⟩
  · intro agree first firstMember second secondMember addsEnding
    have shared : first.fetcherName = second.fetcherName := by
      rw [named firstMember, named secondMember, Listing.fetcherName_eq_iff]
      exact .inr (.inl addsEnding)
    obtain ⟨fetcher, ofFirst, firstItems⟩ := agree first firstMember
    obtain ⟨other, ofSecond, secondItems⟩ := agree second secondMember
    rw [shared, ofSecond] at ofFirst
    cases ofFirst
    have sameItems := firstItems.symm.trans secondItems
    obtain ⟨longer, _⟩ := addsEnding
    rw [longer, ← String.toList_inj] at sameItems
    simp at sameItems
  · intro apart list member
    obtain ⟨first, firstMember, shared, single⟩ := filter_fetchersOf member
    refine ⟨_, single, ?_⟩
    rw [named firstMember, named member, Listing.fetcherName_eq_iff] at shared
    rcases shared with same | firstLonger | listLonger
    · exact same
    · exact (apart first firstMember list member firstLonger).elim
    · exact (apart list member first firstMember listLonger).elim

end Model

/-- A call that asks for a page and answers with a page of a schema. -/
def pageCall (page : String) : Call where
  requestBody := some (.inline
    { content := { entries := [("application/json",
        some (.reference "#/components/schemas/Query"))] } })
  responses := { entries := [(.code 200, .inline
    { content := { entries := [("application/json", some (.reference page))] } })] }

/-- A schema with one page of items of a type. -/
def pageSchema (itemType : String) : Ref Schema :=
  .inline (.object [("items", .inline (.array (some (.reference itemType))))] none)

/-- A document that lists users and replies, which are of types `User` and `UserResponse`. -/
def repliesDocument : Document where
  openapi := "3.0.3"
  title := "Users"
  version := "1.0.0"
  paths := Catalog.ofList [
    ("/v1/users.list",
      .inline { post := some (pageCall "#/components/schemas/Users") }),
    ("/v1/replies.list",
      .inline { post := some (pageCall "#/components/schemas/Replies") })]
  components := {
    schemas := Catalog.ofList [
      ("Query", .inline (.object [("offset", .inline (.value .integer))] none)),
      ("Users", pageSchema "#/components/schemas/User"),
      ("Replies", pageSchema "#/components/schemas/UserResponse"),
      ("User", .inline (.object [] none)),
      ("UserResponse", .inline (.object [] none))]
    requestBodies := .empty
    responses := .empty }

/-- A configuration in which nothing is chosen. -/
def plainConfiguration : Configuration where
  package := "api"
  output := "/work/acme"
  moduleRoot := "/work/acme"
  modulePath := "example.com/acme"
  outputRelative := ""
  protoPath := "proto/api/v1/api.proto"
  protoImport := "example.com/acme/proto/api/v1"
  packageImport := "example.com/acme"
  protoPackage := "pkg.api.v1"
  full := false

/-- The list operation for replies, whose items are of type `UserResponse`. -/
def repliesList : ListOperation where
  methodName := "RepliesList"
  path := "/v1/replies.list"
  constantName := "RPCRepliesList"
  summary := ""
  requestType := "Query"
  responseType := "Replies"
  iteratorName := "RepliesListIter"
  fetcherName := "UserPageFetcher"
  itemType := "UserResponse"
  responseField := "Items"

/-- In an accepted document, replies find the fetcher of users, which returns other items. -/
theorem repliesDocument_fetchers_disagree :
    repliesDocument.violations = [] ∧
      ∃ model,
        Plan.modelOf repliesDocument plainConfiguration ⟨0, 0⟩ = .ok model ∧
          ¬model.FetchersAgree := by
  refine ⟨by decide +kernel, _, rfl, ?_⟩
  intro agree
  obtain ⟨fetcher, single, items⟩ := agree repliesList (by decide +kernel)
  cases single.symm.trans
    (show _ = [(⟨"UserPageFetcher", "User"⟩ : PageFetcher)] by decide +kernel)
  simp [repliesList] at items

end RpcStubs
