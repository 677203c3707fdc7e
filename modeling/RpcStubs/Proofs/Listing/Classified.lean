import Mathlib.Data.List.Forall2
import RpcStubs.Listing
import RpcStubs.Proofs.Document.Aliases
namespace RpcStubs

/-!
# Which operations are list operations

What makes an operation a list operation, said on the document alone: its method, the property
for the offset in its request, and the properties of its response that hold pages of a schema.
The classification finds exactly these operations, in their order, and each with its first page.
-/

/-- Texts that are equal up to the case of ASCII letters. -/
def Text.EqualIgnoringCase (first second : List Char) : Prop :=
  first.map Char.toLower = second.map Char.toLower

/-- The method of a route has the word `list` in it, in letters of any case. -/
def Route.SpeaksOfList (route : Route) : Prop :=
  ∃ word, word <:+: route.method.toList ∧ Text.EqualIgnoringCase word "list".toList

theorem Route.mentionsList_iff
    {route : Route} :
    route.mentionsList = true ↔ route.SpeaksOfList := by
  have lower : "list".toList.map Char.toLower = "list".toList := by
    decide
  rw [mentionsList, Text.occursIn_iff]
  constructor
  · rintro ⟨before, after, shape⟩
    obtain ⟨front, _, whole, isFront, _⟩ := List.map_eq_append_iff.mp shape.symm
    obtain ⟨_, word, rfl, _, isWord⟩ := List.map_eq_append_iff.mp isFront
    exact ⟨word, ⟨_, _, whole.symm⟩, isWord.trans lower.symm⟩
  · rintro ⟨word, ⟨before, after, whole⟩, isWord⟩
    refine ⟨before.map Char.toLower, after.map Char.toLower, ?_⟩
    rw [← whole, ← isWord.trans lower, List.map_append, List.map_append]

namespace Schema

/-- A schema declares properties in this order: an object, or one of no other kind. -/
inductive Declares : Schema → List (String × Ref Schema) → Prop
  | object (properties : List (String × Ref Schema)) (additional : Option (Ref Schema)) :
      Declares (.object properties additional) properties
  | any (type : Option String) (properties : List (String × Ref Schema))
      (items : Option (Ref Schema)) (others : List (Ref Schema)) :
      Declares (.any type properties items others) properties

/-- A schema is an array of items: of that kind, or of no other kind but of that type. -/
inductive HasItems : Schema → Ref Schema → Prop
  | array (items : Ref Schema) :
      HasItems (.array (some items)) items
  | any (properties : List (String × Ref Schema)) (items : Ref Schema)
      (others : List (Ref Schema)) :
      HasItems (.any (some "array") properties (some items) others) items

variable {schema : Schema}

/-- The properties of a schema that has any are those that it declares. -/
theorem properties_eq_iff
    {properties : List (String × Ref Schema)}
    (nonempty : properties ≠ []) :
    schema.properties = properties ↔ schema.Declares properties := by
  constructor
  · rintro rfl
    cases schema with
    | object properties additional =>
        exact .object properties additional
    | any type properties items others =>
        exact .any type properties items others
    | value | array | combination | negation =>
        exact (nonempty rfl).elim
  · rintro ⟨⟩ <;> rfl

theorem mem_properties_iff
    {property : String × Ref Schema} :
    property ∈ schema.properties ↔
      ∃ properties, schema.Declares properties ∧ property ∈ properties := by
  constructor
  · intro member
    exact ⟨_, (properties_eq_iff (List.ne_nil_of_mem member)).mp rfl, member⟩
  · rintro ⟨properties, declares, member⟩
    rwa [(properties_eq_iff (List.ne_nil_of_mem member)).mpr declares]

theorem items?_eq_some_iff
    {items : Ref Schema} :
    schema.items? = some items ↔ schema.HasItems items := by
  constructor
  · intro found
    unfold items? at found
    split at found
    · cases found
      exact .array items
    · cases found
      exact .any _ items _
    · cases found
  · rintro ⟨⟩ <;> rfl

end Schema

namespace Listing

/-- A property holds a page: it stands for an array whose items refer to a schema. -/
def HoldsPage (document : Document) (property : String × Ref Schema) (page : Page) : Prop :=
  page.field = property.1 ∧
    ∃ schema target,
      Schema.Stands document property.2 schema ∧
        schema.HasItems (.reference target) ∧
        Ref.EndsIn target page.itemType

/-- A response shows a page: its first property that holds one holds this one. -/
def ShowsPage (document : Document) (response : Schema) (page : Page) : Prop :=
  ∃ earlier property later,
    response.Declares (earlier ++ property :: later) ∧
      HoldsPage document property page ∧
      ∀ other ∈ earlier, ∀ passed, ¬HoldsPage document other passed

/-- An operation lists items in pages. -/
structure Paginates (document : Document) (operation : Operation) : Prop where
  speaksOfList : ∃ route, Route.parse? operation.path = some route ∧ route.SpeaksOfList
  takesOffset : ∃ request properties,
    document.Names operation.requestType request ∧
      request.Declares properties ∧
      ∃ property ∈ properties,
        Text.EqualIgnoringCase property.1.toList "offset".toList
  givesPage : ∃ response properties,
    document.Names operation.responseType response ∧
      response.Declares properties ∧
      ∃ property ∈ properties, ∃ page, HoldsPage document property page

/--
A list operation tells an operation and its page.

The operation is kept as it is, and the item type is that of the page.  The field is written with
a capital, the iterator is named after the method, and the fetcher after the item type without its
ending `Response`.
-/
structure Tells (list : ListOperation) (operation : Operation) (page : Page) : Prop where
  keeps : list.toOperation = operation
  itemType : list.itemType = page.itemType
  responseField : list.responseField.toList = Text.capitalized page.field.toList
  iteratorName : list.iteratorName = operation.methodName ++ "Iter"
  fetcherName : ∃ stem,
    list.fetcherName = stem ++ "PageFetcher" ∧
      (page.itemType = stem ++ "Response" ∨
        page.itemType = stem ∧ ¬"Response".toList <:+ stem.toList)

variable {document : Document}

theorem hasOffset_iff
    {request : Schema} :
    hasOffset request = true ↔
      ∃ properties,
        request.Declares properties ∧
          ∃ property ∈ properties,
            Text.EqualIgnoringCase property.1.toList "offset".toList := by
  have lower : "offset".toList.map Char.toLower = "offset".toList := by
    decide
  rw [hasOffset, List.any_eq_true]
  simp only [Schema.mem_properties_iff]
  constructor
  · rintro ⟨property, ⟨properties, declares, member⟩, isOffset⟩
    exact ⟨properties, declares, property, member, (of_decide_eq_true isOffset).trans lower.symm⟩
  · rintro ⟨properties, declares, property, member, isOffset⟩
    exact ⟨property, ⟨properties, declares, member⟩, decide_eq_true (isOffset.trans lower)⟩

theorem pageOf?_eq_some_iff
    {property : String × Ref Schema}
    {page : Page} :
    pageOf? document property = some page ↔ HoldsPage document property page := by
  constructor
  · intro found
    unfold pageOf? at found
    split at found
    · cases found
    · rename_i schema stands
      split at found
      · rename_i target items
        cases found
        exact ⟨rfl, schema, target, Document.resolve?_eq_some_iff.mp stands,
          Schema.items?_eq_some_iff.mp items, Ref.nameOf_eq_iff.mp rfl⟩
      · cases found
  · rintro ⟨isField, schema, target, stands, items, ends⟩
    unfold pageOf?
    simp only [Document.resolve?_eq_some_iff.mpr stands, Schema.items?_eq_some_iff.mpr items,
      Ref.nameOf_eq_iff.mpr ends, ← isField]

/-- The search over the properties ends at the first page, whatever it passes before. -/
theorem firstPage?_eq_some_iff
    {response : Schema}
    {page : Page} :
    firstPage? document response = some page ↔ ShowsPage document response page := by
  have passes (other : String × Ref Schema) :
      pageOf? document other = none ↔ ∀ passed, ¬HoldsPage document other passed := by
    simp only [Option.eq_none_iff_forall_ne_some, ne_eq, pageOf?_eq_some_iff]
  rw [firstPage?, List.findSome?_eq_some_iff]
  constructor
  · rintro ⟨earlier, property, later, shape, holds, none⟩
    exact ⟨earlier, property, later, (Schema.properties_eq_iff (by simp)).mp shape,
      pageOf?_eq_some_iff.mp holds, fun other member => (passes other).mp (none other member)⟩
  · rintro ⟨earlier, property, later, declares, holds, none⟩
    exact ⟨earlier, property, later, (Schema.properties_eq_iff (by simp)).mpr declares,
      pageOf?_eq_some_iff.mpr holds, fun other member => (passes other).mpr (none other member)⟩

/-- A response shows a page when one of its properties holds one. -/
theorem exists_showsPage_iff
    {response : Schema} :
    (∃ page, ShowsPage document response page) ↔
      ∃ properties,
        response.Declares properties ∧
          ∃ property ∈ properties, ∃ page, HoldsPage document property page := by
  simp only [← firstPage?_eq_some_iff, ← pageOf?_eq_some_iff, ← Option.isSome_iff_exists,
    firstPage?, List.findSome?_isSome_iff, Schema.mem_properties_iff]
  constructor
  · rintro ⟨property, ⟨properties, declares, member⟩, holds⟩
    exact ⟨properties, declares, property, member, holds⟩
  · rintro ⟨properties, declares, property, member, holds⟩
    exact ⟨property, ⟨properties, declares, member⟩, holds⟩

/-- An operation is classified with a page exactly when each of the three criteria is met. -/
theorem classify?_eq_some_iff
    {operation : Operation}
    {list : ListOperation} :
    classify? document operation = some list ↔
      (∃ route, Route.parse? operation.path = some route ∧ route.mentionsList = true) ∧
        (∃ request,
          document.schema? operation.requestType = some request ∧ hasOffset request = true) ∧
        ∃ response page,
          document.schema? operation.responseType = some response ∧
            firstPage? document response = some page ∧
            list = listOperation operation page := by
  unfold classify? judge
  cases Route.parse? operation.path with
  | none =>
      simp
  | some route =>
      cases mentions : route.mentionsList with
      | false =>
          simp [mentions]
      | true =>
          cases document.schema? operation.requestType with
          | none =>
              simp [mentions]
          | some request =>
              cases offset : hasOffset request with
              | false =>
                  simp [mentions, offset]
              | true =>
                  cases document.schema? operation.responseType with
                  | none =>
                      simp [mentions, offset]
                  | some response =>
                      cases page : firstPage? document response with
                      | none =>
                          simp [mentions, offset, page]
                      | some first =>
                          simpa [mentions, offset, page] using eq_comm

/-- An operation is classified exactly when it lists items in pages. -/
theorem exists_classify?_iff
    {operation : Operation} :
    (∃ list, classify? document operation = some list) ↔ Paginates document operation := by
  simp only [classify?_eq_some_iff, Route.mentionsList_iff, hasOffset_iff,
    Document.schema?_eq_some_iff]
  constructor
  · rintro ⟨list, speaks, ⟨request, asks, properties, declares, offset⟩, response, page, answers,
      first, _⟩
    obtain ⟨shown, shows, holds⟩ :=
      exists_showsPage_iff.mp ⟨page, firstPage?_eq_some_iff.mp first⟩
    exact ⟨speaks, ⟨request, properties, asks, declares, offset⟩, ⟨response, shown, answers,
      shows, holds⟩⟩
  · rintro ⟨speaks, ⟨request, properties, asks, declares, offset⟩, ⟨response, shown, answers,
      shows, holds⟩⟩
    obtain ⟨page, first⟩ := exists_showsPage_iff.mpr ⟨shown, shows, holds⟩
    exact ⟨_, speaks, ⟨request, asks, properties, declares, offset⟩, response, page, answers,
      firstPage?_eq_some_iff.mpr first, rfl⟩

/-- An ending is dropped from a text that has it, and another text is left as it is. -/
theorem withoutEnding_cases
    (ending text : List Char) :
    text = withoutEnding ending text ++ ending ∨
      text = withoutEnding ending text ∧ ¬ending <:+ withoutEnding ending text := by
  by_cases ends : ending <:+ text
  · obtain ⟨stem, rfl⟩ := ends
    exact Or.inl (by simp [withoutEnding])
  · have untouched : withoutEnding ending text = text := by
      simp [withoutEnding, ends]
    rw [untouched]
    exact Or.inr ⟨rfl, ends⟩

/-- What an operation and its page make tells them. -/
theorem tells_listOperation
    (operation : Operation)
    (page : Page) :
    Tells (listOperation operation page) operation page := by
  refine ⟨rfl, rfl, String.toList_ofList, rfl, _, rfl, ?_⟩
  simp only [← String.toList_inj, String.toList_append, String.toList_ofList]
  exact withoutEnding_cases _ _

/-- It can be decided which operations list items in pages. -/
instance decidablePaginates
    (document : Document)
    (operation : Operation) :
    Decidable (Paginates document operation) :=
  decidable_of_iff ((classify? document operation).isSome = true)
    (Option.isSome_iff_exists.trans exists_classify?_iff)

/-- The classification keeps the operations that list items in pages, in their order. -/
theorem forall₂_classify
    (document : Document)
    (operations : List Operation) :
    List.Forall₂ (fun operation list => classify? document operation = some list)
      (operations.filter (Paginates document ·)) (classify document operations) := by
  induction operations with
  | nil =>
      exact .nil
  | cons operation others inductionHypothesis =>
      cases classified : classify? document operation with
      | none =>
          have isNone : ¬Paginates document operation := by
            rw [← exists_classify?_iff, classified]
            simp
          rw [classify, List.filterMap_cons_none classified,
            List.filter_cons_of_neg (by simpa using isNone)]
          exact inductionHypothesis
      | some list =>
          have isList : Paginates document operation :=
            exists_classify?_iff.mp ⟨list, classified⟩
          rw [classify, List.filterMap_cons_some classified,
            List.filter_cons_of_pos (by simpa using isList)]
          exact .cons classified inductionHypothesis

/--
The classification is exact.

An operation is a list operation exactly when its path is a route whose method speaks of a list,
its request declares a property for the offset, and its response declares a property that holds
a page.  The list operation tells the operation and the first property that holds a page;
properties before it that cannot be resolved, are no arrays, or have items written in place are
passed over.  Among some operations these are found in order, and nothing else is.
-/
theorem classify_exact
    (document : Document) :
    (∀ operation,
        (∃ list, classify? document operation = some list) ↔ Paginates document operation) ∧
      (∀ operation list,
        classify? document operation = some list →
          ∃ response page,
            document.Names operation.responseType response ∧
              ShowsPage document response page ∧
              Tells list operation page) ∧
      ∀ operations,
        List.Forall₂ (fun operation list => classify? document operation = some list)
          (operations.filter (Paginates document ·)) (classify document operations) := by
  refine ⟨fun _ => exists_classify?_iff, ?_, forall₂_classify document⟩
  intro operation list classified
  obtain ⟨_, _, response, page, answers, first, rfl⟩ :=
    classify?_eq_some_iff.mp classified
  exact ⟨response, page, Document.schema?_eq_some_iff.mp answers,
    firstPage?_eq_some_iff.mp first, tells_listOperation operation page⟩

/-- The properties of a response of which two hold pages, behind three that do not. -/
def mixedProperties : List (String × Ref Schema) := [
  ("next", .reference "#/components/schemas/Missing"),
  ("total", .inline (.value .integer)),
  ("tags", .inline (.array (some (.inline (.value .string))))),
  ("users", .reference "#/components/schemas/Users"),
  ("admins", .inline (.array (some (.reference "#/components/schemas/Admin"))))]

/-- A document with such a response, whose first page is declared under a name of its own. -/
def mixedDocument : Document where
  openapi := "3.0.3"
  title := "Users"
  version := "1.0.0"
  paths := .empty
  components := {
    schemas := Catalog.ofList [
      ("Query", .inline (.object [("OffSet", .inline (.value .integer))] none)),
      ("Everyone", .inline (.object mixedProperties none)),
      ("Users", .inline (.any (some "array") []
        (some (.reference "#/components/schemas/UserResponse")) []))]
    requestBodies := .empty
    responses := .empty }

/-- An operation that answers so. -/
def everyoneListed : Operation where
  methodName := "EveryoneListAll"
  path := "/v1/everyone.listAll"
  constantName := "RPCEveryoneListAll"
  summary := ""
  requestType := "Query"
  responseType := "Everyone"

/-- The list operation for it. -/
def everyoneList : ListOperation where
  toOperation := everyoneListed
  iteratorName := "EveryoneListAllIter"
  fetcherName := "UserPageFetcher"
  itemType := "UserResponse"
  responseField := "Users"

/-- Neither the properties in front of the first page nor the later page are told. -/
theorem mixedDocument_classified :
    classify mixedDocument [everyoneListed] = [everyoneList] ∧
      Paginates mixedDocument everyoneListed ∧
      mixedDocument.Names "Everyone" (.object mixedProperties none) ∧
      ShowsPage mixedDocument (.object mixedProperties none) ⟨"users", "UserResponse"⟩ ∧
      Tells everyoneList everyoneListed ⟨"users", "UserResponse"⟩ := by
  have classified : classify? mixedDocument everyoneListed = some everyoneList := by
    decide +kernel
  have first : firstPage? mixedDocument (.object mixedProperties none) =
      some ⟨"users", "UserResponse"⟩ := by
    decide +kernel
  have isExact := classify_exact mixedDocument
  obtain ⟨response, page, names, shows, tells⟩ := isExact.2.1 everyoneListed everyoneList classified
  -- The response is the one declared, so that its first page is the one computed.
  have declared : mixedDocument.schema? "Everyone" = some (.object mixedProperties none) := rfl
  obtain rfl := Option.some.inj (declared.symm.trans (Document.schema?_eq_some_iff.mpr names))
  obtain rfl := Option.some.inj (first.symm.trans (firstPage?_eq_some_iff.mpr shows))
  exact ⟨by decide +kernel, (isExact.1 everyoneListed).mp ⟨_, classified⟩, names, shows, tells⟩

end Listing

end RpcStubs
