import RpcStubs.Proofs.Artifact.Names
import RpcStubs.Proofs.Listing.Fetchers
import RpcStubs.Proofs.Run.Plan
namespace RpcStubs

/-!
# Messages that are used and messages that are declared

The message file declares the messages that operations exchange.  Generated code uses these
messages, and in the pagination file also the item types of list operations.  So every used
message is declared exactly when every item type is one that some operation exchanges.
-/

/-- A message is the request or the response of an operation. -/
def Operation.Exchanges (operation : Operation) (name : String) : Prop :=
  operation.requestType = name ∨ operation.responseType = name

instance (operation : Operation) (name : String) : Decidable (operation.Exchanges name) :=
  inferInstanceAs (Decidable (_ ∨ _))

namespace Artifact

variable {model : Model} {name : String}

@[simp] theorem namesIn_message?_messageImport
    (model : Model) :
    namesIn Part.message? (messageImport model) = [] :=
  namesIn_messageImport Part.message? (fun _ => rfl) model

@[simp] theorem namesIn_message?_summaryLines
    (operation : Operation) :
    namesIn Part.message? (summaryLines operation) = [] :=
  namesIn_summaryLines Part.message? (fun _ => rfl) operation

theorem mem_messagesUsed_client_iff :
    name ∈ client.messagesUsed model ↔
      ∃ operation ∈ model.operations, operation.Exchanges name := by
  have constants : namesIn Part.message? (constantBlock model) = [] := by
    unfold constantBlock
    split
    · rfl
    · simp [constantLine, Part.message?]
  have type : namesIn Part.message? clientType = [] := rfl
  have error : namesIn Part.message? clientError = [] := rfl
  have call : namesIn Part.message? clientCall = [] := rfl
  simp [messagesUsed, lines, clientLines, constants, type, error, call, clientMethod,
    clientMethodLine, Part.message?, Operation.Exchanges]

theorem mem_messagesUsed_server_iff :
    name ∈ server.messagesUsed model ↔
      ∃ operation ∈ model.operations, operation.Exchanges name := by
  have handle : namesIn Part.message? serverHandle = [] := rfl
  have inBoth :
      name ∈ server.messagesUsed model ↔
        (∃ operation ∈ model.operations, operation.Exchanges name) ∨
          ∃ operation ∈ model.operations, operation.requestType = name := by
    simp [messagesUsed, lines, serverLines, handle, serviceMethodLine, routeLine,
      Part.message?, Operation.Exchanges]
  rw [inBoth]
  apply or_iff_left_of_imp
  rintro ⟨operation, member, same⟩
  exact ⟨operation, member, .inl same⟩

theorem mem_messagesUsed_service_iff :
    name ∈ service.messagesUsed model ↔
      ∃ operation ∈ model.operations, operation.Exchanges name := by
  have imports : namesIn Part.message? (serviceImport model) = [] := by
    unfold serviceImport
    split <;> rfl
  simp [messagesUsed, lines, serviceLines, imports, implementation, implementationLine,
    Part.message?, Operation.Exchanges]

theorem mem_messagesUsed_serviceTest_iff :
    name ∈ serviceTest.messagesUsed model ↔
      ∃ operation ∈ model.operations, operation.requestType = name := by
  have imports : namesIn Part.message? (testImport model) = [] := by
    unfold testImport
    split <;> rfl
  simp [messagesUsed, lines, serviceTestLines, imports, operationTest, Part.message?]

/-- An iterator uses the item type and the request of its list operation. -/
theorem mem_namesIn_iterator_iff
    {list : ListOperation} :
    name ∈ namesIn Part.message? (iterator list) ↔
      list.itemType = name ∨ list.requestType = name := by
  have inParts :
      name ∈ namesIn Part.message? (iterator list) ↔
        list.itemType = name ∨ list.requestType = name ∨
          list.itemType = name ∨ list.requestType = name ∨ list.itemType = name := by
    simp [iterator, iteratorType, iteratorConstructor, iteratorNext, iteratorResults,
      Part.message?]
  rw [inParts]
  grind

/-- The pagination file uses item types, and the requests of list operations. -/
theorem mem_messagesUsed_pagination_iff :
    name ∈ pagination.messagesUsed model ↔
      (∃ fetcher ∈ model.fetchers, fetcher.itemType = name) ∨
        ∃ list ∈ model.lists, list.itemType = name ∨ list.requestType = name := by
  simp [messagesUsed, lines, paginationLines, fetcherType, mem_namesIn_iterator_iff,
    Part.message?]

/-- Other files use no messages, and what all but pagination use, operations exchange. -/
theorem exchanged_or_pagination
    {artifact : Artifact}
    (used : name ∈ artifact.messagesUsed model) :
    (∃ operation ∈ model.operations, operation.Exchanges name) ∨
      artifact = .pagination ∧ name ∈ pagination.messagesUsed model := by
  cases artifact with
  | client =>
      exact .inl (mem_messagesUsed_client_iff.mp used)
  | server =>
      exact .inl (mem_messagesUsed_server_iff.mp used)
  | service =>
      exact .inl (mem_messagesUsed_service_iff.mp used)
  | serviceTest =>
      obtain ⟨operation, member, same⟩ := mem_messagesUsed_serviceTest_iff.mp used
      exact .inl ⟨operation, member, .inl same⟩
  | pagination =>
      exact .inr ⟨rfl, used⟩
  | proto =>
      simp [messagesUsed, lines, protoLines, messageDeclaration, Part.message?] at used
  | daemon =>
      cases used
  | makefile =>
      cases used
  | buf =>
      cases used
  | bufGen =>
      cases used

end Artifact

namespace Model

/-- The messages of a model are those that its operations exchange. -/
theorem mem_messagesOf_iff
    {operations : List Operation}
    {name : String} :
    name ∈ messagesOf operations ↔ ∃ operation ∈ operations, operation.Exchanges name := by
  have named :
      name ∈ operations.flatMap
          (fun operation => [operation.requestType, operation.responseType]) ↔
        ∃ operation ∈ operations, operation.Exchanges name := by
    simp [Operation.Exchanges, eq_comm]
  rw [← named]
  constructor
  · exact mem_of_mem_distinctBy
  · intro member
    obtain ⟨first, kept, same⟩ := exists_mem_distinctBy id member
    rw [id, id] at same
    exact same ▸ kept

/-- The line that declares a message. -/
def messageLine (name : String) : String :=
  "message " ++ name ++ " \x7b\x7d"

theorem messageLine_eq_iff
    {first second : String} :
    messageLine first = messageLine second ↔ first = second := by
  constructor
  · intro same
    have sameText := congrArg String.toList same
    simp only [messageLine, String.toList_append, List.append_cancel_left_eq,
      List.append_cancel_right_eq] at sameText
    exact String.toList_inj.mp sameText
  · rintro rfl
    rfl

/-- The texts of the lines of the message file: some that start it, and the declarations. -/
theorem render_protoLines
    (model : Model) :
    (Artifact.proto.lines model).map Artifact.Line.render =
      ["syntax = \"proto3\";", "", "package " ++ model.protoPackage ++ ";", "",
          "option go_package = \"" ++ model.protoImport ++ "\";"] ++
        model.messages.flatMap fun name => ["", messageLine name] := by
  simp [Artifact.lines, Artifact.protoLines, Artifact.messageDeclaration, messageLine,
    Artifact.Line.render, Artifact.Part.render, Artifact.fixed, List.map_flatMap]

/-- The message file has the declarations of the messages of the model, and no others. -/
theorem messageLine_mem_iff
    {model : Model}
    {name : String} :
    messageLine name ∈ (Artifact.proto.lines model).map Artifact.Line.render ↔
      name ∈ model.messages := by
  have declares (line : String) (starts : line.toList.head? ≠ some 'm') :
      messageLine name ≠ line := by
    rintro rfl
    simp [messageLine] at starts
  rw [render_protoLines]
  simp [messageLine_eq_iff, declares, declares "syntax = \"proto3\";" (by decide)]

end Model

namespace Plan

/-- Every message that a file of a plan uses is declared in the message file of the plan. -/
def DeclaresMessages (plan : Plan) : Prop :=
  ∀ draft ∈ plan.drafts, ∀ name ∈ draft.artifact.messagesUsed plan.model,
    name ∈ plan.model.messages ∧
      ∃ messageFile ∈ plan.drafts,
        messageFile.artifact = .proto ∧
          Model.messageLine name ∈
            (messageFile.artifact.lines plan.model).map Artifact.Line.render

variable {formatter : Source.Formatter} {document : Document} {configuration : Configuration}
  {time : Instant} {plan : Plan}

/-- What the model of a plan has as a message is declared. -/
theorem exists_messageLine_iff
    (made : make formatter document configuration time = .ok plan)
    {name : String} :
    (∃ messageFile ∈ plan.drafts,
        messageFile.artifact = .proto ∧
          Model.messageLine name ∈
            (messageFile.artifact.lines plan.model).map Artifact.Line.render) ↔
      name ∈ plan.model.messages := by
  constructor
  · rintro ⟨messageFile, _, isProto, declared⟩
    rw [isProto] at declared
    exact Model.messageLine_mem_iff.mp declared
  · intro member
    obtain ⟨messageFile, drafted, isProto⟩ :=
      exists_draft_of_selected made .proto rfl
    refine ⟨messageFile, drafted, isProto, ?_⟩
    rw [isProto]
    exact Model.messageLine_mem_iff.mpr member

/-- A message that the pagination file of a plan uses is exchanged, or an item type. -/
theorem exchanged_or_itemType
    (made : make formatter document configuration time = .ok plan)
    {name : String}
    (used : name ∈ Artifact.pagination.messagesUsed plan.model) :
    (∃ operation ∈ plan.model.operations, operation.Exchanges name) ∨
      ∃ list ∈ plan.model.lists, list.itemType = name := by
  obtain ⟨operations, _, isModel⟩ := exists_operations_of_make made
  rw [isModel] at used ⊢
  rcases Artifact.mem_messagesUsed_pagination_iff.mp used with
    ⟨fetcher, fetcherMember, same⟩ | ⟨list, member, isItem | isRequest⟩
  · obtain ⟨list, member, rfl⟩ := List.mem_map.mp (mem_of_mem_distinctBy fetcherMember)
    exact .inr ⟨list, member, same⟩
  · exact .inr ⟨list, member, isItem⟩
  · exact .inl
      ⟨list.toOperation, Listing.toOperation_mem_of_mem_classify member, .inl isRequest⟩

/--
The files of a plan use only declared messages exactly when every item type of a list operation
is the request or the response of some operation.

In any case a message that is used and is no message of the model is an item type, and it is
used by the pagination file alone.
-/
theorem declaresMessages_iff
    (made : make formatter document configuration time = .ok plan) :
    (∀ draft ∈ plan.drafts, ∀ name ∈ draft.artifact.messagesUsed plan.model,
        name ∉ plan.model.messages →
          draft.artifact = .pagination ∧ ∃ list ∈ plan.model.lists, list.itemType = name) ∧
      (plan.DeclaresMessages ↔
        ∀ list ∈ plan.model.lists,
          ∃ operation ∈ plan.model.operations, operation.Exchanges list.itemType) := by
  have messages {name : String} :
      name ∈ plan.model.messages ↔
        ∃ operation ∈ plan.model.operations, operation.Exchanges name := by
    obtain ⟨operations, _, isModel⟩ := exists_operations_of_make made
    rw [isModel]
    exact Model.mem_messagesOf_iff
  have usedCases {draft : Draft} {name : String}
      (used : name ∈ draft.artifact.messagesUsed plan.model) :
      name ∈ plan.model.messages ∨
        draft.artifact = .pagination ∧ ∃ list ∈ plan.model.lists, list.itemType = name := by
    rcases Artifact.exchanged_or_pagination used with exchanged | ⟨isPagination, inPagination⟩
    · exact .inl (messages.mpr exchanged)
    · rcases exchanged_or_itemType made inPagination with exchanged | isItem
      · exact .inl (messages.mpr exchanged)
      · exact .inr ⟨isPagination, isItem⟩
  refine ⟨fun draft _ name used missing => (usedCases used).resolve_left missing, ?_, ?_⟩
  · intro declares list member
    have listed : Artifact.pagination.isSelected plan.model = true := by
      cases shape : plan.model.lists with
      | nil =>
          simp [shape] at member
      | cons first rest =>
          simp [Artifact.isSelected, Artifact.condition, shape]
    obtain ⟨draft, drafted, isPagination⟩ := exists_draft_of_selected made .pagination listed
    have used : list.itemType ∈ draft.artifact.messagesUsed plan.model := by
      rw [isPagination]
      exact Artifact.mem_messagesUsed_pagination_iff.mpr (.inr ⟨list, member, .inl rfl⟩)
    exact messages.mp (declares draft drafted list.itemType used).1
  · intro exchanged draft drafted name used
    have member : name ∈ plan.model.messages := by
      rcases usedCases used with member | ⟨_, list, listMember, rfl⟩
      · exact member
      · exact messages.mpr (exchanged list listMember)
    exact ⟨member, (exists_messageLine_iff made).mpr member⟩

end Plan

/-- A document that lists groups, whose items are groups again. -/
def groupsDocument : Document where
  openapi := "3.0.3"
  title := "Groups"
  version := "1.0.0"
  paths := { entries := [
    ("/v1/groups.list", .inline { post := some (pageCall "#/components/schemas/Group") })] }
  components := {
    schemas := { entries := [
      ("Query", .inline (.object [("offset", .inline (.value .integer))] none)),
      ("Group", pageSchema "#/components/schemas/Group")] }
    requestBodies := .empty
    responses := .empty }

/-- Groups are declared as the response, so that they can be the items, too. -/
theorem groupsDocument_declaresMessages :
    ∃ plan,
      Plan.make (Source.chain []) groupsDocument plainConfiguration ⟨0, 0⟩ = .ok plan ∧
        plan.model.lists ≠ [] ∧
        plan.DeclaresMessages := by
  obtain ⟨plan, made, listed, exchanged⟩ :
      ∃ plan,
        Plan.make (Source.chain []) groupsDocument plainConfiguration ⟨0, 0⟩ = .ok plan ∧
          plan.model.lists ≠ [] ∧
          ∀ list ∈ plan.model.lists,
            ∃ operation ∈ plan.model.operations, operation.Exchanges list.itemType :=
    ⟨_, rfl, by decide +kernel, by decide +kernel⟩
  exact ⟨plan, made, listed, (Plan.declaresMessages_iff made).2.mpr exchanged⟩

/-- In an accepted document, the users that are listed are declared nowhere. -/
theorem repliesDocument_uses_undeclared :
    repliesDocument.violations = [] ∧
      ∃ plan,
        Plan.make (Source.chain []) repliesDocument plainConfiguration ⟨0, 0⟩ = .ok plan ∧
          (∃ draft ∈ plan.drafts, "User" ∈ draft.artifact.messagesUsed plan.model) ∧
          "User" ∉ plan.model.messages ∧
          ¬plan.DeclaresMessages := by
  refine ⟨by decide +kernel, ?_⟩
  obtain ⟨plan, made, ⟨draft, drafted, used⟩, missing⟩ :
      ∃ plan,
        Plan.make (Source.chain []) repliesDocument plainConfiguration ⟨0, 0⟩ = .ok plan ∧
          (∃ draft ∈ plan.drafts, "User" ∈ draft.artifact.messagesUsed plan.model) ∧
          "User" ∉ plan.model.messages :=
    ⟨_, rfl, by decide +kernel, by decide +kernel⟩
  exact
    ⟨plan, made, ⟨draft, drafted, used⟩, missing,
      fun declares => missing (declares draft drafted "User" used).1⟩

end RpcStubs
