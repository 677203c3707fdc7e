import RpcStubs.Proofs.Artifact.Header
import RpcStubs.Proofs.Artifact.Messages
namespace RpcStubs.Model

open Source Text

/-!
# Messages in the message file

The messages of operations are listed once, in the order in which the operations first exchange
them, and the message file declares them line by line in that order.
-/

/-- The names that operations exchange, every request in front of its response. -/
def exchanged (operations : List Operation) : List String :=
  operations.flatMap fun operation => [operation.requestType, operation.responseType]

theorem messagesOf_eq
    (operations : List Operation) :
    messagesOf operations = distinctBy id (exchanged operations) := rfl

/-- Some messages are those that operations exchange, each once, in first-seen order. -/
structure ListsMessages (operations : List Operation) (messages : List String) : Prop where
  nodup : messages.Nodup
  mem_iff : ∀ name, name ∈ messages ↔ ∃ operation ∈ operations, operation.Exchanges name
  ordered : messages.Pairwise fun earlier later =>
    (exchanged operations).idxOf earlier < (exchanged operations).idxOf later

theorem listsMessages_messagesOf
    (operations : List Operation) :
    ListsMessages operations (messagesOf operations) where
  nodup := by
    simpa [messagesOf_eq] using map_distinctBy_nodup id (exchanged operations)
  mem_iff := fun _ => mem_messagesOf_iff
  ordered := by
    simpa [messagesOf_eq] using distinctBy_pairwise id (exchanged operations)

theorem ListsMessages.unique
    {operations : List Operation}
    {first second : List String}
    (firstLists : ListsMessages operations first)
    (secondLists : ListsMessages operations second) :
    first = second := by
  have same : first.Perm second :=
    (List.perm_ext_iff_of_nodup firstLists.nodup secondLists.nodup).mpr fun name =>
      (firstLists.mem_iff name).trans (secondLists.mem_iff name).symm
  refine same.eq_of_pairwise ?_ firstLists.ordered secondLists.ordered
  intro earlier later _ _ before after
  omega

/-- There is one list of the messages of operations, and it is the one that is made. -/
theorem messagesOf_eq_iff
    {operations : List Operation}
    {messages : List String} :
    messagesOf operations = messages ↔ ListsMessages operations messages := by
  constructor
  · rintro rfl
    exact listsMessages_messagesOf operations
  · exact (listsMessages_messagesOf operations).unique

/-- Operations behind others add the messages that these do not exchange. -/
theorem messagesOf_append
    (first second : List Operation) :
    messagesOf (first ++ second) =
      messagesOf first ++ (messagesOf second).filter (· ∉ messagesOf first) := by
  have whole : exchanged (first ++ second) = exchanged first ++ exchanged second :=
    List.flatMap_append
  rw [messagesOf_eq, whole, distinctBy_append, List.map_id]
  rfl

/-! The message file. -/

/-- What stands in the message file in front of the messages. -/
def protoPreamble (model : Model) : String :=
  Artifact.proto.header model.generatedAt ++ "\n\n" ++
    "syntax = \"proto3\";\n\npackage " ++ model.protoPackage ++
    ";\n\noption go_package = \"" ++ model.protoImport ++ "\";\n"

/-- The lines that declare messages, with an empty line in front of each. -/
def messageLines (messages : List String) : List (List Char) :=
  messages.flatMap fun name => [[], (messageLine name).toList]

/-- Behind its preamble, the message file has the lines that declare messages, and no others. -/
theorem render_proto
    (model : Model) :
    Artifact.proto.render model =
      protoPreamble model ++ String.ofList (ended (messageLines model.messages)) := by
  have texts :
      ((Artifact.proto.lines model).map fun line => line.render.toList) =
        ((Artifact.proto.lines model).map Artifact.Line.render).map String.toList := by
    simp
  apply String.toList_inj.mp
  rw [Artifact.toList_render, Artifact.body, texts, render_protoLines]
  simp [protoPreamble, messageLines, List.map_flatMap]

theorem trimEnd_messageLine
    (name : String) :
    trimEnd (messageLine name).toList = (messageLine name).toList := by
  have shape : (messageLine name).toList =
      "message ".toList ++ name.toList ++ [' ', '\x7b'] ++ ['\x7d'] := by
    simp [messageLine]
  rw [shape, trimEnd_append_solid (by decide)]

/-- Lines that declare messages are read again, if no name breaks its line. -/
theorem lines_messageLines
    {messages : List String}
    (oneLine : ∀ name ∈ messages, '\n' ∉ name.toList) :
    lines (ended (messageLines messages)) = messageLines messages := by
  have cases {line : List Char} (member : line ∈ messageLines messages) :
      line = [] ∨ ∃ name ∈ messages, line = (messageLine name).toList := by
    obtain ⟨name, isMessage, isLine⟩ := List.mem_flatMap.mp member
    simp only [List.mem_cons, List.not_mem_nil, or_false] at isLine
    exact isLine.imp_right fun same => ⟨name, isMessage, same⟩
  apply lines_ended_eq
  · intro line member
    rcases cases member with rfl | ⟨name, isMessage, rfl⟩
    · simp
    · simpa [messageLine] using oneLine name isMessage
  · intro line member
    rcases cases member with rfl | ⟨name, _, rfl⟩
    · rfl
    · exact trimEnd_messageLine name

/--
The messages of operations are those that they exchange, each once and in first-seen order, and
those of more operations follow as far as they are new.

If no name breaks its line, the message file declares them behind its preamble, with exactly one
line each and in the same order.
-/
theorem build_listsMessages
    (configuration : Configuration)
    (operations others : List Operation)
    (lists : List ListOperation)
    (time : Instant) :
    ListsMessages operations (messagesOf operations) ∧
      messagesOf (operations ++ others) =
        messagesOf operations ++ (messagesOf others).filter (· ∉ messagesOf operations) ∧
      ((∀ name ∈ messagesOf operations, '\n' ∉ name.toList) →
        ∃ declarations,
          Artifact.proto.render (build configuration operations lists time) =
              protoPreamble (build configuration operations lists time) ++ declarations ∧
            lines declarations.toList = messageLines (messagesOf operations)) := by
  refine ⟨listsMessages_messagesOf operations, messagesOf_append operations others, ?_⟩
  intro oneLine
  refine ⟨_, render_proto _, ?_⟩
  rw [String.toList_ofList]
  exact lines_messageLines oneLine

/-- A call of a user that exchanges two messages. -/
def userOperation (name request response : String) : Operation where
  methodName := name
  path := "/v1/" ++ name
  constantName := "RPC" ++ name
  summary := ""
  requestType := request
  responseType := response

/-- Calls that share messages, also one's request with the other's response. -/
def userOperations : List Operation := [
  userOperation "UsersGet" "GetUserRequest" "User",
  userOperation "UsersUpdate" "User" "User",
  userOperation "UsersRefresh" "GetUserRequest" "Empty"]

theorem userOperations_listsMessages :
    messagesOf userOperations = ["GetUserRequest", "User", "Empty"] ∧
      (∀ name ∈ messagesOf userOperations, '\n' ∉ name.toList) ∧
      ∃ declarations,
        Artifact.proto.render (build plainConfiguration userOperations [] ⟨0, 0⟩) =
            protoPreamble (build plainConfiguration userOperations [] ⟨0, 0⟩) ++ declarations ∧
          lines declarations.toList = messageLines (messagesOf userOperations) := by
  have oneLine : ∀ name ∈ messagesOf userOperations, '\n' ∉ name.toList := by
    decide
  exact
    ⟨by decide, oneLine,
      (build_listsMessages plainConfiguration userOperations [] [] ⟨0, 0⟩).2.2 oneLine⟩

end RpcStubs.Model
