import RpcStubs.Artifact.Render
namespace RpcStubs

/-!
# Calls in generated code

Three files say which calls there are.  The client declares a constant for each path and a
method for each call, the server routes constants to the methods of an interface, and the
service implements that interface.  What they say is read off their lines, and it is the same
in all of them: one call for each operation, in order.
-/

open Artifact (Part Line)

/-- The name that a part holds besides its text. -/
def Artifact.Part.name? : Part → Option String
  | .text _ => none
  | .message name | .declared name | .constant name | .method name | .path name => some name

/-- A constant with the path that it holds. -/
structure PathConstant where
  name : String
  path : String
deriving Repr, DecidableEq

/-- A method with the messages that it exchanges. -/
structure Signature where
  method : String
  request : String
  response : String
deriving Repr, DecidableEq

/-- A route: its constant, the type and the value of a new request, and the method it leads to. -/
structure Routing where
  constant : String
  request : String
  made : String
  method : String
deriving Repr, DecidableEq

/-- The line that declares a constant. -/
def PathConstant.line (constant : PathConstant) : Line :=
  [.text "\t", .declared constant.name, .text " = \"", .path constant.path, .text "\""]

/-- The line that declares a method, between a beginning and an end. -/
def Signature.line (beginning ending : String) (signature : Signature) : Line :=
  [.text beginning, .method signature.method, .text "(ctx context.Context, req *",
    .message signature.request, .text ") (*", .message signature.response, .text ending]

/-- The line that adds a route to the handler. -/
def Routing.line (routing : Routing) : Line :=
  [.text "\tmux.Handle(", .constant routing.constant, .text ", handle(func() *",
    .message routing.request, .text " \x7b return &", .message routing.made,
    .text "\x7b\x7d \x7d, svc.", .method routing.method, .text "))"]

/-- The line of the client that calls a constant. -/
def callingLine (constant : String) : Line :=
  [.text "\tif err := c.call(ctx, ", .constant constant,
    .text ", req, resp); err != nil \x7b"]

namespace Operation

/-- The constant for the path of an operation. -/
def pathConstant (operation : Operation) : PathConstant where
  name := operation.constantName
  path := operation.path

/-- The method of an operation. -/
def signature (operation : Operation) : Signature where
  method := operation.methodName
  request := operation.requestType
  response := operation.responseType

/-- The route of an operation. -/
def routing (operation : Operation) : Routing where
  constant := operation.constantName
  request := operation.requestType
  made := operation.requestType
  method := operation.methodName

end Operation

namespace Artifact

/-- What a line is written for, when its names make such a thing and it is written so. -/
def readBack {β : Type} (ofNames? : List String → Option β) (write : β → Line) (line : Line) :
    Option β :=
  (ofNames? (line.filterMap Part.name?)).filter fun value => line = write value

/-- The constant that a line declares. -/
def constantIn? : Line → Option PathConstant :=
  readBack (fun
    | [name, path] => some ⟨name, path⟩
    | _ => none) PathConstant.line

/-- The method that a line declares between a beginning and an end. -/
def signatureIn? (beginning ending : String) : Line → Option Signature :=
  readBack (fun
    | [method, request, response] => some ⟨method, request, response⟩
    | _ => none) (Signature.line beginning ending)

/-- The route that a line adds to the handler. -/
def routingIn? : Line → Option Routing :=
  readBack (fun
    | [constant, request, made, method] => some ⟨constant, request, made, method⟩
    | _ => none) Routing.line

/-- The constant that a line of the client calls. -/
def calledIn? : Line → Option String :=
  readBack (fun
    | [constant] => some constant
    | _ => none) callingLine

end Artifact

namespace Model

/-- The constants that the client declares. -/
def pathConstants (model : Model) : List PathConstant :=
  (Artifact.client.lines model).filterMap Artifact.constantIn?

/-- The methods of the client. -/
def clientMethods (model : Model) : List Signature :=
  (Artifact.client.lines model).filterMap
    (Artifact.signatureIn? "func (c *Client) " ", error) \x7b")

/-- The constants that the methods of the client call. -/
def calledConstants (model : Model) : List String :=
  (Artifact.client.lines model).filterMap Artifact.calledIn?

/-- The methods of the interface of the service. -/
def interfaceMethods (model : Model) : List Signature :=
  (Artifact.server.lines model).filterMap (Artifact.signatureIn? "\t" ", error)")

/-- The routes of the handler. -/
def routings (model : Model) : List Routing :=
  (Artifact.server.lines model).filterMap Artifact.routingIn?

/-- The methods that implement the service. -/
def serviceMethods (model : Model) : List Signature :=
  (Artifact.service.lines model).filterMap
    (Artifact.signatureIn? "func (s *service) " ", error) \x7b")

end Model

namespace Artifact

/-! Lines are read as what they are written for. -/

/-- When names give back what a line is written for, exactly the written lines are read. -/
theorem readBack_eq_some_iff
    {β : Type}
    {ofNames? : List String → Option β}
    {write : β → Line}
    (givesBack : ∀ value, ofNames? ((write value).filterMap Part.name?) = some value)
    {line : Line}
    {value : β} :
    readBack ofNames? write line = some value ↔ line = write value := by
  unfold readBack
  rw [Option.filter_eq_some_iff]
  constructor
  · rintro ⟨_, written⟩
    exact of_decide_eq_true written
  · rintro rfl
    exact ⟨givesBack value, decide_eq_true rfl⟩

theorem constantIn?_eq_some_iff
    {line : Line}
    {constant : PathConstant} :
    constantIn? line = some constant ↔ line = constant.line :=
  readBack_eq_some_iff fun _ => rfl

theorem signatureIn?_eq_some_iff
    {beginning ending : String}
    {line : Line}
    {signature : Signature} :
    signatureIn? beginning ending line = some signature ↔
      line = signature.line beginning ending :=
  readBack_eq_some_iff fun _ => rfl

theorem routingIn?_eq_some_iff
    {line : Line}
    {routing : Routing} :
    routingIn? line = some routing ↔ line = routing.line :=
  readBack_eq_some_iff fun _ => rfl

theorem calledIn?_eq_some_iff
    {line : Line}
    {constant : String} :
    calledIn? line = some constant ↔ line = callingLine constant :=
  readBack_eq_some_iff fun _ => rfl

/-! What other lines say. -/

/-- A line of texts says nothing about calls. -/
theorem readers_texts
    {line : Line}
    (onlyTexts : line.filterMap Part.name? = []) :
    constantIn? line = none ∧
      (∀ beginning ending, signatureIn? beginning ending line = none) ∧
      routingIn? line = none ∧
      calledIn? line = none := by
  simp [constantIn?, signatureIn?, routingIn?, calledIn?, readBack, onlyTexts]

section

variable (first middle last : String)

@[simp] theorem readers_fixed :
    constantIn? (fixed first) = none ∧
      (∀ beginning ending, signatureIn? beginning ending (fixed first) = none) ∧
      routingIn? (fixed first) = none ∧
      calledIn? (fixed first) = none :=
  readers_texts rfl

@[simp] theorem readers_pair :
    constantIn? [.text first, .text last] = none ∧
      (∀ beginning ending, signatureIn? beginning ending [.text first, .text last] = none) ∧
      routingIn? [.text first, .text last] = none ∧
      calledIn? [.text first, .text last] = none :=
  readers_texts rfl

@[simp] theorem readers_triple :
    constantIn? [.text first, .text middle, .text last] = none ∧
      (∀ beginning ending,
        signatureIn? beginning ending [.text first, .text middle, .text last] = none) ∧
      routingIn? [.text first, .text middle, .text last] = none ∧
      calledIn? [.text first, .text middle, .text last] = none :=
  readers_texts rfl

/-- A line that declares a name alone is neither a method nor a route. -/
@[simp] theorem readers_declared :
    (∀ beginning ending,
        signatureIn? beginning ending [.text first, .declared middle, .text last] = none) ∧
      routingIn? [.text first, .declared middle, .text last] = none :=
  ⟨fun _ _ => rfl, rfl⟩

end

/-! What the lines of an operation say. -/

section

variable (operation : Operation)

@[simp] theorem constantIn?_constantLine :
    constantIn? (constantLine operation) = some operation.pathConstant :=
  constantIn?_eq_some_iff.mpr rfl

@[simp] theorem signatureIn?_serviceMethodLine :
    signatureIn? "\t" ", error)" (serviceMethodLine operation) = some operation.signature :=
  signatureIn?_eq_some_iff.mpr rfl

@[simp] theorem routingIn?_routeLine :
    routingIn? (routeLine operation) = some operation.routing :=
  routingIn?_eq_some_iff.mpr rfl

/-- Lines with other numbers of names are not taken for each other. -/
@[simp] theorem readers_otherLines :
    (∀ beginning ending, signatureIn? beginning ending (constantLine operation) = none) ∧
      calledIn? (constantLine operation) = none ∧
      (∀ beginning ending, signatureIn? beginning ending (routeLine operation) = none) ∧
      routingIn? (serviceMethodLine operation) = none :=
  ⟨fun _ _ => rfl, rfl, fun _ _ => rfl, rfl⟩

/-- Around a line that says something, the others say nothing. -/
theorem filterMap_only
    {β : Type}
    {read : Line → Option β}
    {before after : List Line}
    {line : Line}
    {value : β}
    (nothingBefore : before.filterMap read = [])
    (reads : read line = some value)
    (nothingAfter : after.filterMap read = []) :
    (before ++ line :: after).filterMap read = [value] := by
  rw [List.filterMap_append, nothingBefore, List.filterMap_cons_some reads, nothingAfter,
    List.nil_append]

/-- The lines of a client method open the method and call the constant of its operation. -/
theorem filterMap_clientMethod :
    (clientMethod operation).filterMap constantIn? = [] ∧
      (clientMethod operation).filterMap
          (signatureIn? "func (c *Client) " ", error) \x7b") = [operation.signature] ∧
      (clientMethod operation).filterMap calledIn? = [operation.constantName] := by
  refine ⟨?_, ?_, ?_⟩
  · unfold clientMethod summaryLines
    split <;> rfl
  · refine filterMap_only ?_ (signatureIn?_eq_some_iff.mpr rfl) rfl
    unfold summaryLines
    split <;> rfl
  · have comments :
        ([fixed "", [.text "// ", .text operation.methodName, .text " calls ",
          .text operation.path, .text "."]] ++ summaryLines operation).filterMap calledIn? =
          [] := by
      unfold summaryLines
      split <;> rfl
    rw [clientMethod, List.filterMap_append, comments, List.nil_append]
    exact @filterMap_only _ _
      [clientMethodLine operation,
        [.text "\tresp := &", .message operation.responseType, .text "\x7b\x7d"]]
      _ _ _ rfl (calledIn?_eq_some_iff.mpr rfl) rfl

theorem filterMap_implementation :
    (implementation operation).filterMap
        (signatureIn? "func (s *service) " ", error) \x7b") = [operation.signature] := by
  refine filterMap_only ?_ (signatureIn?_eq_some_iff.mpr rfl) rfl
  unfold summaryLines
  split <;> rfl

end

/-- What is read off the client stands in its constants and in its methods. -/
theorem filterMap_client
    {β : Type}
    {read : Line → Option β}
    (model : Model)
    (ofFixed : ∀ text, read (fixed text) = none)
    (ofPackage : ∀ first last, read [.text first, .text last] = none)
    (ofImport : ∀ first middle last, read [.text first, .text middle, .text last] = none)
    (ofTypes : (clientType ++ clientError ++ clientCall).filterMap read = []) :
    (client.lines model).filterMap read =
      (model.operations.map constantLine).filterMap read ++
        model.operations.flatMap fun operation => (clientMethod operation).filterMap read := by
  have imports : (messageImport model).filterMap read = [] := by
    unfold messageImport
    split <;> simp [ofFixed, ofImport]
  have constants :
      (constantBlock model).filterMap read =
        (model.operations.map constantLine).filterMap read := by
    unfold constantBlock
    split
    · rename_i empty
      simp [List.isEmpty_iff.mp empty]
    · simp [ofFixed]
  simp only [List.filterMap_append, List.append_eq_nil_iff] at ofTypes
  simp [lines, clientLines, imports, constants, ofTypes, ofFixed, ofPackage,
    List.filterMap_flatMap]

end Artifact

namespace Model

open Artifact

variable (model : Model)

/-- The client declares the constants of all operations. -/
theorem pathConstants_eq :
    model.pathConstants = model.operations.map Operation.pathConstant := by
  rw [pathConstants, filterMap_client model (by simp) (by simp) (by simp) rfl]
  simp [filterMap_clientMethod, List.map_eq_flatMap, List.filterMap_flatMap]

/-- The client has the methods of all operations. -/
theorem clientMethods_eq :
    model.clientMethods = model.operations.map Operation.signature := by
  rw [clientMethods, filterMap_client model (by simp) (by simp) (by simp) rfl]
  simp [filterMap_clientMethod, List.map_eq_flatMap, List.filterMap_flatMap]

/-- The methods of the client call the constants of their operations. -/
theorem calledConstants_eq :
    model.calledConstants = model.operations.map Operation.constantName := by
  rw [calledConstants, filterMap_client model (by simp) (by simp) (by simp) rfl]
  simp [filterMap_clientMethod, List.map_eq_flatMap, List.filterMap_flatMap]

theorem interfaceMethods_eq :
    model.interfaceMethods = model.operations.map Operation.signature := by
  have imports : (messageImport model).filterMap (signatureIn? "\t" ", error)") = [] := by
    unfold messageImport
    split <;> simp
  have handle : serverHandle.filterMap (signatureIn? "\t" ", error)") = [] := rfl
  simp [interfaceMethods, lines, serverLines, imports, handle, List.map_eq_flatMap,
    List.filterMap_flatMap]

theorem routings_eq :
    model.routings = model.operations.map Operation.routing := by
  have imports : (messageImport model).filterMap routingIn? = [] := by
    unfold messageImport
    split <;> simp
  have handle : serverHandle.filterMap routingIn? = [] := rfl
  simp [routings, lines, serverLines, imports, handle, List.map_eq_flatMap,
    List.filterMap_flatMap]

theorem serviceMethods_eq :
    model.serviceMethods = model.operations.map Operation.signature := by
  have imports :
      (serviceImport model).filterMap
        (signatureIn? "func (s *service) " ", error) \x7b") = [] := by
    unfold serviceImport
    split <;> simp
  simp [serviceMethods, lines, serviceLines, imports, filterMap_implementation,
    List.filterMap_flatMap, List.map_eq_flatMap]

end Model

end RpcStubs
