import Mathlib.Data.List.TakeWhile
import RpcStubs.Proofs.Artifact.Calls
import RpcStubs.Proofs.Artifact.Header
namespace RpcStubs

/-!
# Calls on the lines of generated texts

The texts of the files are read line by line, as any reader of the files has to: the block of
constants, the block of the interface, the routes of the handler, and the lines that open a method
or call a constant.  Where no name breaks a line, these lines are exactly those of the constants,
methods and routes of the files, so that nothing else is declared, routed or called among them.
-/

namespace Artifact

/-- The lines of a block, from below the line that opens it to the next line that closes it. -/
def blockBetween (opening closing : String) (lines : List (List Char)) : List (List Char) :=
  ((lines.dropWhile (· ≠ opening.toList)).drop 1).takeWhile (· ≠ closing.toList)

/-- The lines with a beginning. -/
def linesWith (beginning : String) (lines : List (List Char)) : List (List Char) :=
  lines.filter (beginning.toList.isPrefixOf ·)

/-- A line is absent where no line has its beginning. -/
theorem not_mem_of_linesWith_eq_nil
    {beginning : String}
    {lines : List (List Char)}
    (nothing : linesWith beginning lines = [])
    {line : List Char}
    (begins : beginning.toList.isPrefixOf line = true) :
    line ∉ lines := by
  intro member
  have isRead : line ∈ linesWith beginning lines := List.mem_filter.mpr ⟨member, begins⟩
  rw [nothing] at isRead
  cases isRead

/-- A block is read where no line above opens one and no line in it closes it. -/
theorem blockBetween_append
    {opening closing : String}
    {above inside below : List (List Char)}
    (unopened : opening.toList ∉ above)
    (unclosed : closing.toList ∉ inside) :
    blockBetween opening closing
        (above ++ opening.toList :: (inside ++ closing.toList :: below)) =
      inside := by
  have before : ∀ line ∈ above, (line ≠ opening.toList : Bool) = true := by
    intro line member
    simpa using ne_of_mem_of_not_mem member unopened
  have within : ∀ line ∈ inside, (line ≠ closing.toList : Bool) = true := by
    intro line member
    simpa using ne_of_mem_of_not_mem member unclosed
  rw [blockBetween, List.dropWhile_append_of_pos before, List.dropWhile_cons_of_neg (by simp),
    List.drop_one, List.tail_cons, List.takeWhile_append_of_pos within,
    List.takeWhile_cons_of_neg (by simp), List.append_nil]

/-- A block that no line opens has no lines. -/
theorem blockBetween_eq_nil
    {opening closing : String}
    {lines : List (List Char)}
    (unopened : opening.toList ∉ lines) :
    blockBetween opening closing lines = [] := by
  have nothing : lines.dropWhile (· ≠ opening.toList) = [] := by
    refine List.dropWhile_eq_nil_iff.mpr fun line member => ?_
    simpa using ne_of_mem_of_not_mem member unopened
  rw [blockBetween, nothing]
  rfl

theorem linesWith_append
    (beginning : String)
    (above below : List (List Char)) :
    linesWith beginning (above ++ below) =
      linesWith beginning above ++ linesWith beginning below :=
  List.filter_append ..

/-- Lines are read with a beginning list by list. -/
theorem linesWith_flatMap
    (beginning : String)
    (operations : List Operation)
    (write : Operation → List Line) :
    linesWith beginning ((operations.flatMap write).map lineText) =
      operations.flatMap fun operation => linesWith beginning ((write operation).map lineText) := by
  rw [List.map_flatMap, linesWith, List.filter_flatMap]
  rfl

end Artifact

/-- An operation whose texts stay on one line each, and whose constant is named like one. -/
structure Operation.KeepsLines (operation : Operation) : Prop where
  methodName : '\n' ∉ operation.methodName.toList
  path : '\n' ∉ operation.path.toList
  constantName : '\n' ∉ operation.constantName.toList
  isConstant : operation.constantName.toList.head? = some 'R'
  summary : '\n' ∉ operation.summary.toList
  requestType : '\n' ∉ operation.requestType.toList
  responseType : '\n' ∉ operation.responseType.toList

namespace Artifact

/-! The client, block by block. -/

/-- The lines of the client above its constants. -/
def clientAbove (model : Model) : List Line :=
  [
    [.text "package ", .text model.package],
    fixed "",
    fixed "import (",
    fixed "\t\"bytes\"",
    fixed "\t\"context\"",
    fixed "\t\"fmt\"",
    fixed "\t\"io\"",
    fixed "\t\"net/http\"",
    fixed "\t\"strings\"",
    fixed "",
    fixed "\t\"google.golang.org/protobuf/encoding/protojson\"",
    fixed "\t\"google.golang.org/protobuf/proto\""] ++
  messageImport model ++
  [fixed ")"]

/-- The lines of the client that are the same for all models. -/
def clientCore : List Line :=
  clientType ++ clientError ++ clientCall

theorem lines_client
    (model : Model) :
    client.lines model =
      clientAbove model ++ constantBlock model ++ clientCore ++
        model.operations.flatMap clientMethod := by
  simp only [lines, clientLines, clientAbove, clientCore, List.append_assoc]

theorem linesWith_clientAbove
    (model : Model) :
    linesWith "func (c *Client) " ((clientAbove model).map lineText) = [] ∧
      linesWith "\tif err := c.call(" ((clientAbove model).map lineText) = [] ∧
      linesWith "const" ((clientAbove model).map lineText) = [] := by
  unfold clientAbove messageImport
  split <;>
  · simp only [List.map_append, List.map_cons, List.map_nil, lineText_fixed, lineText_text,
      linesWith]
    repeat rewrite [String.toList_ofList]
    exact ⟨rfl, rfl, rfl⟩

/-- The line that opens the method which carries out any call. -/
def callOpening : String :=
  "func (c *Client) call(ctx context.Context, path string, req, resp proto.Message) error \x7b"

theorem linesWith_clientCore :
    linesWith "func (c *Client) " (clientCore.map lineText) = [callOpening.toList] ∧
      linesWith "\tif err := c.call(" (clientCore.map lineText) = [] ∧
      linesWith "const" (clientCore.map lineText) = [] := by
  simp only [clientCore, clientType, clientError, clientCall, List.map_append, List.map_cons,
    List.map_nil, lineText_fixed, lineText_cons, Part.render, linesWith, callOpening]
  -- Fixed texts are taken apart into characters first, which are compared one by one.
  repeat rewrite [String.toList_ofList]
  exact ⟨rfl, rfl, rfl⟩

/-- A line that declares a constant neither opens a method nor a block, and calls nothing. -/
theorem linesWith_constantLine
    {operation : Operation}
    (keeps : operation.KeepsLines) :
    linesWith "func (c *Client) " [lineText (constantLine operation)] = [] ∧
      linesWith "\tif err := c.call(" [lineText (constantLine operation)] = [] ∧
      linesWith "const" [lineText (constantLine operation)] = [] := by
  obtain ⟨rest, named⟩ := List.head?_eq_some_iff.mp keeps.isConstant
  simp only [constantLine, lineText_cons, Part.render, named, linesWith]
  repeat rewrite [String.toList_ofList]
  exact ⟨rfl, rfl, rfl⟩

theorem linesWith_constantBlock
    {model : Model}
    (keeps : ∀ operation ∈ model.operations, operation.KeepsLines) :
    linesWith "func (c *Client) " ((constantBlock model).map lineText) = [] ∧
      linesWith "\tif err := c.call(" ((constantBlock model).map lineText) = [] ∧
      linesWith "const" ((constantBlock model).map lineText) =
        if model.operations = [] then [] else ["const (".toList] := by
  have declared {beginning : String}
      (without : ∀ operation ∈ model.operations,
        linesWith beginning [lineText (constantLine operation)] = []) :
      linesWith beginning ((model.operations.map constantLine).map lineText) = [] := by
    rw [@List.map_eq_flatMap _ _ constantLine, linesWith_flatMap, List.flatMap_eq_nil_iff]
    exact without
  unfold constantBlock
  by_cases empty : model.operations = []
  · rw [if_pos (by simp [empty]), if_pos empty]
    exact ⟨rfl, rfl, rfl⟩
  · have nothing := fun operation member => linesWith_constantLine (keeps operation member)
    rw [if_neg (by simpa using empty), if_neg empty]
    simp only [List.map_append, linesWith_append,
      declared fun operation member => (nothing operation member).1,
      declared fun operation member => (nothing operation member).2.1,
      declared fun operation member => (nothing operation member).2.2]
    simp only [List.map_cons, List.map_nil, lineText_fixed, linesWith]
    repeat rewrite [String.toList_ofList]
    exact ⟨rfl, rfl, rfl⟩

theorem linesWith_clientMethod
    (operation : Operation) :
    linesWith "func (c *Client) " ((clientMethod operation).map lineText) =
        [lineText (operation.signature.line "func (c *Client) " ", error) \x7b")] ∧
      linesWith "\tif err := c.call(" ((clientMethod operation).map lineText) =
        [lineText (callingLine operation.constantName)] ∧
      linesWith "const" ((clientMethod operation).map lineText) = [] := by
  unfold clientMethod summaryLines
  split <;>
  · simp only [clientMethodLine, Signature.line, callingLine, Operation.signature,
      List.map_append, List.map_cons, List.map_nil, lineText_fixed, lineText_cons, Part.render,
      linesWith]
    repeat rewrite [String.toList_ofList]
    exact ⟨rfl, rfl, rfl⟩

end Artifact

/-- A model whose texts stay on one line each in the files about calls. -/
structure Model.KeepsLines (model : Model) : Prop where
  generatedAt : Source.IsInertText model.generatedAt
  package : '\n' ∉ model.package.toList
  protoImport : '\n' ∉ model.protoImport.toList
  operations : ∀ operation ∈ model.operations, operation.KeepsLines

namespace Artifact

variable {model : Model}

/-- Where the lines for each operation are unbroken, those for all of them are. -/
theorem unbroken_flatMap
    {operations : List Operation}
    {write : Operation → List Line}
    (unbroken : ∀ operation ∈ operations, ∀ line ∈ (write operation).map lineText, '\n' ∉ line) :
    ∀ line ∈ (operations.flatMap write).map lineText, '\n' ∉ line := by
  rw [List.map_flatMap]
  intro line member
  obtain ⟨operation, isOperation, isLine⟩ := List.mem_flatMap.mp member
  exact unbroken operation isOperation line isLine

theorem unbroken_constantLine
    {operation : Operation}
    (keeps : operation.KeepsLines) :
    '\n' ∉ lineText (constantLine operation) := by
  simp [constantLine, lineText_cons, Part.render, keeps.constantName, keeps.path]

theorem unbroken_clientMethod
    {operation : Operation}
    (keeps : operation.KeepsLines) :
    ∀ line ∈ (clientMethod operation).map lineText, '\n' ∉ line := by
  unfold clientMethod summaryLines
  split <;>
    simp [clientMethodLine, lineText_fixed, lineText_cons, Part.render, keeps.methodName,
      keeps.path, keeps.constantName, keeps.summary, keeps.requestType, keeps.responseType]

theorem unbroken_client
    (keeps : model.KeepsLines) :
    ∀ line ∈ texts .client model, '\n' ∉ line := by
  have above : ∀ line ∈ (clientAbove model).map lineText, '\n' ∉ line := by
    unfold clientAbove messageImport
    split <;> simp [lineText_fixed, lineText_text, keeps.package, keeps.protoImport]
  have constants : ∀ line ∈ (constantBlock model).map lineText, '\n' ∉ line := by
    unfold constantBlock
    split
    · simp
    · have declared : ∀ line ∈ (model.operations.map constantLine).map lineText, '\n' ∉ line := by
        simpa using fun operation member =>
          unbroken_constantLine (keeps.operations operation member)
      simp only [List.map_append, List.forall_mem_append]
      exact ⟨⟨by simp [lineText_fixed], declared⟩, by simp [lineText_fixed]⟩
  have core : ∀ line ∈ clientCore.map lineText, '\n' ∉ line := by
    simp only [clientCore, clientType, clientError, clientCall, List.map_append, List.map_cons,
      List.map_nil, lineText_fixed, lineText_cons, Part.render]
    repeat rewrite [String.toList_ofList]
    decide
  have methods := unbroken_flatMap fun operation member =>
    unbroken_clientMethod (keeps.operations operation member)
  rw [texts, lines_client]
  simp only [List.map_append, List.forall_mem_append]
  exact ⟨⟨⟨above, constants⟩, core⟩, methods⟩

/-- The lines of a source stand below a comment and an empty line. -/
theorem textLines_of_slashes
    {artifact : Artifact}
    (slashes : artifact.comment.mark = "//")
    (inert : Source.IsInertText model.generatedAt)
    (oneLine : ∀ line ∈ artifact.texts model, '\n' ∉ line) :
    ∃ heading,
      artifact.textLines model = ('/' :: heading) :: [] :: artifact.texts model ++ [[]] := by
  obtain ⟨heading, starts⟩ :
      ∃ heading, (artifact.header model.generatedAt).toList = '/' :: heading := by
    unfold header
    rw [slashes]
    cases artifact.durability <;> simp [ToString.toString]
  exact ⟨heading, starts ▸ artifact.textLines_eq inert oneLine⟩

/-- What the client declares and calls, as its text has it. -/
theorem linesWith_client
    (keeps : model.KeepsLines) :
    linesWith "const" (client.textLines model) =
        (if model.operations = [] then [] else ["const (".toList]) ∧
      linesWith "func (c *Client) " (client.textLines model) =
        callOpening.toList :: (model.operations.map fun operation =>
          lineText (operation.signature.line "func (c *Client) " ", error) \x7b")) ∧
      linesWith "\tif err := c.call(" (client.textLines model) =
        model.operations.map fun operation =>
          lineText (callingLine operation.constantName) := by
  obtain ⟨heading, shape⟩ :=
    @textLines_of_slashes model .client rfl keeps.generatedAt (unbroken_client keeps)
  have outside :
      linesWith "const" ['/' :: heading, []] = [] ∧
        linesWith "func (c *Client) " ['/' :: heading, []] = [] ∧
        linesWith "\tif err := c.call(" ['/' :: heading, []] = [] ∧
        linesWith "const" [[]] = [] ∧
        linesWith "func (c *Client) " [[]] = [] ∧
        linesWith "\tif err := c.call(" [[]] = [] := by
    simp only [linesWith]
    repeat rewrite [String.toList_ofList]
    exact ⟨rfl, rfl, rfl, rfl, rfl, rfl⟩
  have blocks : client.textLines model =
      ['/' :: heading, []] ++ (clientAbove model).map lineText ++
        (constantBlock model).map lineText ++ clientCore.map lineText ++
        (model.operations.flatMap clientMethod).map lineText ++ [[]] := by
    rw [shape, texts, lines_client]
    simp
  simp only [blocks, linesWith_append, linesWith_flatMap, outside, linesWith_clientAbove,
    linesWith_constantBlock keeps.operations, linesWith_clientCore, linesWith_clientMethod,
    List.nil_append, List.append_nil, List.singleton_append, List.flatMap_eq_nil_iff.mpr,
    implies_true, ← List.map_eq_flatMap, and_self]

/-- The block of constants has one line for each operation. -/
theorem blockBetween_client
    (keeps : model.KeepsLines) :
    blockBetween "const (" ")" (client.textLines model) =
      model.operations.map fun operation => lineText (constantLine operation) := by
  obtain ⟨heading, shape⟩ :=
    @textLines_of_slashes model .client rfl keeps.generatedAt (unbroken_client keeps)
  by_cases empty : model.operations = []
  · rw [empty, List.map_nil]
    have nothing := (linesWith_client keeps).1
    rw [if_pos empty] at nothing
    exact blockBetween_eq_nil (not_mem_of_linesWith_eq_nil nothing (by decide))
  · have blocks : client.textLines model =
        ['/' :: heading, []] ++ (clientAbove model).map lineText ++
            [[], "// RPC paths served by the generated handler.".toList] ++
          "const (".toList ::
            ((model.operations.map fun operation => lineText (constantLine operation)) ++
              ")".toList ::
                ((clientCore ++ model.operations.flatMap clientMethod).map lineText ++ [[]])) := by
      rw [shape, texts, lines_client, constantBlock, if_neg (by simpa using empty)]
      simp [lineText_fixed]
    rw [blocks]
    refine blockBetween_append ?_ ?_
    · unfold clientAbove messageImport
      split <;> simp [lineText_fixed, lineText_text]
    · simp [constantLine, lineText_cons, Part.render]

/-! The server, block by block. -/

/-- The lines of the server above the methods of its interface. -/
def serverAbove (model : Model) : List Line :=
  [
    [.text "package ", .text model.package],
    fixed "",
    fixed "import (",
    fixed "\t\"context\"",
    fixed "\t\"errors\"",
    fixed "\t\"io\"",
    fixed "\t\"net/http\"",
    fixed "",
    fixed "\t\"google.golang.org/protobuf/encoding/protojson\"",
    fixed "\t\"google.golang.org/protobuf/proto\""] ++
  messageImport model ++
  [
    fixed ")",
    fixed "",
    fixed "// ErrNotImplemented marks service methods that have no implementation yet.",
    [.text "var ", .declared "ErrNotImplemented", .text " = errors.New(\"not implemented\")"],
    fixed "",
    fixed "// Service is implemented by the application, one method per RPC."]

/-- The lines between the interface and the routes. -/
def handlerAbove : List Line := [
  fixed "\x7d",
  fixed "",
  fixed "// NewHandler routes every RPC path to svc.",
  [.text "func ", .declared "NewHandler", .text "(svc Service) http.Handler \x7b"]]

theorem lines_server
    (model : Model) :
    server.lines model =
      serverAbove model ++
        [.text "type ", .declared "Service", .text " interface \x7b"] ::
          (model.operations.map serviceMethodLine ++ handlerAbove ++
            fixed "\tmux := http.NewServeMux()" ::
              (model.operations.map routeLine ++
                fixed "\treturn mux" :: (fixed "\x7d" :: serverHandle))) := by
  simp only [lines, serverLines, serverAbove, handlerAbove, List.append_assoc, List.cons_append,
    List.nil_append]

theorem linesWith_serverAbove
    (model : Model) :
    linesWith "type " ((serverAbove model).map lineText) = [] ∧
      linesWith "\tmux" ((serverAbove model).map lineText) = [] := by
  unfold serverAbove messageImport
  split <;>
  · simp only [List.map_append, List.map_cons, List.map_nil, lineText_fixed, lineText_cons,
      lineText_nil, Part.render, linesWith]
    repeat rewrite [String.toList_ofList]
    exact ⟨rfl, rfl⟩

theorem unbroken_serviceMethodLine
    {operation : Operation}
    (keeps : operation.KeepsLines) :
    '\n' ∉ lineText (serviceMethodLine operation) := by
  simp [serviceMethodLine, lineText_cons, Part.render, keeps.methodName, keeps.requestType,
    keeps.responseType]

theorem unbroken_routeLine
    {operation : Operation}
    (keeps : operation.KeepsLines) :
    '\n' ∉ lineText (routeLine operation) := by
  simp [routeLine, lineText_cons, Part.render, keeps.methodName, keeps.constantName,
    keeps.requestType]

theorem unbroken_server
    (keeps : model.KeepsLines) :
    ∀ line ∈ texts .server model, '\n' ∉ line := by
  have above : ∀ line ∈ (serverAbove model).map lineText, '\n' ∉ line := by
    unfold serverAbove messageImport
    split <;>
    · simp only [List.map_append, List.map_cons, List.map_nil, lineText_fixed, lineText_cons,
        lineText_nil, Part.render]
      repeat rewrite [String.toList_ofList]
      simp [keeps.package, keeps.protoImport]
  have methods : ∀ line ∈ (model.operations.map serviceMethodLine).map lineText,
      '\n' ∉ line := by
    simpa using fun operation member =>
      unbroken_serviceMethodLine (keeps.operations operation member)
  have routes : ∀ line ∈ (model.operations.map routeLine).map lineText, '\n' ∉ line := by
    simpa using fun operation member => unbroken_routeLine (keeps.operations operation member)
  have handle : ∀ line ∈ (fixed "\x7d" :: serverHandle).map lineText, '\n' ∉ line := by
    simp only [serverHandle, List.map_cons, List.map_nil, lineText_fixed, lineText_cons,
      lineText_nil, Part.render]
    repeat rewrite [String.toList_ofList]
    decide
  have opening : '\n' ∉ lineText [.text "type ", .declared "Service", .text " interface \x7b"] := by
    simp [lineText_cons, Part.render]
  have handler : ∀ line ∈ handlerAbove.map lineText, '\n' ∉ line := by
    simp [handlerAbove, lineText_fixed, lineText_cons, Part.render]
  rw [texts, lines_server]
  simp only [List.map_append, List.map_cons, List.forall_mem_append, List.forall_mem_cons]
    at above methods handler routes handle ⊢
  exact ⟨above, opening, ⟨methods, handler⟩, by simp [lineText_fixed], routes,
    by simp [lineText_fixed], handle⟩

/-- The interface has one line for each operation. -/
theorem blockBetween_interface
    (keeps : model.KeepsLines) :
    blockBetween "type Service interface \x7b" "\x7d" (server.textLines model) =
      model.operations.map fun operation => lineText (serviceMethodLine operation) := by
  obtain ⟨heading, shape⟩ :=
    @textLines_of_slashes model .server rfl keeps.generatedAt (unbroken_server keeps)
  have blocks : server.textLines model =
      ['/' :: heading, []] ++ (serverAbove model).map lineText ++
        "type Service interface \x7b".toList ::
          ((model.operations.map fun operation => lineText (serviceMethodLine operation)) ++
            "\x7d".toList :: (handlerAbove.tail.map lineText ++
              "\tmux := http.NewServeMux()".toList ::
                ((model.operations.map routeLine ++
                  fixed "\treturn mux" :: (fixed "\x7d" :: serverHandle)).map lineText ++
                    [[]]))) := by
    rw [shape, texts, lines_server]
    simp [lineText_fixed, lineText_cons, Part.render, handlerAbove]
  have above := not_mem_of_linesWith_eq_nil (linesWith_serverAbove model).1
    (by decide : "type ".toList.isPrefixOf "type Service interface \x7b".toList = true)
  rw [blocks]
  refine blockBetween_append ?_ ?_
  · rw [List.mem_append, not_or]
    exact ⟨by simp, above⟩
  · simp [serviceMethodLine, lineText_cons, Part.render]

/-- No method of the interface is written like the line that makes the router. -/
theorem lineText_serviceMethodLine_ne
    (operation : Operation) :
    lineText (serviceMethodLine operation) ≠ "\tmux := http.NewServeMux()".toList := by
  intro same
  have endings := congrArg (fun line => line.reverse.take 2) same
  simp [serviceMethodLine, lineText_cons, Part.render] at endings

/-- The handler has one route for each operation. -/
theorem blockBetween_routes
    (keeps : model.KeepsLines) :
    blockBetween "\tmux := http.NewServeMux()" "\treturn mux" (server.textLines model) =
      model.operations.map fun operation => lineText (routeLine operation) := by
  obtain ⟨heading, shape⟩ :=
    @textLines_of_slashes model .server rfl keeps.generatedAt (unbroken_server keeps)
  have blocks : server.textLines model =
      ['/' :: heading, []] ++ (serverAbove model).map lineText ++
          ["type Service interface \x7b".toList] ++
          (model.operations.map fun operation => lineText (serviceMethodLine operation)) ++
          handlerAbove.map lineText ++
        "\tmux := http.NewServeMux()".toList ::
          ((model.operations.map fun operation => lineText (routeLine operation)) ++
            "\treturn mux".toList ::
              ((fixed "\x7d" :: serverHandle).map lineText ++ [[]])) := by
    rw [shape, texts, lines_server]
    simp [lineText_fixed, lineText_cons, Part.render, Function.comp_def]
  have above := not_mem_of_linesWith_eq_nil (linesWith_serverAbove model).2
    (by decide : "\tmux".toList.isPrefixOf "\tmux := http.NewServeMux()".toList = true)
  rw [blocks]
  refine blockBetween_append ?_ ?_
  · have noMethod : "\tmux := http.NewServeMux()".toList ∉
        model.operations.map fun operation => lineText (serviceMethodLine operation) := by
      simpa using fun operation _ => lineText_serviceMethodLine_ne operation
    simp only [List.mem_append, not_or]
    refine ⟨⟨⟨⟨?_, above⟩, ?_⟩, noMethod⟩, ?_⟩
    · simp
    · simp
    · simp [handlerAbove, lineText_fixed, lineText_cons, Part.render]
  · simp [routeLine, lineText_cons, Part.render]

/-! The service. -/

/-- The lines of the service above its methods. -/
def serviceAbove (model : Model) : List Line :=
  [[.text "package ", .text model.package]] ++
  serviceImport model ++
  [
    fixed "",
    [.text "type ", .declared "service", .text " struct\x7b\x7d"],
    fixed "",
    fixed "// NewService returns the application's Service implementation.",
    [.text "func ", .declared "NewService", .text "() Service \x7b"],
    fixed "\treturn &service\x7b\x7d",
    fixed "\x7d"]

theorem lines_service
    (model : Model) :
    service.lines model = serviceAbove model ++ model.operations.flatMap implementation := rfl

theorem linesWith_implementation
    (operation : Operation) :
    linesWith "func (s *service) " ((implementation operation).map lineText) =
      [lineText (implementationLine operation)] := by
  unfold implementation summaryLines
  split <;>
  · simp only [implementationLine, List.map_append, List.map_cons, List.map_nil, lineText_fixed,
      lineText_cons, Part.render, linesWith]
    repeat rewrite [String.toList_ofList]
    rfl

theorem unbroken_implementation
    {operation : Operation}
    (keeps : operation.KeepsLines) :
    ∀ line ∈ (implementation operation).map lineText, '\n' ∉ line := by
  unfold implementation summaryLines
  split <;>
    simp [implementationLine, lineText_fixed, lineText_cons, Part.render, keeps.methodName,
      keeps.path, keeps.summary, keeps.requestType, keeps.responseType]

theorem unbroken_service
    (keeps : model.KeepsLines) :
    ∀ line ∈ texts .service model, '\n' ∉ line := by
  have above : ∀ line ∈ (serviceAbove model).map lineText, '\n' ∉ line := by
    unfold serviceAbove serviceImport
    split <;> simp [lineText_fixed, lineText_cons, Part.render, keeps.package, keeps.protoImport]
  have methods := unbroken_flatMap fun operation member =>
    unbroken_implementation (keeps.operations operation member)
  rw [texts, lines_service, List.map_append]
  exact List.forall_mem_append.mpr ⟨above, methods⟩

/-- The service has one method for each operation. -/
theorem linesWith_service
    (keeps : model.KeepsLines) :
    linesWith "func (s *service) " (service.textLines model) =
      model.operations.map fun operation => lineText (implementationLine operation) := by
  obtain ⟨heading, shape⟩ :=
    @textLines_of_slashes model .service rfl keeps.generatedAt (unbroken_service keeps)
  have above :
      linesWith "func (s *service) " (['/' :: heading, []] ++ (serviceAbove model).map lineText) =
        [] := by
    unfold serviceAbove serviceImport
    split <;>
    · simp only [List.map_append, List.map_cons, List.map_nil, lineText_fixed, lineText_cons,
        lineText_nil, Part.render, linesWith]
      repeat rewrite [String.toList_ofList]
      rfl
  have blocks : service.textLines model =
      ['/' :: heading, []] ++ (serviceAbove model).map lineText ++
        (model.operations.flatMap implementation).map lineText ++ [[]] := by
    rw [shape, texts, lines_service]
    simp
  have below : linesWith "func (s *service) " [[]] = [] := by
    decide
  rw [blocks, linesWith_append, linesWith_append, above, below, linesWith_flatMap]
  simp only [linesWith_implementation, ← List.map_eq_flatMap, List.nil_append, List.append_nil]

end Artifact

namespace Model

open Artifact

/--
The texts of a model have the lines of its calls, and no others where calls are looked for.

The client has one block of constants, and besides the method that carries out any call one method
for each.  The handler routes nothing else, and the service has no further method.
-/
structure WritesCalls (model : Model) : Prop where
  constantBlocks :
    linesWith "const" (client.textLines model) =
      if model.operations = [] then [] else ["const (".toList]
  constants :
    blockBetween "const (" ")" (client.textLines model) =
      model.pathConstants.map fun constant => lineText constant.line
  clientMethods :
    linesWith "func (c *Client) " (client.textLines model) =
      callOpening.toList :: model.clientMethods.map fun signature =>
        lineText (signature.line "func (c *Client) " ", error) \x7b")
  calledConstants :
    linesWith "\tif err := c.call(" (client.textLines model) =
      model.calledConstants.map fun constant => lineText (callingLine constant)
  interfaceMethods :
    blockBetween "type Service interface \x7b" "\x7d" (server.textLines model) =
      model.interfaceMethods.map fun signature => lineText (signature.line "\t" ", error)")
  routings :
    blockBetween "\tmux := http.NewServeMux()" "\treturn mux" (server.textLines model) =
      model.routings.map fun routing => lineText routing.line
  serviceMethods :
    linesWith "func (s *service) " (service.textLines model) =
      model.serviceMethods.map fun signature =>
        lineText (signature.line "func (s *service) " ", error) \x7b")

/-- Where no text breaks a line, the lines of the calls are those of the texts. -/
theorem KeepsLines.writesCalls
    {model : Model}
    (keeps : model.KeepsLines) :
    model.WritesCalls := by
  obtain ⟨blocks, methods, calls⟩ := linesWith_client keeps
  constructor
  · exact blocks
  · rw [pathConstants_eq, List.map_map]
    exact blockBetween_client keeps
  · rw [clientMethods_eq, List.map_map]
    exact methods
  · rw [calledConstants_eq, List.map_map]
    exact calls
  · rw [interfaceMethods_eq, List.map_map]
    exact blockBetween_interface keeps
  · rw [routings_eq, List.map_map]
    exact blockBetween_routes keeps
  · rw [serviceMethods_eq, List.map_map]
    exact linesWith_service keeps

end Model

end RpcStubs
