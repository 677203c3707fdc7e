import RpcStubs.Artifact.Client
namespace RpcStubs.Artifact

/-!
# The server

The file with the interface of the service and a handler that routes every path to it.
-/

/-- The line of an operation in the interface of the service. -/
def serviceMethodLine (operation : Operation) : Line :=
  [.text "\t", .method operation.methodName, .text "(ctx context.Context, req *",
    .message operation.requestType, .text ") (*", .message operation.responseType,
    .text ", error)"]

/-- The line that routes the path of an operation to its method. -/
def routeLine (operation : Operation) : Line :=
  [.text "\tmux.Handle(", .constant operation.constantName, .text ", handle(func() *",
    .message operation.requestType, .text " \x7b return &", .message operation.requestType,
    .text "\x7b\x7d \x7d, svc.", .method operation.methodName, .text "))"]

/-- The function that answers a request with the method of an operation. -/
def serverHandle : List Line := [
  fixed "",
  [.text "func ", .declared "handle",
    .text "[Req proto.Message, Resp proto.Message](newReq func() Req, call func(context.Context, Req) (Resp, error)) http.HandlerFunc \x7b"],
  fixed "\treturn func(w http.ResponseWriter, r *http.Request) \x7b",
  fixed "\t\tif r.Method != http.MethodPost \x7b",
  fixed "\t\t\tw.Header().Set(\"Allow\", http.MethodPost)",
  fixed "\t\t\thttp.Error(w, \"method not allowed\", http.StatusMethodNotAllowed)",
  fixed "\t\t\treturn",
  fixed "\t\t\x7d",
  fixed "\t\tbody, err := io.ReadAll(r.Body)",
  fixed "\t\tif err != nil \x7b",
  fixed "\t\t\thttp.Error(w, \"cannot read request\", http.StatusBadRequest)",
  fixed "\t\t\treturn",
  fixed "\t\t\x7d",
  fixed "\t\treq := newReq()",
  fixed "\t\tif err := protojson.Unmarshal(body, req); err != nil \x7b",
  fixed "\t\t\thttp.Error(w, \"malformed request: \"+err.Error(), http.StatusBadRequest)",
  fixed "\t\t\treturn",
  fixed "\t\t\x7d",
  fixed "",
  fixed "\t\tresp, err := call(r.Context(), req)",
  fixed "\t\tif errors.Is(err, ErrNotImplemented) \x7b",
  fixed "\t\t\thttp.Error(w, err.Error(), http.StatusNotImplemented)",
  fixed "\t\t\treturn",
  fixed "\t\t\x7d",
  fixed "\t\tif err != nil \x7b",
  fixed "\t\t\thttp.Error(w, err.Error(), http.StatusInternalServerError)",
  fixed "\t\t\treturn",
  fixed "\t\t\x7d",
  fixed "",
  fixed "\t\tpayload, err := protojson.Marshal(resp)",
  fixed "\t\tif err != nil \x7b",
  fixed "\t\t\thttp.Error(w, \"cannot encode response\", http.StatusInternalServerError)",
  fixed "\t\t\treturn",
  fixed "\t\t\x7d",
  fixed "\t\tw.Header().Set(\"Content-Type\", \"application/json\")",
  fixed "\t\t_, _ = w.Write(payload)",
  fixed "\t\x7d",
  fixed "\x7d"]

/-- The lines of the server. -/
def serverLines (model : Model) : List Line :=
  [
    [.text "package ", .text model.package],
    fixed "",
    fixed "import (",
    fixed "\t\"context\"",
    fixed "\t\"errors\"",
    fixed "\t\"io\"",
    fixed "\t\"net/http\"",
    fixed "",
    fixed "\t\"google.golang.org/protobuf/encoding/protojson\"",
    fixed "\t\"google.golang.org/protobuf/proto\""] ++
  messageImport model ++
  [
    fixed ")",
    fixed "",
    fixed "// ErrNotImplemented marks service methods that have no implementation yet.",
    [.text "var ", .declared "ErrNotImplemented", .text " = errors.New(\"not implemented\")"],
    fixed "",
    fixed "// Service is implemented by the application, one method per RPC.",
    [.text "type ", .declared "Service", .text " interface \x7b"]] ++
  model.operations.map serviceMethodLine ++
  [
    fixed "\x7d",
    fixed "",
    fixed "// NewHandler routes every RPC path to svc.",
    [.text "func ", .declared "NewHandler", .text "(svc Service) http.Handler \x7b"],
    fixed "\tmux := http.NewServeMux()"] ++
  model.operations.map routeLine ++
  [
    fixed "\treturn mux",
    fixed "\x7d"] ++
  serverHandle

end RpcStubs.Artifact
