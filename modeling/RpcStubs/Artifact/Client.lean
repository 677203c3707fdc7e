import RpcStubs.Artifact.Line
import RpcStubs.Model
namespace RpcStubs.Artifact

/-!
# The client

The file with the constants for all paths and a client with one method per operation.
-/

/-- The import of the messages, when there are operations to use them. -/
def messageImport (model : Model) : List Line :=
  if model.operations.isEmpty then
    []
  else
    [
      fixed "",
      [.text "\tpb \"", .text model.protoImport, .text "\""]]

/-- The line that declares the constant of an operation. -/
def constantLine (operation : Operation) : Line :=
  [.text "\t", .declared operation.constantName, .text " = \"", .path operation.path, .text "\""]

/-- The constants of all operations. -/
def constantBlock (model : Model) : List Line :=
  if model.operations.isEmpty then
    []
  else
    [
      fixed "",
      fixed "// RPC paths served by the generated handler.",
      fixed "const ("] ++
    model.operations.map constantLine ++
    [fixed ")"]

/-- The client type and its constructor. -/
def clientType : List Line := [
  fixed "",
  fixed "// Client calls the API over HTTP, one POST per RPC.",
  [.text "type ", .declared "Client", .text " struct \x7b"],
  fixed "\tbaseURL    string",
  fixed "\thttpClient *http.Client",
  fixed "\x7d",
  fixed "",
  fixed "// NewClient returns a client for baseURL. A nil httpClient uses http.DefaultClient.",
  [.text "func ", .declared "NewClient",
    .text "(baseURL string, httpClient *http.Client) *Client \x7b"],
  fixed "\tif httpClient == nil \x7b",
  fixed "\t\thttpClient = http.DefaultClient",
  fixed "\t\x7d",
  fixed "\treturn &Client\x7bbaseURL: strings.TrimRight(baseURL, \"/\"), httpClient: httpClient\x7d",
  fixed "\x7d"]

/-- The error that the client reports for a refused call. -/
def clientError : List Line := [
  fixed "",
  fixed "// Error is returned for any non-2xx response.",
  [.text "type ", .declared "Error", .text " struct \x7b"],
  fixed "\tStatus int",
  fixed "\tBody   string",
  fixed "\x7d",
  fixed "",
  fixed "func (e *Error) Error() string \x7b",
  fixed "\treturn fmt.Sprintf(\"rpc error: status %d: %s\", e.Status, e.Body)",
  fixed "\x7d"]

/-- The method that carries out any call. -/
def clientCall : List Line := [
  fixed "",
  fixed "func (c *Client) call(ctx context.Context, path string, req, resp proto.Message) error \x7b",
  fixed "\tpayload, err := protojson.Marshal(req)",
  fixed "\tif err != nil \x7b",
  fixed "\t\treturn fmt.Errorf(\"encode request: %w\", err)",
  fixed "\t\x7d",
  fixed "\thttpReq, err := http.NewRequestWithContext(ctx, http.MethodPost, c.baseURL+path, bytes.NewReader(payload))",
  fixed "\tif err != nil \x7b",
  fixed "\t\treturn err",
  fixed "\t\x7d",
  fixed "\thttpReq.Header.Set(\"Content-Type\", \"application/json\")",
  fixed "",
  fixed "\thttpResp, err := c.httpClient.Do(httpReq)",
  fixed "\tif err != nil \x7b",
  fixed "\t\treturn err",
  fixed "\t\x7d",
  fixed "\tdefer httpResp.Body.Close()",
  fixed "",
  fixed "\tbody, err := io.ReadAll(httpResp.Body)",
  fixed "\tif err != nil \x7b",
  fixed "\t\treturn fmt.Errorf(\"read response: %w\", err)",
  fixed "\t\x7d",
  fixed "\tif httpResp.StatusCode < 200 || httpResp.StatusCode > 299 \x7b",
  fixed "\t\treturn &Error\x7bStatus: httpResp.StatusCode, Body: string(body)\x7d",
  fixed "\t\x7d",
  fixed "\treturn protojson.Unmarshal(body, resp)",
  fixed "\x7d"]

/-- The comment line of a summary, when there is one. -/
def summaryLines (operation : Operation) : List Line :=
  if operation.summary = "" then
    []
  else
    [[.text "// ", .text operation.summary]]

/-- The line that opens the client method of an operation. -/
def clientMethodLine (operation : Operation) : Line :=
  [.text "func (c *Client) ", .method operation.methodName, .text "(ctx context.Context, req *",
    .message operation.requestType, .text ") (*", .message operation.responseType,
    .text ", error) \x7b"]

/-- The client method of an operation. -/
def clientMethod (operation : Operation) : List Line :=
  [
    fixed "",
    [.text "// ", .text operation.methodName, .text " calls ", .text operation.path, .text "."]] ++
  summaryLines operation ++
  [
    clientMethodLine operation,
    [.text "\tresp := &", .message operation.responseType, .text "\x7b\x7d"],
    [.text "\tif err := c.call(ctx, ", .constant operation.constantName,
      .text ", req, resp); err != nil \x7b"],
    fixed "\t\treturn nil, err",
    fixed "\t\x7d",
    fixed "\treturn resp, nil",
    fixed "\x7d"]

/-- The lines of the client. -/
def clientLines (model : Model) : List Line :=
  [
    [.text "package ", .text model.package],
    fixed "",
    fixed "import (",
    fixed "\t\"bytes\"",
    fixed "\t\"context\"",
    fixed "\t\"fmt\"",
    fixed "\t\"io\"",
    fixed "\t\"net/http\"",
    fixed "\t\"strings\"",
    fixed "",
    fixed "\t\"google.golang.org/protobuf/encoding/protojson\"",
    fixed "\t\"google.golang.org/protobuf/proto\""] ++
  messageImport model ++
  [fixed ")"] ++
  constantBlock model ++
  clientType ++
  clientError ++
  clientCall ++
  model.operations.flatMap clientMethod

end RpcStubs.Artifact
