import RpcStubs.Artifact.Client
namespace RpcStubs.Artifact

/-!
# The service scaffold

The files from which an application starts: a service without implementation, its tests,
and a daemon that serves it.
-/

/-- The lines of the daemon. -/
def daemonLines (model : Model) : List Line := [
  fixed "package main",
  fixed "",
  fixed "import (",
  fixed "\t\"flag\"",
  fixed "\t\"log\"",
  fixed "\t\"net/http\"",
  fixed "",
  [.text "\t", .text model.package, .text " \"", .text model.packageImport, .text "\""],
  fixed ")",
  fixed "",
  fixed "func main() \x7b",
  fixed "\taddr := flag.String(\"addr\", \":8080\", \"listen address\")",
  fixed "\tflag.Parse()",
  fixed "",
  [.text "\thandler := ", .text model.package, .text ".NewHandler(", .text model.package,
    .text ".NewService())"],
  [.text "\tlog.Printf(\"serving ", .text (toString model.operations.length),
    .text " RPCs on %s\", *addr)"],
  fixed "\tlog.Fatal(http.ListenAndServe(*addr, handler))",
  fixed "\x7d"]

/-- The imports of the service, when it has operations. -/
def serviceImport (model : Model) : List Line :=
  if model.operations.isEmpty then
    []
  else
    [
      fixed "",
      fixed "import (",
      fixed "\t\"context\"",
      fixed "",
      [.text "\tpb \"", .text model.protoImport, .text "\""],
      fixed ")"]

/-- The line that opens the service method of an operation. -/
def implementationLine (operation : Operation) : Line :=
  [.text "func (s *service) ", .method operation.methodName, .text "(ctx context.Context, req *",
    .message operation.requestType, .text ") (*", .message operation.responseType,
    .text ", error) \x7b"]

/-- The service method of an operation. -/
def implementation (operation : Operation) : List Line :=
  [
    fixed "",
    [.text "// ", .text operation.methodName, .text " handles ", .text operation.path, .text "."]] ++
  summaryLines operation ++
  [
    implementationLine operation,
    fixed "\treturn nil, ErrNotImplemented",
    fixed "\x7d"]

/-- The lines of the service. -/
def serviceLines (model : Model) : List Line :=
  [[.text "package ", .text model.package]] ++
  serviceImport model ++
  [
    fixed "",
    [.text "type ", .declared "service", .text " struct\x7b\x7d"],
    fixed "",
    fixed "// NewService returns the application's Service implementation.",
    [.text "func ", .declared "NewService", .text "() Service \x7b"],
    fixed "\treturn &service\x7b\x7d",
    fixed "\x7d"] ++
  model.operations.flatMap implementation

/-- The imports of the service tests. -/
def testImport (model : Model) : List Line :=
  if model.operations.isEmpty then
    [
      fixed "",
      fixed "import \"testing\""]
  else
    [
      fixed "",
      fixed "import (",
      fixed "\t\"context\"",
      fixed "\t\"errors\"",
      fixed "\t\"testing\"",
      fixed "",
      [.text "\tpb \"", .text model.protoImport, .text "\""],
      fixed ")"]

/-- The test of an operation. -/
def operationTest (operation : Operation) : List Line := [
  fixed "",
  [.text "func ", .declared ("Test" ++ operation.methodName), .text "(t *testing.T) \x7b"],
  fixed "\tsvc := NewService()",
  [.text "\t_, err := svc.", .method operation.methodName, .text "(context.Background(), &",
    .message operation.requestType, .text "\x7b\x7d)"],
  fixed "\tif !errors.Is(err, ErrNotImplemented) \x7b",
  [.text "\t\tt.Skipf(\"", .text operation.methodName,
    .text " is implemented; replace this test: %v\", err)"],
  fixed "\t\x7d",
  fixed "\x7d"]

/-- The lines of the service tests. -/
def serviceTestLines (model : Model) : List Line :=
  [[.text "package ", .text model.package]] ++
  testImport model ++
  [
    fixed "",
    [.text "func ", .declared "TestNewService", .text "(t *testing.T) \x7b"],
    fixed "\tif NewService() == nil \x7b",
    fixed "\t\tt.Fatal(\"NewService returned nil\")",
    fixed "\t\x7d",
    fixed "\x7d"] ++
  model.operations.flatMap operationTest

end RpcStubs.Artifact
