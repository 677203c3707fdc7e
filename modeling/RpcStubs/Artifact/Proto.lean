import RpcStubs.Artifact.Line
import RpcStubs.Model
namespace RpcStubs.Artifact

/-!
# The message file

The file that declares every message that operations exchange.
-/

/-- The declaration of a message. -/
def messageDeclaration (name : String) : List Line := [
  fixed "",
  [.text "message ", .text name, .text " \x7b\x7d"]]

/-- The lines of the message file. -/
def protoLines (model : Model) : List Line :=
  [
    fixed "syntax = \"proto3\";",
    fixed "",
    [.text "package ", .text model.protoPackage, .text ";"],
    fixed "",
    [.text "option go_package = \"", .text model.protoImport, .text "\";"]] ++
  model.messages.flatMap messageDeclaration

end RpcStubs.Artifact
