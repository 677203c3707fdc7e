import RpcStubs.Artifact.Line
import RpcStubs.Model
namespace RpcStubs.Artifact

/-!
# The build scaffold

The files that build, test and run what is generated.
-/

/-- The directory of the daemon as seen from the module root. -/
def daemonDirectory (model : Model) : String :=
  if model.outputRelative = "." then
    "./cmd/server"
  else
    "./" ++ model.outputRelative ++ "/cmd/server"

/-- The lines of the makefile. -/
def makefileLines (model : Model) : List Line := [
  [.text "PROTO_DIR := ", .text model.outputRelative],
  fixed "",
  fixed ".PHONY: all generate build test run",
  fixed "",
  fixed "all: generate build",
  fixed "",
  fixed "generate:",
  fixed "\tcd $(PROTO_DIR) && buf generate",
  fixed "",
  fixed "build:",
  fixed "\tgo build ./...",
  fixed "",
  fixed "test:",
  fixed "\tgo test ./...",
  fixed "",
  fixed "run:",
  [.text "\tgo run ", .text (daemonDirectory model)]]

/-- The lines of the module settings for the message compiler. -/
def bufLines (model : Model) : List Line := [
  fixed "version: v2",
  fixed "modules:",
  [.text "  - path: ", .text model.protoRoot],
  fixed "lint:",
  fixed "  use:",
  fixed "    - STANDARD",
  fixed "breaking:",
  fixed "  use:",
  fixed "    - FILE"]

/-- The lines of the plugin settings for the message compiler. -/
def bufGenLines (model : Model) : List Line := [
  fixed "version: v2",
  fixed "plugins:",
  fixed "  - remote: buf.build/protocolbuffers/go",
  [.text "    out: ", .text model.protoRoot],
  fixed "    opt: paths=source_relative"]

end RpcStubs.Artifact
