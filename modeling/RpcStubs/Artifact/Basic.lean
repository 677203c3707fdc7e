import RpcStubs.Files.Path
import RpcStubs.Model
namespace RpcStubs

/-!
# Artifacts

The files that a run may generate: where each lands, who owns it, what happens to a copy
that is already there, and when it takes part.
-/

/-- The files that a run may generate, in the order of rendering. -/
inductive Artifact
  | client
  | server
  | pagination
  | proto
  | daemon
  | service
  | serviceTest
  | makefile
  | buf
  | bufGen
deriving Repr, DecidableEq

/-- Who owns a file after generation: the tool, or whoever edits it. -/
inductive Durability
  | regenerated
  | scaffolded
deriving Repr, DecidableEq

/-- What to do when a file is already there. -/
inductive WritePolicy
  | overwrite
  | skipIfExists
deriving Repr, DecidableEq

/-- The directory below which a file lands. -/
inductive Destination
  | outputDirectory
  | moduleRoot
deriving Repr, DecidableEq

/-- When a file takes part in a run. -/
inductive Condition
  | always
  | hasLists
  | full
deriving Repr, DecidableEq

/-- How a line comment starts. -/
inductive Comment
  | slashes
  | hash
deriving Repr, DecidableEq

/-- The characters that start a line comment. -/
def Comment.mark : Comment → String
  | .slashes => "//"
  | .hash => "#"

namespace Artifact

/-- Every artifact, in the order of rendering. -/
def all : List Artifact := [
  client, server, pagination, proto, daemon, service, serviceTest, makefile, buf, bufGen]

/-- The name by which an artifact is known. -/
def name : Artifact → String
  | client => "client"
  | server => "server"
  | pagination => "pagination"
  | proto => "proto"
  | daemon => "daemon"
  | service => "service"
  | serviceTest => "service_test"
  | makefile => "makefile"
  | buf => "buf"
  | bufGen => "buf_gen"

/-- The name of the template of an artifact. -/
def template : Artifact → String
  | client => "client.go"
  | server => "server.go"
  | pagination => "pagination.go"
  | proto => "api.proto"
  | daemon => "main.go"
  | service => "service.go"
  | serviceTest => "service_test.go"
  | makefile => "Makefile"
  | buf => "buf.yaml"
  | bufGen => "buf.gen.yaml"

/-- The path of an artifact below its directory. -/
def relativePath (configuration : Configuration) : Artifact → String
  | client => "client.go"
  | server => "server.go"
  | pagination => "pagination.go"
  | proto => configuration.protoPath
  | daemon => "cmd/server/main.go"
  | service => "service.go"
  | serviceTest => "service_test.go"
  | makefile => "Makefile"
  | buf => "buf.yaml"
  | bufGen => "buf.gen.yaml"

/-- Who owns an artifact. -/
def durability : Artifact → Durability
  | client | server | pagination | proto => .regenerated
  | daemon | service | serviceTest | makefile | buf | bufGen => .scaffolded

/-- What to do when an artifact is already there. -/
def policy : Artifact → WritePolicy
  | buf | bufGen => .skipIfExists
  | _ => .overwrite

/-- The directory below which an artifact lands. -/
def destination : Artifact → Destination
  | makefile => .moduleRoot
  | _ => .outputDirectory

/-- When an artifact takes part in a run. -/
def condition : Artifact → Condition
  | client | server | proto => .always
  | pagination => .hasLists
  | daemon | service | serviceTest | makefile | buf | bufGen => .full

/-- How line comments start in an artifact. -/
def comment : Artifact → Comment
  | makefile | buf | bufGen => .hash
  | _ => .slashes

/-- Whether an artifact takes part in a run over a model. -/
def isSelected (model : Model) (artifact : Artifact) : Bool :=
  match artifact.condition with
  | .always => true
  | .hasLists => !model.lists.isEmpty
  | .full => model.full

/-- The artifacts of a run, in the order of rendering. -/
def selected (model : Model) : List Artifact :=
  all.filter (isSelected model)

/-- The artifact of a name. -/
def ofName? (name : String) : Option Artifact :=
  all.find? fun artifact => artifact.name = name

/-- The path at which an artifact lands. -/
def target (configuration : Configuration) (artifact : Artifact) : String :=
  let base := match artifact.destination with
    | .outputDirectory => configuration.output
    | .moduleRoot => configuration.moduleRoot
  Files.Path.join base (artifact.relativePath configuration)

/-- The first line of an artifact. -/
def header (artifact : Artifact) (generatedAt : String) : String :=
  let mark := artifact.comment.mark
  match artifact.durability with
  | .regenerated => s!"{mark} Code generated by oasrpc at {generatedAt}. DO NOT EDIT."
  | .scaffolded =>
      s!"{mark} Generated by oasrpc at {generatedAt}. Safe to edit; " ++
        "regeneration replaces this file wholesale."

end Artifact

end RpcStubs
