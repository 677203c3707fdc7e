import RpcStubs.Artifact.Basic
import RpcStubs.Artifact.Build
import RpcStubs.Artifact.Pagination
import RpcStubs.Artifact.Proto
import RpcStubs.Artifact.Server
import RpcStubs.Artifact.Service
import RpcStubs.Template
namespace RpcStubs.Artifact

/-!
# Rendering

The text of an artifact: its header, an empty line, and its body.
-/

/-- The lines of the body of an artifact. -/
def lines (artifact : Artifact) (model : Model) : List Line :=
  match artifact with
  | client => clientLines model
  | server => serverLines model
  | pagination => paginationLines model
  | proto => protoLines model
  | daemon => daemonLines model
  | service => serviceLines model
  | serviceTest => serviceTestLines model
  | makefile => makefileLines model
  | buf => bufLines model
  | bufGen => bufGenLines model

/-- A header and a body with an empty line between them; the body starts with no empty line. -/
def withHeader (header body : String) : String :=
  header ++ "\n\n" ++ String.ofList (body.toList.dropWhile (· == '\n'))

/-- The text of an artifact. -/
def render (artifact : Artifact) (model : Model) : String :=
  withHeader (artifact.header model.generatedAt) (textOf (artifact.lines model))

/-- Templates under their names, the last one first. -/
def parseTemplates (sources : List (String × String)) :
    Except Failure (List (String × Template)) :=
  sources.foldlM (fun parsed source =>
    match Template.parse? source.2 with
    | some template => .ok ((source.1, template) :: parsed)
    | none => .error (.render "templates" "Failed to parse templates")) []

/-- What is told about a field that the model does not have. -/
def unknownField (template name : String) : String :=
  s!"Failed to render '{template}': Variable \x60{name}\x60 not found in context while " ++
    s!"rendering '{template}'"

/-- The text of an artifact whose body comes from the template of its name. -/
def renderWith (sources : List (String × String)) (artifact : Artifact) (model : Model) :
    Except Failure String := do
  match (← parseTemplates sources).lookup artifact.template with
  | some template =>
      match template.render model with
      | .ok body =>
          return withHeader (artifact.header model.generatedAt) (String.ofList body)
      | .error name => throw (.render artifact.name (unknownField artifact.template name))
  | none =>
      throw (.render artifact.name s!"Template '{artifact.template}' not found")

end RpcStubs.Artifact
