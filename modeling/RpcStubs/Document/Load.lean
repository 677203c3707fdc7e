import RpcStubs.Data.Yaml
import RpcStubs.Document.Decode
import RpcStubs.Failure
import RpcStubs.Files.Access
namespace RpcStubs.Document

open Data Files

/-!
# Document files

The extension of a file says which format it has; without a known one, both are tried.
-/

/-- The format of a file. -/
def formatOf (path : String) : Format :=
  match Path.extension? path with
  | some "json" => .json
  | some "yaml" => .yaml
  | some "yml" => .yaml
  | _ => .either

/-- The document in a JSON text. -/
def ofJson? (text : String) : Option Document :=
  (Json.read? text).bind ofNode?

/-- The document in a YAML text. -/
def ofYaml? (text : String) : Option Document :=
  (Yaml.read? text).bind ofNode?

/-- The document in a text of a format. -/
def ofText? (format : Format) (text : String) : Option Document :=
  match format with
  | .json => ofJson? text
  | .yaml => ofYaml? text
  | .either => ofJson? text <|> ofYaml? text

/-- The document in a file. -/
def load {m : Type → Type} [Monad m] [Reads m] (path : String) :
    m (Except Failure Document) := do
  match ← readText path with
  | .error cause => return .error (.load (.unreadable path cause))
  | .ok text =>
      match ofText? (formatOf path) text with
      | some document => return .ok document
      | none => return .error (.load (.malformed (formatOf path) path))

end RpcStubs.Document
