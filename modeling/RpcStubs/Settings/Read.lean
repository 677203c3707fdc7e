import RpcStubs.Configuration
import RpcStubs.Data.Toml
namespace RpcStubs.Settings

open Data

/-!
# Settings from statements

A settings file has one table, `generate`, with a choice under each of its keys. Unknown
keys, wrong types and repeated keys are refused.
-/

/-- The settings with one more choice, if its key is known, free, and of the right type. -/
def choose? (settings : Settings) (key : String) (value : Toml.Value) : Option Settings :=
  match key, value with
  | "package", .text text =>
      if settings.package.isSome then none else some { settings with package := some text }
  | "output", .text text =>
      if settings.output.isSome then none else some { settings with output := some text }
  | "proto_path", .text text =>
      if settings.protoPath.isSome then none else some { settings with protoPath := some text }
  | "proto_import", .text text =>
      if settings.protoImport.isSome then
        none
      else
        some { settings with protoImport := some text }
  | "proto_package", .text text =>
      if settings.protoPackage.isSome then
        none
      else
        some { settings with protoPackage := some text }
  | "vendor", .text text =>
      if settings.vendor.isSome then none else some { settings with vendor := some text }
  | "full", .boolean flag =>
      if settings.full.isSome then none else some { settings with full := some flag }
  | _, _ => none

/-- How the table of choices has come about so far. -/
inductive Origin
  | absent
  | dotted
  | header
  | whole
deriving Repr, DecidableEq

/-- The keys of the choices, in the order in which a list gives them. -/
def choiceKeys : List String := [
  "package", "output", "proto_path", "proto_import", "proto_package", "vendor", "full"]

/-- The settings that a value for the whole table makes. -/
def whole? : Toml.Value → Option Settings
  | .table entries =>
      entries.foldlM (fun settings entry =>
        match entry.1 with
        | [key] => choose? settings key entry.2
        | _ => none) {}
  | .list items =>
      if items.length < choiceKeys.length then
        none
      else
        (choiceKeys.zip items).foldlM (fun settings choice => choose? settings choice.1 choice.2) {}
  | _ => none

/-- The settings after one more statement. -/
def step? (state : Origin × Settings) (statement : Toml.Statement) : Option (Origin × Settings) :=
  let (origin, settings) := state
  match origin, statement with
  | .absent, .header ["generate"] => some (.header, settings)
  | .absent, .assignment ["generate"] value => (whole? value).map fun all => (.whole, all)
  | .absent, .assignment ["generate", key] value =>
      (choose? settings key value).map fun chosen => (.dotted, chosen)
  | .dotted, .assignment ["generate", key] value =>
      (choose? settings key value).map fun chosen => (.dotted, chosen)
  | .header, .assignment [key] value =>
      (choose? settings key value).map fun chosen => (.header, chosen)
  | _, _ => none

/-- The settings that a text makes. -/
def ofText? (text : String) : Option Settings := do
  let statements ← Toml.read? text
  let (_, settings) ← statements.foldlM step? (.absent, {})
  return settings

end RpcStubs.Settings
