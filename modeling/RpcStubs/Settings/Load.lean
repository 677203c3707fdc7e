import RpcStubs.Failure
import RpcStubs.Files.Access
import RpcStubs.Settings.Read
namespace RpcStubs.Settings

open Files

/-!
# Settings files

A settings file is given, or searched for from a directory upward. The output directory
that it names is meant from its own directory.
-/

/-- The name of a settings file that is searched for. -/
def fileName : String := "oasrpc.toml"

/-- The settings of a file, with the output directory as seen from where the file is. -/
def placed (path : String) (settings : Settings) : Settings :=
  { settings with
    output := settings.output.map fun output => Path.join ((Path.parent? path).getD "") output }

variable {m : Type → Type} [Monad m] [Reads m]

/-- The settings of a file. -/
def load (path : String) : m (Except Failure Settings) := do
  match ← readText path with
  | .error cause => return .error (.configuration (.settingsUnreadable path cause))
  | .ok text =>
      match ofText? text with
      | none => return .error (.configuration (.settingsInvalid path))
      | some settings => return .ok (placed path settings)

/-- The settings of the nearest file in a directory or above it, if there is one. -/
def discover (start : String) : m (Except Failure (Option Settings)) := do
  match ← findUpward start fileName with
  | none => return .ok none
  | some path =>
      match ← load path with
      | .ok settings => return .ok (some settings)
      | .error failure => return .error failure

end RpcStubs.Settings
