import RpcStubs.Configuration
import RpcStubs.ImportPath
import RpcStubs.Manifest
namespace RpcStubs.Configuration

open Files

/-!
# Resolving a configuration

Choices and fallbacks become a configuration: the names and paths are checked, the output
directory is found, and the module that holds it gives the import paths.
-/

/-- Whether a component is a plain name. -/
def isName : Path.Component → Bool
  | .name _ => true
  | _ => false

/-- The directory of a message file, whose path must be fit for one. -/
def protoDirectory (path : String) : Except ConfigurationFault String :=
  if path.toList.contains '\\' || !(Path.components path).all isName then
    .error (.artifactNotRelative path)
  else if Path.extension? path ≠ some "proto" then
    .error (.artifactNotProto path)
  else
    match Text.cutLast '/' path.toList with
    | some (first :: rest, _) => .ok (String.ofList (first :: rest))
    | _ => .error (.artifactAtTop path)

/-- The text of a component. -/
def componentText : Path.Component → String
  | .top => "/"
  | .here => "."
  | .up => ".."
  | .name text => text

/-- The path from a module root to an output directory. -/
def relativePath (output root : String) : Except ConfigurationFault String :=
  match Path.remainder? root output with
  | some rest => .ok (Text.join "/" ((Path.components rest).map componentText))
  | none => .error (.outsideModule output root)

/-- The configuration that checked choices make in a module. -/
def assemble (choices : Choices) (fallbacks : Fallbacks) (package output protoPath : String)
    (directory relative : String) (manifest : Manifest) : Configuration :=
  { package := package
    output := output
    moduleRoot := manifest.root
    modulePath := manifest.modulePath
    outputRelative := relative
    protoPath := protoPath
    protoImport := choices.protoImport.getD
      (ImportPath.join [manifest.modulePath, relative, directory])
    packageImport := ImportPath.join [manifest.modulePath, relative]
    protoPackage := choices.protoPackage.getD
      (ImportPath.namespaceOf protoPath (choices.vendor.getD fallbacks.vendor))
    full := choices.full }

variable {m : Type → Type} [Monad m] [Reads m]

/-- The canonical output directory, which must be there. -/
def findOutput (path : String) : m (Except ConfigurationFault String) := do
  if ← Reads.isDirectory path then
    match ← Reads.canonical path with
    | .ok output => return .ok output
    | .error cause => return .error (.outputUnresolved path cause)
  else
    return .error (.outputMissing path)

/-- The configuration that choices and fallbacks come to. -/
def resolve (choices : Choices) (fallbacks : Fallbacks) :
    m (Except Failure Configuration) := do
  let package := choices.package.getD fallbacks.package
  let protoPath := choices.protoPath.getD fallbacks.protoPath
  match Package.fault? package fallbacks.reservedPackage with
  | some fault => return .error (.configuration (.package fault))
  | none =>
      match ← findOutput (choices.output.getD fallbacks.output) with
      | .error fault => return .error (.configuration fault)
      | .ok output =>
          match protoDirectory protoPath with
          | .error fault => return .error (.configuration fault)
          | .ok directory =>
              match ← Manifest.discover output fallbacks.manifest with
              | .error failure => return .error failure
              | .ok manifest =>
                  match relativePath output manifest.root with
                  | .error fault => return .error (.configuration fault)
                  | .ok relative =>
                      return .ok (assemble choices fallbacks package output protoPath
                        directory relative manifest)

end RpcStubs.Configuration
