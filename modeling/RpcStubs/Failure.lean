import RpcStubs.Files.Fault
import RpcStubs.Package
namespace RpcStubs

/-!
# Failures

Why generation fails, as causes, each with its wording.
-/

/-- The two sides of an operation. -/
inductive Side
  | request
  | response
deriving Repr, DecidableEq

/-- The side in words. -/
def Side.text : Side → String
  | .request => "request"
  | .response => "response"

/-- What is wrong with the configuration of a run. -/
inductive ConfigurationFault
  | package (fault : PackageFault)
  | outputMissing (path : String)
  | outputUnresolved (path : String) (cause : Files.Fault)
  | artifactNotRelative (path : String)
  | artifactNotProto (path : String)
  | artifactAtTop (path : String)
  | outsideModule (output root : String)
  | settingsUnreadable (path : String) (cause : Files.Fault)
  | settingsInvalid (path : String)
deriving Repr, DecidableEq

/-- The fault in words. -/
def ConfigurationFault.message : ConfigurationFault → String
  | .package fault => fault.message
  | .outputMissing path =>
      s!"output directory {path} does not exist or is not a directory"
  | .outputUnresolved path cause =>
      s!"cannot resolve output directory {path}: {cause.message}"
  | .artifactNotRelative path =>
      s!"artifact path '{path}' must be a relative '/'-separated path without '..'"
  | .artifactNotProto path => s!"artifact path '{path}' must end in .proto"
  | .artifactAtTop path =>
      s!"artifact path '{path}' must live in a subdirectory of the output directory"
  | .outsideModule output root =>
      s!"output directory {output} is outside module root {root}"
  | .settingsUnreadable path cause => s!"cannot read settings {path}: {cause.message}"
  | .settingsInvalid path => s!"invalid settings {path}"

/-- Why no module declaration is found. -/
inductive ManifestFault
  | absent (file start : String)
  | unreadable (path : String) (cause : Files.Fault)
  | undeclared (path : String)
deriving Repr, DecidableEq

/-- The fault in words. -/
def ManifestFault.message : ManifestFault → String
  | .absent file start => s!"no {file} found in {start} or any parent directory"
  | .unreadable path cause => s!"cannot read {path}: {cause.message}"
  | .undeclared path => s!"{path} has no module declaration"

/-- The format that a document could not be read as. -/
inductive Format
  | json
  | yaml
  | either
deriving Repr, DecidableEq

/-- The format in words. -/
def Format.text : Format → String
  | .json => "JSON"
  | .yaml => "YAML"
  | .either => "OpenAPI spec"

/-- Why a document is not loaded. -/
inductive LoadFault
  | unreadable (path : String) (cause : Files.Fault)
  | malformed (written : Format) (path : String)
deriving Repr, DecidableEq

/-- The fault in words. -/
def LoadFault.message : LoadFault → String
  | .unreadable path cause => s!"Failed to read {path}: {cause.message}"
  | .malformed written path => s!"Failed to parse {written.text} {path}"

/-- Why a run fails. -/
inductive Failure
  | configuration (fault : ConfigurationFault)
  | manifest (fault : ManifestFault)
  | route (path : String)
  | inlineSchema (path : String) (side : Side)
  | render (place message : String)
  | write (path : String) (cause : Files.Fault)
  | load (fault : LoadFault)
deriving Repr, DecidableEq

namespace Failure

/-- The failure in words. -/
def message : Failure → String
  | configuration fault => "Invalid configuration: " ++ fault.message
  | manifest fault => "Module declaration not found: " ++ fault.message
  | route path => s!"Invalid RPC path '{path}': expected /v<N>/<subject>.<method>"
  | inlineSchema path side =>
      s!"Operation {path} declares an inline {side.text} schema; use a named schema under " ++
        "#/components/schemas"
  | render place message => s!"Render error in {place}: {message}"
  | write path cause => s!"Failed to write {path}: {cause.message}"
  | load fault => "OpenAPI loading error: " ++ fault.message

/-- Whether a failure ends the run; a malformed path only drops its operation. -/
def isFatal : Failure → Bool
  | route _ => false
  | _ => true

end Failure

end RpcStubs
