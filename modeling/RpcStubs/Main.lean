import RpcStubs.CommandLine.Program
import Std.Time.DateTime.Timestamp
namespace RpcStubs

/-!
# The program on real files

The questions and changes that the program needs, answered by the files of the machine.
-/

/-- The fault that an error of the machine stands for. -/
def faultOf : IO.Error → Files.Fault
  | .noFileOrDirectory _ _ _ => .notFound
  | .permissionDenied _ _ _ => .denied
  | .alreadyExists _ 17 _ => .present
  | .inappropriateType _ 20 _ => .notDirectory
  | .inappropriateType _ 21 _ => .isDirectory
  | failure => .other (toString failure)

/-- The result of an action, a failure as a fault. -/
def attempt {α : Type} (action : IO α) : IO (Except Files.Fault α) := do
  try
    return .ok (← action)
  catch failure =>
    return .error (faultOf failure)

/-- Whether an action succeeds. -/
def succeeds {α : Type} (action : IO α) : IO Bool := do
  return (← attempt action).isOk

instance : Files.Reads IO where
  isDirectory path := succeeds (IO.FS.realPath (path ++ "/."))
  isFile path := succeeds (IO.FS.readBinFile path)
  isPresent path := succeeds (IO.FS.realPath path)
  canonical path := attempt (return toString (← IO.FS.realPath path))
  read path := attempt (IO.FS.readBinFile path)

instance : Files.Writes IO where
  makeDirectories path := attempt (IO.FS.createDirAll path)
  writeFile path content := attempt (IO.FS.writeBinFile path content)

/-- The present time. -/
def presentTime : IO Instant := do
  let time ← Std.Time.Timestamp.now
  return ⟨time.toSecondsSinceUnixEpoch.val, 0⟩

end RpcStubs

/-- Carry out the arguments, write what comes of it, and end with its exit code. -/
def main (arguments : List String) : IO UInt32 := do
  let outcome ← RpcStubs.CommandLine.run (← RpcStubs.presentTime) arguments
  IO.print outcome.output
  IO.eprint outcome.errors
  return UInt32.ofNat outcome.exitCode.toNat
