import RpcStubs.Command.Script
import RpcStubs.Source.Format
import RpcStubs.Text.Utf8
namespace RpcStubs.Command

/-!
# Running commands

A program is found by its name, or by its path in one of the usual directories. What is not
there, or is a directory, cannot be run.
-/

/-- The directories where programs are. -/
def installed : List String := ["/usr/bin", "/bin"]

/-- The directories that every environment has. -/
def directories : List String := [
  "/", "/bin", "/boot", "/dev", "/etc", "/home", "/lib", "/media", "/mnt", "/opt", "/proc",
  "/root", "/run", "/sbin", "/srv", "/sys", "/tmp", "/usr", "/usr/bin", "/usr/lib",
  "/usr/local", "/usr/local/bin", "/usr/sbin", "/usr/share", "/var", "/var/tmp", ".", ".."]

/-- Run a script given after `-c` with its name and arguments, or else the script that is fed. -/
def shell : Utility
  | ["-c"], streams => (2, streams.complain "sh: 0: -c requires an argument")
  | ["-c", script], streams => runScript script ["sh"] streams
  | "-c" :: script :: arguments, streams => runScript script arguments streams
  | _, streams =>
      let script := String.ofList (Text.decodeLossy streams.input)
      runScript script ["sh"] streams.drained

/-- The program of a plain name. -/
def named? (name : String) : Option Utility :=
  if name = "sh" then some shell else utilities.lookup name

/-- A path without slashes at its end. -/
def withoutSlashes (path : String) : String :=
  let kept := (path.toList.reverse.dropWhile (· == '/')).reverse
  if kept = [] && Files.Path.isAbsolute path then "/" else String.ofList kept

/-- The program that a name or a path means, or why it cannot be run. -/
def find (program : String) : Except Files.Fault Utility :=
  let path := withoutSlashes program
  let (directory, name) := match Text.cutLast '/' path.toList with
    | some (before, after) => (String.ofList before, String.ofList after)
    | none => ("", path)
  if directories.contains path then
    .error .denied
  else if path.toList.contains '/' && !installed.contains directory then
    .error .notFound
  else
    match named? name with
    | some utility => if path = program then .ok utility else .error .notDirectory
    | none => .error .notFound

/-- What a program leaves behind. -/
def outcome (finished : Int × Streams) : Source.Outcome :=
  { exitCode := finished.1
    output := Text.shown finished.2.output
    errors := Text.shown finished.2.errors }

/-- Why a program cannot be run, as the failure of a step named for it. -/
def failure (program reason : String) : Failure :=
  .render program s!"Failed to execute '{program}': {reason}"

/-- Run a command on some input. -/
def run (command : Command) : Source.Filter := fun input =>
  let hasNull (text : String) := text.toList.contains '\x00'
  if hasNull command.program || command.arguments.any hasNull then
    .error (failure command.program "nul byte found in provided data")
  else
    match find command.program with
    | .error fault => .error (failure command.program fault.message)
    | .ok utility =>
        .ok (outcome (utility command.arguments { input := input.toUTF8.toList }))

/-- The filter of a program that is not there. -/
def missing (program : String) : Source.Filter := fun _ =>
  .error (failure program Files.Fault.notFound.message)

end RpcStubs.Command
