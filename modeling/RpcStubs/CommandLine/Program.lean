import RpcStubs.Command.Run
import RpcStubs.CommandLine.Help
import RpcStubs.Run.Request
namespace RpcStubs.CommandLine

open Files

/-!
# The program

Orders are carried out on files; what comes of it is put into words for the output and the
errors, with an exit code.
-/

/-- The exit code of a run that fails, and of a command line that is not understood. -/
def failureCode : Int := 2

/-- What is written to the errors about a command line that is not understood. -/
def usageText : String := "usage\n"

/-- Success, with a text on the output. -/
def succeeded (output : String) : Source.Outcome := ⟨0, output, ""⟩

/-- Failure, with a text on the errors. -/
def failed (errors : String) : Source.Outcome := ⟨failureCode, "", errors⟩

/-- A failure with the cause that it wraps. -/
def failureChain : Failure → String
  | .write path cause => (Failure.write path cause).message ++ ": " ++ cause.message
  | failure => failure.message

/-- What is written to the errors when a request is rejected. -/
def rejectionText : Rejection → String
  | .failed failure => "error: " ++ failureChain failure ++ "\n"
  | .violated violations =>
      String.join (violations.map fun violation => "  " ++ violation.text ++ "\n") ++
        "error: " ++ (Rejection.violated violations).message ++ "\n"

/-- The formatters of a run. -/
def formatterOf (options : Options) : Source.Formatter :=
  if options.formats then
    Source.chain [Source.normal, Source.external (Command.missing "gofmt")]
  else
    Source.normal

/-- The request that options make at a time. -/
def requestOf (options : Options) (time : Instant) : Request :=
  { spec := options.spec.getD usualSpec
    choices := options.choices
    settings := options.settings
    skipsValidation := options.skipsValidation
    time := time }

/-- What comes of a check. -/
def checked (spec : String) : Except Failure (List Violation) → Source.Outcome
  | .error failure =>
      failed ("error: Failed to validate " ++ spec ++ ": " ++ failureChain failure ++ "\n")
  | .ok [] => succeeded (spec ++ " follows the RPC convention\n")
  | .ok violations =>
      { exitCode := failureCode
        output := String.join (violations.map fun violation => violation.text ++ "\n") ++
          s!"{violations.length} violations\n"
        errors := "" }

variable {m : Type → Type} [Monad m] [Reads m] [Writes m]

/-- Generate as options say. -/
def generate (time : Instant) (options : Options) : m Source.Outcome := do
  let writer : Writer m := if options.isDry then Writer.dry else Writer.files
  let prepared ← (requestOf options time).prepare (formatterOf options)
  match ← carryOut writer prepared with
  | .error rejection => return failed (rejectionText rejection)
  | .ok report => return succeeded (report.text ++ "\n")

/-- Carry out an order. -/
def perform (time : Instant) : Order → m Source.Outcome
  | .generate options => generate time options
  | .validate spec => do
      let spec := spec.getD usualSpec
      return checked spec (← validateFile spec)
  | .help topic => return succeeded topic.text
  | .version => return succeeded versionText
  | .misuse => return failed usageText

/-- Carry out what arguments ask for. -/
def run (time : Instant) (arguments : List String) : m Source.Outcome :=
  perform time (Order.ofArguments arguments)

end RpcStubs.CommandLine
