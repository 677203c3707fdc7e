import RpcStubs.CommandLine.Arguments
import RpcStubs.Configuration
namespace RpcStubs.CommandLine

/-!
# Orders

What a command line asks for: a run, a check, or a text about the program. Switches are
taken one after the other; a switch may stand once for each command, and there is at most
one operand. Whoever asks for help gets it, unless something before it is wrong.
-/

/-- What a run is asked to do. -/
structure Options where
  spec : Option String := none
  choices : Choices := {}
  settings : Option String := none
  skipsValidation : Bool := false
  isDry : Bool := false
  formats : Bool := false
deriving Repr, DecidableEq

/-- What help is about. -/
inductive Topic
  | program
  | generate
  | validate
  | help
deriving Repr, DecidableEq

/-- What a command line asks for. -/
inductive Order
  | generate (options : Options)
  | validate (spec : Option String)
  | help (topic : Topic)
  | version
  | misuse
deriving Repr, DecidableEq

/-- The document that is read when none is named. -/
def usualSpec : String := "openapi.yaml"

/-- The switch that asks for more messages. -/
def verbose : Switch := { long := "verbose", short := some 'v' }

/-- The switch that asks for help. -/
def help : Switch := { long := "help", short := some 'h' }

/-- The switches before a command. -/
def programSwitches : List Switch := [
  verbose, help, { long := "version", short := some 'V' }]

/-- The switches of the command that checks. -/
def validateSwitches : List Switch := [verbose, help]

/-- The switches of the command that generates. -/
def generateSwitches : List Switch := [
  verbose, help,
  { long := "package", takesValue := true },
  { long := "output", short := some 'o', takesValue := true },
  { long := "proto-path", takesValue := true },
  { long := "proto-import", takesValue := true },
  { long := "proto-package", takesValue := true },
  { long := "vendor", takesValue := true },
  { long := "full" },
  { long := "config", takesValue := true },
  { long := "skip-validation" },
  { long := "dry-run" },
  { long := "gofmt" }]

/-- How far items have been taken: the switches seen, and what they ask for. -/
structure Taken where
  seen : List String := []
  options : Options := {}
deriving Repr, DecidableEq

/-- A path, which must not be empty. -/
def path? (text : String) : Option String :=
  if text = "" then none else some text

/-- The options with a switch turned on. -/
def turnOn (options : Options) : String → Options
  | "full" => { options with choices := { options.choices with full := true } }
  | "skip-validation" => { options with skipsValidation := true }
  | "dry-run" => { options with isDry := true }
  | "gofmt" => { options with formats := true }
  | _ => options

/-- The options with the value of a switch. -/
def setValue? (options : Options) (long value : String) : Option Options :=
  let choose (choices : Choices) := some { options with choices := choices }
  match long with
  | "package" => choose { options.choices with package := some value }
  | "output" =>
      (path? value).map fun path =>
        { options with choices := { options.choices with output := some path } }
  | "proto-path" => choose { options.choices with protoPath := some value }
  | "proto-import" => choose { options.choices with protoImport := some value }
  | "proto-package" => choose { options.choices with protoPackage := some value }
  | "vendor" => choose { options.choices with vendor := some value }
  | "config" => (path? value).map fun path => { options with settings := some path }
  | _ => none

/-- Take one item; nothing is taken from an item that is wrong at its place. -/
def take? (taken : Taken) : Item → Option Taken
  | .switch long =>
      if taken.seen.contains long then
        none
      else
        some ⟨long :: taken.seen, turnOn taken.options long⟩
  | .valued long value =>
      if taken.seen.contains long then
        none
      else
        (setValue? taken.options long value).map fun options => ⟨long :: taken.seen, options⟩
  | .operand text =>
      match taken.options.spec, path? text with
      | none, some path => some { taken with options := { taken.options with spec := some path } }
      | _, _ => none
  | .misuse => none

/-- Take items in order; `finish` says what the options of all items ask for. -/
def takeAll (topic : Topic) (finish : Options → Order) (taken : Taken) : List Item → Order
  | [] => finish taken.options
  | item :: rest =>
      if item = .switch "help" then
        .help topic
      else if item = .switch "version" then
        .version
      else
        match take? taken item with
        | some next => takeAll topic finish next rest
        | none => .misuse

/-- What help is asked about by the words after `help`. -/
def helpOrder : List String → Order
  | [] => .help .program
  | ["generate"] => .help .generate
  | ["validate"] => .help .validate
  | ["help"] => .help .help
  | _ => .misuse

/-- What a command with its arguments asks for. -/
def commandOrder : List String → Order
  | "generate" :: arguments =>
      takeAll .generate .generate {} (items generateSwitches arguments)
  | "validate" :: arguments =>
      takeAll .validate (fun options => .validate options.spec) {}
        (items validateSwitches arguments)
  | "help" :: topics => helpOrder topics
  | _ => .misuse

/-- What a command line asks for. -/
def Order.ofArguments (arguments : List String) : Order :=
  let (items, command) := leadingItems programSwitches arguments
  takeAll .program (fun _ => commandOrder command) {} items

end RpcStubs.CommandLine
