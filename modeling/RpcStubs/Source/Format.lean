import RpcStubs.Failure
import RpcStubs.Files.Path
import RpcStubs.Source.Brackets
import RpcStubs.Source.Layout
namespace RpcStubs.Source

/-!
# Formatting

A formatter takes the path and the text of a file and gives the text to write, or fails.
Formatters are applied one after the other.
-/

/-- A formatter. -/
abbrev Formatter := String → String → Except Failure String

/-- Whether the brackets of a file are checked. -/
def isChecked (path : String) : Bool :=
  match Files.Path.extension? path with
  | some extension => extension == "go" || extension == "proto"
  | none => false

/-- The formatter that puts text into normal layout and checks the brackets of sources. -/
def normal : Formatter := fun path source =>
  let text := normalize source.toList
  if isChecked path then
    match checkBrackets text with
    | .ok () => .ok (String.ofList text)
    | .error imbalance => .error (.render path imbalance.message)
  else
    .ok (String.ofList text)

/-- What a program leaves behind: its exit code and what it wrote. -/
structure Outcome where
  exitCode : Int
  output : String
  errors : String
deriving Repr, DecidableEq

/-- Whether a program ended well. -/
def Outcome.isSuccess (outcome : Outcome) : Bool :=
  outcome.exitCode == 0

/-- A program that reads a source and writes another one. -/
abbrev Filter := String → Except Failure Outcome

/-- The formatter that sends sources of the generated language through a program. -/
def external (program : Filter) : Formatter := fun path source =>
  if Files.Path.extension? path = some "go" then
    match program source with
    | .error failure => .error failure
    | .ok outcome =>
        if outcome.isSuccess then
          .ok outcome.output
        else
          .error (.render path
            ("gofmt failed: " ++ String.ofList (Text.trim outcome.errors.toList)))
  else
    .ok source

/-- Formatters applied one after the other. -/
def chain (formatters : List Formatter) : Formatter := fun path source =>
  formatters.foldlM (fun text formatter => formatter path text) source

end RpcStubs.Source
