import RpcStubs.Files.Fault
import RpcStubs.Text.Pieces
namespace RpcStubs

/-!
# Commands

A command is a program with its arguments. A program turns what it is fed into what it
writes, and ends with an exit code.
-/

/-- A program by name or path, with its arguments. -/
structure Command where
  program : String
  arguments : List String := []
deriving Repr, DecidableEq

namespace Command

/-- The exit code that stands for a program that a signal ended. -/
def killed : Int := -1

/-- What a program has still to read, and what it has written. -/
structure Streams where
  input : List UInt8 := []
  output : ByteArray := .empty
  errors : ByteArray := .empty

namespace Streams

/-- The streams after bytes are written to the output. -/
def write (streams : Streams) (bytes : List UInt8) : Streams :=
  { streams with output := streams.output ++ ⟨bytes.toArray⟩ }

/-- The streams after a text is written to the output. -/
def say (streams : Streams) (text : String) : Streams :=
  { streams with output := streams.output ++ text.toUTF8 }

/-- The streams after a line is written to the errors. -/
def complain (streams : Streams) (text : String) : Streams :=
  { streams with errors := streams.errors ++ (text ++ "\n").toUTF8 }

/-- The streams with nothing left to read. -/
def drained (streams : Streams) : Streams :=
  { streams with input := [] }

end Streams

/-- A program: its arguments and its streams give its exit code and the streams after it. -/
abbrev Utility := List String → Streams → Int × Streams

end Command

end RpcStubs
