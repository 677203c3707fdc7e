import Mathlib.Data.List.Infix
import RpcStubs.Proofs.Artifact.Header
namespace RpcStubs

/-!
# What a makefile tells

The value of a variable and the word behind a command, as make and the shell take them from the
lines of a makefile.  Both give characters a meaning of their own, and the makefile escapes none of
them, so a directory is told only by a name without such characters.  What is expanded, escaped or
continued on the next line depends on more than the text that stands there, and is not read here.
-/

namespace Makefile

/-- The blanks that make passes over in front of a value. -/
def isSpace (character : Char) : Bool :=
  " \t\x0b\x0c\r".toList.contains character

/-- The blanks that separate words for the shell. -/
def isGap (character : Char) : Bool :=
  character == ' ' || character == '\t'

/-- The characters that the shell gives a meaning inside of a word, or that end it. -/
def isSpecial (character : Char) : Bool :=
  "$\\\x22\x27\x60*?[\x7b;&|<>()".toList.contains character

/--
The value that make takes from the text behind an assignment.

A comment ends it, and a carriage return at the end belongs to the end of the line.
-/
def value? : List Char → Option (List Char)
  | [] => some []
  | ['\r'] => some []
  | ['\\'] => none
  | '#' :: _ => some []
  | '$' :: _ => none
  | '\\' :: '#' :: _ => none
  | character :: rest => (value? rest).map (character :: ·)

/-- A text that the shell takes as it stands, inside of a word. -/
def IsWord (text : List Char) : Prop :=
  ∀ character ∈ text,
    character ≠ '\n' ∧ isGap character = false ∧ isSpecial character = false

instance (text : List Char) : Decidable (IsWord text) :=
  List.decidableBAll _ text

/-! Values. -/

end Makefile

namespace Artifact

open Makefile

variable {model : Model}

end Artifact

end RpcStubs
