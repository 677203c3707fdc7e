import RpcStubs.Text.Pieces
namespace RpcStubs.Artifact

/-!
# Lines of generated files

A line of a generated file is a list of parts. A part says what it is besides its text, so
that the names which a file declares and uses can be read off its lines.
-/

/-- A part of a line. -/
inductive Part
  | text (value : String)
  | message (name : String)
  | declared (name : String)
  | constant (name : String)
  | method (name : String)
  | path (value : String)
deriving Repr, DecidableEq

/-- The text of a part; messages are written with the name of their package. -/
def Part.render : Part → String
  | .text value => value
  | .message name => "pb." ++ name
  | .declared name => name
  | .constant name => name
  | .method name => name
  | .path value => value

/-- A line as its parts. -/
abbrev Line := List Part

/-- The text of a line. -/
def Line.render (line : Line) : String :=
  line.foldl (fun text part => text ++ part.render) ""

/-- A line that is the same in every file. -/
def fixed (text : String) : Line := [.text text]

/-- Lines that are the same in every file. -/
def fixedLines (texts : List String) : List Line :=
  texts.map fixed

/-- The text of a file, every line ended. -/
def textOf (lines : List Line) : String :=
  Text.join "\n" (lines.map Line.render) ++ "\n"

end RpcStubs.Artifact
