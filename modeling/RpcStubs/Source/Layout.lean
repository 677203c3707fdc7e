import RpcStubs.Text.Blank
namespace RpcStubs.Source

open Text

/-!
# Layout of source text

Blanks at line ends are dropped, runs of empty lines become one, no empty line stands at
either end, and every line is ended.
-/

/-- Runs of empty lines as one each, and none at the end; `gap` says that a run is open. -/
def squeeze (gap : Bool) : List (List Char) → List (List Char)
  | [] => []
  | line :: rest =>
      if line.isEmpty then
        squeeze true rest
      else if gap then
        [] :: line :: squeeze false rest
      else
        line :: squeeze false rest

/-- The lines of a text in normal layout. -/
def normalLines (text : List Char) : List (List Char) :=
  squeeze false (((lines text).map trimEnd).dropWhile List.isEmpty)

/-- The text in normal layout. -/
def normalize (text : List Char) : List Char :=
  (normalLines text).flatMap fun line => line ++ ['\n']

end RpcStubs.Source
