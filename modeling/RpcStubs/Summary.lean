import RpcStubs.Text.Pieces
namespace RpcStubs.Summary

open Text

/-!
# Summaries

Free text made fit for a comment: one line, plain punctuation, and nothing that would end
a block comment.
-/

/-- Typographic quotes and dashes as plain ones. -/
def plain (character : Char) : Char :=
  match character with
  | '\u2018' | '\u2019' => '\x27'
  | '\u201C' | '\u201D' => '\x22'
  | '\u2013' | '\u2014' => '-'
  | other => other

/-- A blank written into every mark that would end a block comment. -/
def defuse : List Char → List Char
  | [] => []
  | '*' :: '/' :: rest => '*' :: ' ' :: '/' :: defuse rest
  | character :: rest => character :: defuse rest

/-- The words of the text on one line. -/
def flatten (text : List Char) : List Char :=
  defuse (joined [' '] (words (text.map plain)))

/-- The summary that a comment shows. -/
def ofText (text : String) : String :=
  String.ofList (flatten text.toList)

end RpcStubs.Summary
