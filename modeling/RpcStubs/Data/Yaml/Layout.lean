import RpcStubs.Data.Yaml.Block
import RpcStubs.Data.Yaml.Flow
import RpcStubs.Data.Yaml.Tag
namespace RpcStubs.Data.Yaml

/-!
# From text to tokens

Blocks start and end with the indentation of lines. What is the key of a map shows only at
the colon after it, so the place of every possible key is kept until then.
-/

/-- A place where a key of a map may have started. -/
structure PossibleKey where
  isRequired : Bool
  position : Nat
  index : Nat
  line : Nat
  column : Nat
deriving Repr

/--
How far a text has been read.

The tokens are kept in order. The indentation of the innermost block is one less than the
head of `indents`, with nothing for no block. The head of `keys` belongs to the innermost
brackets, of which there are one less than its length.
-/
structure Scan where
  cursor : Cursor
  tokens : Array Token := #[]
  indents : List Nat := []
  keys : List (Option PossibleKey) := [none]
  allowsKey : Bool := true

namespace Scan

/-- How many brackets are open. -/
def depth (scan : Scan) : Nat :=
  scan.keys.length - 1

/-- Whether a bracket is open. -/
def inFlow (scan : Scan) : Bool :=
  0 < scan.depth

/-- One more than the indentation of the innermost block; zero outside all blocks. -/
def indent (scan : Scan) : Nat :=
  match scan.indents with
  | [] => 0
  | column :: _ => column + 1

/-- Add a token at the end. -/
def add (scan : Scan) (token : Token) : Scan :=
  { scan with tokens := scan.tokens.push token }

/-- Put a token at a position among the tokens. -/
def insertAt (scan : Scan) (position : Nat) (token : Token) : Scan :=
  { scan with tokens := scan.tokens.insertIdxIfInBounds position token }

/-- End the blocks that are indented further than a column; `column` is one more than it. -/
def closeBlocks (column : Nat) (scan : Scan) : Scan :=
  if scan.inFlow then
    scan
  else
    let closed := scan.indents.takeWhile fun indent => column < indent + 1
    { scan with
      indents := scan.indents.drop closed.length
      tokens := scan.tokens ++ (closed.map fun _ => Token.blockEnd).toArray }

/-- Start a block at a column, unless the innermost one is indented as far. -/
def openBlock (scan : Scan) (column position : Nat) (token : Token) : Scan :=
  if !scan.inFlow && scan.indent < column + 1 then
    let opened := { scan with indents := column :: scan.indents }
    opened.insertAt position token
  else
    scan

/-- The possible key of the innermost brackets. -/
def possibleKey (scan : Scan) : Option PossibleKey :=
  (scan.keys.head?).join

/-- Replace the possible key of the innermost brackets. -/
def setKey (scan : Scan) (key : Option PossibleKey) : Scan :=
  { scan with keys := key :: scan.keys.tail }

/-- Give up the possible key of the innermost brackets; one that is required may not go. -/
def dropKey? (scan : Scan) : Option Scan :=
  match scan.possibleKey with
  | some key => if key.isRequired then none else some (scan.setKey none)
  | none => some scan

/-- Keep the place of the cursor as that of a possible key. -/
def saveKey? (scan : Scan) : Option Scan :=
  if scan.allowsKey then
    (scan.dropKey?).map fun cleared => cleared.setKey (some
      { isRequired := !scan.inFlow && scan.indent = scan.cursor.column + 1
        position := scan.tokens.size
        index := scan.cursor.index
        line := scan.cursor.line
        column := scan.cursor.column })
  else
    some scan

/-- How far after its start the colon of a key may come. -/
def keyLimit : Nat := 1024

/-- Whether a possible key can no longer be one: it ended with its line or is too long. -/
def isStale (cursor : Cursor) (key : PossibleKey) : Bool :=
  key.line < cursor.line || key.index + keyLimit < cursor.index

/-- Give up every possible key that can no longer be one. -/
def dropStale? (scan : Scan) : Option Scan :=
  let isLost := fun key : PossibleKey => isStale scan.cursor key
  if scan.keys.any fun key => key.any fun key => isLost key && key.isRequired then
    none
  else
    some { scan with keys := scan.keys.map fun key => key.filter fun key => !isLost key }

/-- Skip what stands between tokens: gaps, comments and line breaks. -/
def skipToToken : Nat → Scan → Scan
  | 0, scan => scan
  | fuel + 1, scan =>
      let cursor := scan.cursor
      let start := if cursor.index = 0 && cursor.next == '\uFEFF' then cursor.skip 1 else cursor
      let tabsCount := scan.inFlow || !scan.allowsKey
      let gap := fun character : Char => character == ' ' || (tabsCount && character == '\t')
      let here := ((start.span gap).2).skipComment
      if isBreak here.next then
        skipToToken fuel
          { scan with
            cursor := here.skipBreak
            allowsKey := scan.allowsKey || !scan.inFlow }
      else
        { scan with cursor := here }

/-- Move the cursor over a mark and add its token. -/
def mark (scan : Scan) (length : Nat) (token : Token) : Scan :=
  { scan.add token with cursor := scan.cursor.skip length }

/-- Read the mark that starts or ends a document. -/
def documentMark? (scan : Scan) (token : Token) : Option Scan := do
  let cleared ← (scan.closeBlocks 0).dropKey?
  return { cleared.mark 3 token with allowsKey := false }

/-- Read a directive. -/
def readDirective? (scan : Scan) (fuel : Nat) : Option Scan := do
  let cleared ← (scan.closeBlocks 0).dropKey?
  let (token, after) ← directive? fuel scan.cursor
  return { cleared.add token with cursor := after, allowsKey := false }

/-- Read an opening bracket. -/
def openFlow? (scan : Scan) (token : Token) : Option Scan := do
  let saved ← scan.saveKey?
  return { saved.mark 1 token with keys := none :: saved.keys, allowsKey := true }

/-- Read a closing bracket. -/
def closeFlow? (scan : Scan) (token : Token) : Option Scan := do
  let cleared ← scan.dropKey?
  let outer := if scan.inFlow then cleared.keys.tail else cleared.keys
  return { cleared.mark 1 token with keys := outer, allowsKey := false }

/-- Read a comma. -/
def readComma? (scan : Scan) : Option Scan := do
  let cleared ← scan.dropKey?
  return { cleared.mark 1 .comma with allowsKey := true }

/-- Start a block at the cursor for a mark, which must be allowed there. -/
def blockAt? (scan : Scan) (token : Token) : Option Scan :=
  if scan.inFlow then
    some scan
  else if scan.allowsKey then
    some (scan.openBlock scan.cursor.column scan.tokens.size token)
  else
    none

/-- Read the mark of a list item. -/
def readItem? (scan : Scan) : Option Scan := do
  let opened ← scan.blockAt? .blockList
  let cleared ← opened.dropKey?
  return { cleared.mark 1 .listItem with allowsKey := true }

/-- Read the mark of a key. -/
def readKey? (scan : Scan) : Option Scan := do
  let opened ← scan.blockAt? .blockMap
  let cleared ← opened.dropKey?
  return { cleared.mark 1 .key with allowsKey := !scan.inFlow }

/-- Read the colon before a value. -/
def readValue? (scan : Scan) : Option Scan := do
  match scan.possibleKey with
  | some key =>
      let keyed := (scan.setKey none).insertAt key.position .key
      let opened := keyed.openBlock key.column key.position .blockMap
      return { opened.mark 1 .value with allowsKey := false }
  | none =>
      let opened ← scan.blockAt? .blockMap
      return { opened.mark 1 .value with allowsKey := !scan.inFlow }

/-- Add a token that may be a key, with the cursor after it. -/
def content? (scan : Scan) (found : Option (Token × Cursor)) : Option Scan := do
  let saved ← scan.saveKey?
  let (token, after) ← found
  return { saved.add token with cursor := after, allowsKey := false }

/-- Read a block scalar. -/
def readBlock? (scan : Scan) (isLiteral : Bool) (fuel : Nat) : Option Scan := do
  let cleared ← scan.dropKey?
  let (text, after) ← block? isLiteral scan.indent fuel scan.cursor
  return { cleared.add (.scalar text false) with cursor := after, allowsKey := true }

/-- Read a plain scalar. -/
def readPlain? (scan : Scan) (fuel : Nat) : Option Scan := do
  let saved ← scan.saveKey?
  let (text, broken, after) ← plain? scan.inFlow scan.indent fuel scan.cursor
  return { saved.add (.scalar text true) with cursor := after, allowsKey := broken }

/-- Whether a plain scalar may start at a cursor. -/
def startsPlain (inFlow : Bool) (cursor : Cursor) : Bool :=
  let character := cursor.next
  let following := cursor.ahead 1
  if character == '-' then
    !isGap following
  else if character == '?' || character == ':' then
    !inFlow && !isGapOrEnd following
  else
    !isGapOrEnd character && !",[]\x7b\x7d#&*!|>\x27\x22%@\x60".toList.contains character

/--
Read the token at the cursor, which is not at the end.

The number of characters left and one more is fuel enough.
-/
def readToken? (scan : Scan) (fuel : Nat) : Option Scan :=
  let cursor := scan.cursor
  let first := cursor.next
  let isMark := scan.inFlow || isGapOrEnd (cursor.ahead 1)
  if cursor.column == 0 && first == '%' then
    scan.readDirective? fuel
  else if cursor.standsAlone '-' then
    scan.documentMark? .documentStart
  else if cursor.standsAlone '.' then
    scan.documentMark? .documentEnd
  else if first == '[' then
    scan.openFlow? .flowList
  else if first == '\x7b' then
    scan.openFlow? .flowMap
  else if first == ']' then
    scan.closeFlow? .flowListEnd
  else if first == '\x7d' then
    scan.closeFlow? .flowMapEnd
  else if first == ',' then
    scan.readComma?
  else if first == '-' && isGapOrEnd (cursor.ahead 1) then
    scan.readItem?
  else if first == '?' && isMark then
    scan.readKey?
  else if first == ':' && isMark then
    scan.readValue?
  else if first == '*' then
    scan.content? ((anchorName? cursor).map fun (name, after) => (.reference name, after))
  else if first == '&' then
    scan.content? ((anchorName? cursor).map fun (name, after) => (.anchor name, after))
  else if first == '!' then
    scan.content? (tagToken? scan.inFlow fuel cursor)
  else if first == '|' && !scan.inFlow then
    scan.readBlock? true fuel
  else if first == '>' && !scan.inFlow then
    scan.readBlock? false fuel
  else if first == '\x27' || first == '\x22' then
    scan.content? ((quoted? (first == '\x22') fuel cursor).map fun (text, after) =>
      (.scalar text false, after))
  else if startsPlain scan.inFlow cursor then
    scan.readPlain? fuel
  else
    none

/-- End the text: every block ends with it, and no required key is left. -/
def finish? (scan : Scan) : Option (List Token) :=
  let closed := scan.closeBlocks 0
  (closed.dropKey?).map fun ended => ended.tokens.toList

/-- Read tokens to the end of the text. -/
def readAll? : Nat → Scan → Option (List Token)
  | 0, _ => none
  | fuel + 1, scan =>
      match dropStale? (scan.skipToToken (fuel + 1)) with
      | none => none
      | some here =>
          let settled := here.closeBlocks (here.cursor.column + 1)
          if settled.cursor.atEnd then
            settled.finish?
          else
            match settled.readToken? (fuel + 1) with
            | none => none
            | some next => readAll? fuel next

end Scan

/-- The tokens of a text. -/
def tokens? (text : List Char) : Option (List Token) :=
  if text.all isAllowed then
    Scan.readAll? (text.length + 1) { cursor := { rest := text } }
  else
    none

end RpcStubs.Data.Yaml
