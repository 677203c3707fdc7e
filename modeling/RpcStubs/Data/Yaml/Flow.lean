import RpcStubs.Data.Json
import RpcStubs.Data.Yaml.Cursor
namespace RpcStubs.Data.Yaml

/-!
# Scalars within lines

Plain and quoted scalars. They may go on over several lines, whose breaks are folded. Readers
take an amount of fuel, for which the number of characters left and one more is enough.
-/

/-- The blanks between two words: gaps on one line, or folded line breaks. -/
structure Spacing where
  broken : Bool := false
  gaps : List Char := []
  first : List Char := []
  others : List Char := []

/-- The text that a spacing comes to. -/
def Spacing.text (spacing : Spacing) : List Char :=
  if spacing.broken then fold spacing.first spacing.others else spacing.gaps

/--
Read blanks up to the next word.

A tab in the indentation, which reaches up to column `indent`, is refused.
-/
def spacing? (indent : Nat) : Nat → Spacing → Cursor → Option (Spacing × Cursor)
  | 0, _, _ => none
  | fuel + 1, read, cursor =>
      let character := cursor.next
      if cursor.atEnd then
        some (read, cursor)
      else if isGap character then
        if read.broken then
          if character == '\t' && cursor.column < indent then
            none
          else
            spacing? indent fuel read (cursor.skip 1)
        else
          spacing? indent fuel { read with gaps := read.gaps ++ [character] } (cursor.skip 1)
      else if isBreak character then
        let text := cursor.breakText
        let longer :=
          if read.broken then
            { read with others := read.others ++ text }
          else
            { read with broken := true, gaps := [], first := text }
        spacing? indent fuel longer cursor.skipBreak
      else
        some (read, cursor)

/-- Whether a character separates values between brackets. -/
def isFlowMark (character : Char) : Bool :=
  character == ',' || character == '[' || character == ']' || character == '\x7b' ||
    character == '\x7d'

/-- Whether a plain scalar ends at a cursor. -/
def endsPlain (inFlow : Bool) (cursor : Cursor) : Bool :=
  (cursor.next == ':' && isGapOrEnd (cursor.ahead 1)) || (inFlow && isFlowMark cursor.next)

/-- Whether a colon stands where none may. -/
def hasStrayColon (inFlow : Bool) (cursor : Cursor) : Bool :=
  inFlow && cursor.next == ':' &&
    (isFlowMark (cursor.ahead 1) || cursor.ahead 1 == '?')

/-- The characters of one word of a plain scalar, in reverse before `read`. -/
def plainWord? (inFlow : Bool) : Nat → List Char → Cursor → Option (List Char × Cursor)
  | 0, _, _ => none
  | fuel + 1, read, cursor =>
      if isGapOrEnd cursor.next then
        some (read, cursor)
      else if hasStrayColon inFlow cursor then
        none
      else if endsPlain inFlow cursor then
        some (read, cursor)
      else
        plainWord? inFlow fuel (cursor.next :: read) (cursor.skip 1)

/--
A plain scalar from its second word on.

The result says whether a line break came last. `read` holds the characters so far, in
reverse, and `pending` the blanks before the next word.
-/
def plainWords? (inFlow : Bool) (indent : Nat) :
    Nat → List Char → Spacing → Cursor → Option (List Char × Bool × Cursor)
  | 0, _, _, _ => none
  | fuel + 1, read, pending, cursor =>
      if cursor.atDocumentMark || cursor.next == '#' then
        some (read, pending.broken, cursor)
      else
        match plainWord? inFlow (fuel + 1) [] cursor with
        | none => none
        | some (word, after) =>
            let joined := if word = [] then read else word ++ (pending.text.reverse ++ read)
            let left := if word = [] then pending else {}
            if isGap after.next || isBreak after.next then
              match spacing? indent (fuel + 1) left after with
              | none => none
              | some (blanks, beyond) =>
                  if !inFlow && beyond.column < indent then
                    some (joined, blanks.broken, beyond)
                  else
                    plainWords? inFlow indent fuel joined blanks beyond
            else
              some (joined, left.broken, after)

/-- A plain scalar, whether a line break came last, and the cursor after it. -/
def plain? (inFlow : Bool) (indent fuel : Nat) (cursor : Cursor) :
    Option (String × Bool × Cursor) :=
  (plainWords? inFlow indent fuel [] {} cursor).map
    fun (read, broken, after) => (String.ofList read.reverse, broken, after)

/-- The character that a letter after a backslash stands for. -/
def escapedCharacter? : Char → Option Char
  | '0' => some '\x00'
  | 'a' => some '\x07'
  | 'b' => some '\x08'
  | 't' => some '\t'
  | '\t' => some '\t'
  | 'n' => some '\n'
  | 'v' => some '\x0b'
  | 'f' => some '\x0c'
  | 'r' => some '\r'
  | 'e' => some '\x1b'
  | ' ' => some ' '
  | '\x22' => some '\x22'
  | '/' => some '/'
  | '\\' => some '\\'
  | 'N' => some '\u0085'
  | '_' => some '\u00A0'
  | 'L' => some '\u2028'
  | 'P' => some '\u2029'
  | _ => none

/-- How many hexadecimal digits follow a letter after a backslash. -/
def escapeWidth? : Char → Option Nat
  | 'x' => some 2
  | 'u' => some 4
  | 'U' => some 8
  | _ => none

/-- The number that hexadecimal digits spell. -/
def hexNumber? (digits : List Char) : Option Nat :=
  digits.foldlM (fun number digit => (Json.hexDigit? digit).map (number * 16 + ·)) 0

/-- The character that an escape spells, and the cursor after it. -/
def escape? (cursor : Cursor) : Option (Char × Cursor) :=
  let letter := cursor.ahead 1
  match escapedCharacter? letter with
  | some character => some (character, cursor.skip 2)
  | none => do
      let width ← escapeWidth? letter
      let digits := (cursor.rest.drop 2).take width
      let code ← hexNumber? digits
      if digits.length = width && code.isValidChar then
        return (Char.ofNat code, cursor.skip (2 + width))
      else
        none

/-- What one word of a quoted scalar ends with. -/
inductive QuotedEnd
  | quote
  | blanks
  | escapedBreak

/-- The characters of one word of a quoted scalar, in reverse before `read`. -/
def quotedWord? (isDouble : Bool) :
    Nat → List Char → Cursor → Option (List Char × QuotedEnd × Cursor)
  | 0, _, _ => none
  | fuel + 1, read, cursor =>
      let character := cursor.next
      if isGapOrEnd character then
        some (read, .blanks, cursor)
      else if !isDouble && character == '\x27' && cursor.ahead 1 == '\x27' then
        quotedWord? isDouble fuel ('\x27' :: read) (cursor.skip 2)
      else if character == (if isDouble then '\x22' else '\x27') then
        some (read, .quote, cursor.skip 1)
      else if isDouble && character == '\\' then
        if isBreak (cursor.ahead 1) then
          some (read, .escapedBreak, (cursor.skip 1).skipBreak)
        else
          match escape? cursor with
          | some (meant, after) => quotedWord? isDouble fuel (meant :: read) after
          | none => none
      else
        quotedWord? isDouble fuel (character :: read) (cursor.skip 1)

/-- A quoted scalar after its quote; `read` holds the characters so far, in reverse. -/
def quotedWords? (isDouble : Bool) : Nat → List Char → Cursor → Option (String × Cursor)
  | 0, _, _ => none
  | fuel + 1, read, cursor =>
      if cursor.atDocumentMark || cursor.atEnd then
        none
      else
        match quotedWord? isDouble (fuel + 1) read cursor with
        | none => none
        | some (longer, .quote, after) => some (String.ofList longer.reverse, after)
        | some (longer, found, after) =>
            let start : Spacing := match found with
              | .escapedBreak => { broken := true }
              | _ => {}
            match spacing? 0 (fuel + 1) start after with
            | none => none
            | some (blanks, beyond) =>
                quotedWords? isDouble fuel (blanks.text.reverse ++ longer) beyond

/-- A quoted scalar and the cursor after it. -/
def quoted? (isDouble : Bool) (fuel : Nat) (cursor : Cursor) : Option (String × Cursor) :=
  quotedWords? isDouble fuel [] (cursor.skip 1)

end RpcStubs.Data.Yaml
