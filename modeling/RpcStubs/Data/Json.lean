import RpcStubs.Data.Decimal
import RpcStubs.Data.Node
namespace RpcStubs.Data.Json

/-!
# JSON

Reading one JSON value from text. Maps keep their order and repeated keys; values nest at
most 127 deep; a number beyond 64 bits is a decimal, and one too large for a double is
refused.
-/

/-- How deep values may nest. -/
def depthLimit : Nat := 127

/-- The text without blanks at its start. -/
def skipBlanks : List Char → List Char :=
  List.dropWhile fun character =>
    character == ' ' || character == '\n' || character == '\t' || character == '\r'

/-- The text after a keyword at its start. -/
def afterWord? (word : String) (text : List Char) : Option (List Char) :=
  if word.toList.isPrefixOf text then some (text.drop word.length) else none

/-- The value of a hexadecimal digit. -/
def hexDigit? (character : Char) : Option Nat :=
  if character.isDigit then
    some (character.toNat - '0'.toNat)
  else if 'a' ≤ character && character ≤ 'f' then
    some (character.toNat - 'a'.toNat + 10)
  else if 'A' ≤ character && character ≤ 'F' then
    some (character.toNat - 'A'.toNat + 10)
  else
    none

/-- The number that four hexadecimal digits spell, and the text after them. -/
def hexQuad? : List Char → Option (Nat × List Char)
  | a :: b :: c :: d :: rest => do
      let first ← hexDigit? a
      let second ← hexDigit? b
      let third ← hexDigit? c
      let fourth ← hexDigit? d
      return (((first * 16 + second) * 16 + third) * 16 + fourth, rest)
  | _ => none

/-- The character of an escape that starts with `u`, with the text after it. -/
def unicodeEscape? (text : List Char) : Option (Char × List Char) := do
  let (unit, rest) ← hexQuad? text
  if 0xD800 ≤ unit && unit ≤ 0xDBFF then
    match rest with
    | '\\' :: 'u' :: later =>
        let (low, after) ← hexQuad? later
        if 0xDC00 ≤ low && low ≤ 0xDFFF then
          return (Char.ofNat (0x10000 + (unit - 0xD800) * 0x400 + (low - 0xDC00)), after)
        else
          none
    | _ => none
  else if 0xDC00 ≤ unit && unit ≤ 0xDFFF then
    none
  else
    return (Char.ofNat unit, rest)

/-- The character that a letter after a backslash stands for. -/
def escape? : Char → Option Char
  | '\x22' => some '\x22'
  | '\\' => some '\\'
  | '/' => some '/'
  | 'b' => some '\x08'
  | 'f' => some '\x0c'
  | 'n' => some '\n'
  | 'r' => some '\r'
  | 't' => some '\t'
  | _ => none

/-- The rest of a string whose first characters are `read`, in reverse. -/
def stringBody? : Nat → List Char → List Char → Option (String × List Char)
  | 0, _, _ => none
  | _, _, [] => none
  | fuel + 1, read, character :: rest =>
      if character == '\x22' then
        some (String.ofList read.reverse, rest)
      else if character == '\\' then
        match rest with
        | 'u' :: later =>
            match unicodeEscape? later with
            | some (meant, after) => stringBody? fuel (meant :: read) after
            | none => none
        | letter :: later =>
            match escape? letter with
            | some meant => stringBody? fuel (meant :: read) later
            | none => none
        | [] => none
      else if character.toNat < 0x20 then
        none
      else
        stringBody? fuel (character :: read) rest

/-- The digits at the start of a text, and what follows them. -/
def digits (text : List Char) : List Char × List Char :=
  (text.takeWhile Char.isDigit, text.dropWhile Char.isDigit)

/-- The number that decimal digits spell. -/
def numberOf (text : List Char) : Nat :=
  text.foldl (fun number digit => number * 10 + (digit.toNat - '0'.toNat)) 0

/-- The fraction after a point, when there is one: its digits and what follows. -/
def fraction? : List Char → Option (List Char × List Char)
  | '.' :: rest =>
      match digits rest with
      | ([], _) => none
      | found => some found
  | text => some ([], text)

/-- The exponent, when there is one, and what follows. -/
def exponent? (text : List Char) : Option (Option Int × List Char) :=
  match text with
  | mark :: rest =>
      if mark == 'e' || mark == 'E' then
        let (negative, unsigned) := match rest with
          | '-' :: later => (true, later)
          | '+' :: later => (false, later)
          | later => (false, later)
        match digits unsigned with
        | ([], _) => none
        | (found, after) =>
            let size : Int := numberOf found
            some (some (if negative then -size else size), after)
      else
        some (none, text)
  | [] => some (none, [])

/-- Whether an integer fits into 64 bits, with or without a sign. -/
def fitsWord (value : Int) : Bool :=
  -Int.pow 2 63 ≤ value && value < Int.pow 2 64

/-- A number without its sign, and what follows. -/
def number? (negative : Bool) (text : List Char) : Option (Scalar × List Char) := do
  let (whole, afterWhole) := digits text
  if whole = [] || (whole.length > 1 && whole.head? = some '0') then
    none
  else
    let (places, afterPlaces) ← fraction? afterWhole
    let (power, rest) ← exponent? afterPlaces
    let magnitude := numberOf whole
    let value : Int := if negative then -magnitude else magnitude
    if places = [] && power.isNone && fitsWord value && !(negative && magnitude = 0) then
      return (.integer value, rest)
    else
      let decimal : Decimal :=
        { negative := negative
          mantissa := numberOf (whole ++ places)
          exponent := power.getD 0 - places.length }
      if decimal.isFinite then
        return (.decimal decimal.isWhole, rest)
      else
        none

/-- A scalar of JSON; it carries no spelling. -/
def plain (scalar : Scalar) : Node :=
  .scalar scalar none

mutual

/-- The value at the start of a text, and what follows it. -/
def value? : Nat → Nat → List Char → Option (Node × List Char)
  | 0, _, _ => none
  | fuel + 1, depth, text =>
      match skipBlanks text with
      | [] => none
      | first :: rest =>
          if first == '\x22' then
            (stringBody? (rest.length + 1) [] rest).map fun (text, after) =>
              (.ofText text, after)
          else if first == '[' then
            match depth with
            | 0 => none
            | depth + 1 =>
                match skipBlanks rest with
                | ']' :: after => some (.list [], after)
                | inner => items? fuel depth [] inner
          else if first == '\x7b' then
            match depth with
            | 0 => none
            | depth + 1 =>
                match skipBlanks rest with
                | '\x7d' :: after => some (.map [], after)
                | inner => entries? fuel depth [] inner
          else if first == '-' then
            (number? true rest).map fun (number, after) => (plain number, after)
          else if first.isDigit then
            (number? false (first :: rest)).map fun (number, after) => (plain number, after)
          else
            match afterWord? "null" (first :: rest) with
            | some after => some (plain .null, after)
            | none =>
                match afterWord? "true" (first :: rest) with
                | some after => some (plain (.boolean true), after)
                | none =>
                    (afterWord? "false" (first :: rest)).map fun after =>
                      (plain (.boolean false), after)

/-- The items of a list after those in `read`, in reverse, and what follows the list. -/
def items? : Nat → Nat → List Node → List Char → Option (Node × List Char)
  | 0, _, _, _ => none
  | fuel + 1, depth, read, text =>
      match value? fuel depth text with
      | none => none
      | some (item, after) =>
          match skipBlanks after with
          | ',' :: rest => items? fuel depth (item :: read) rest
          | ']' :: rest => some (.list (item :: read).reverse, rest)
          | _ => none

/-- The entries of a map after those in `read`, in reverse, and what follows the map. -/
def entries? : Nat → Nat → List (Node × Node) → List Char → Option (Node × List Char)
  | 0, _, _, _ => none
  | fuel + 1, depth, read, text =>
      match skipBlanks text with
      | '\x22' :: afterQuote =>
          match stringBody? (afterQuote.length + 1) [] afterQuote with
          | none => none
          | some (name, afterName) =>
              match skipBlanks afterName with
              | ':' :: afterColon =>
                  match value? fuel depth afterColon with
                  | none => none
                  | some (value, after) =>
                      let entry := (Node.ofText name, value)
                      match skipBlanks after with
                      | ',' :: rest => entries? fuel depth (entry :: read) rest
                      | '\x7d' :: rest => some (.map (entry :: read).reverse, rest)
                      | _ => none
              | _ => none
      | _ => none

end

/-- The one value that a text holds. -/
def read? (text : String) : Option Node :=
  let characters := text.toList
  match value? (2 * characters.length + 2) depthLimit characters with
  | some (node, rest) => if skipBlanks rest = [] then some node else none
  | none => none

end RpcStubs.Data.Json
