import RpcStubs.Data.Json
import RpcStubs.Data.Yaml.Cursor
import RpcStubs.Data.Yaml.Token
import RpcStubs.Text.Utf8
namespace RpcStubs.Data.Yaml

/-!
# Tags, anchors and directives

The marks that say something about a node or about the whole document.
-/

/-- Whether a character may stand in a tag as it is; commas and brackets only in a prefix. -/
def isTagCharacter (inPrefix : Bool) (character : Char) : Bool :=
  isNameCharacter character || ";/?:@&=+$.!~*\x27()".toList.contains character ||
    (inPrefix && (character == ',' || character == '[' || character == ']'))

/-- The bytes that percent signs at a cursor spell, as many as one character takes. -/
def escapedBytes? : Nat → Cursor → Option (List UInt8 × Cursor)
  | 0, cursor => some ([], cursor)
  | count + 1, cursor =>
      if cursor.next == '%' then do
        let high ← Json.hexDigit? (cursor.ahead 1)
        let low ← Json.hexDigit? (cursor.ahead 2)
        let (others, after) ← escapedBytes? count (cursor.skip 3)
        return (UInt8.ofNat (high * 16 + low) :: others, after)
      else
        none

/-- How many bytes a character takes that starts with a byte. -/
def byteCount? (lead : UInt8) : Option Nat :=
  if lead < 0x80 then some 1 else (Text.secondByte lead).map (·.1)

/-- The character that percent signs at a cursor spell. -/
def escapedTagCharacter? (cursor : Cursor) : Option (Char × Cursor) := do
  let (first, _) ← escapedBytes? 1 cursor
  let lead ← first.head?
  let count ← byteCount? lead
  let (bytes, after) ← escapedBytes? count cursor
  match Text.decodeLossy bytes with
  | [character] => return (character, after)
  | _ => none

/-- The characters of a tag at a cursor, after those in `read`, in reverse. -/
def tagCharacters? (inPrefix : Bool) : Nat → List Char → Cursor → Option (List Char × Cursor)
  | 0, _, _ => none
  | fuel + 1, read, cursor =>
      if cursor.next == '%' then
        match escapedTagCharacter? cursor with
        | some (character, after) => tagCharacters? inPrefix fuel (character :: read) after
        | none => none
      else if isTagCharacter inPrefix cursor.next then
        tagCharacters? inPrefix fuel (cursor.next :: read) (cursor.skip 1)
      else
        some (read.reverse, cursor)

/--
The text of a tag at a cursor; an empty one only where that is allowed.

The number of characters left and one more is fuel enough.
-/
def tagText? (inPrefix mayBeEmpty : Bool) (fuel : Nat) (cursor : Cursor) :
    Option (List Char × Cursor) := do
  let (text, after) ← tagCharacters? inPrefix fuel [] cursor
  if text = [] && !mayBeEmpty then none else return (text, after)

/-- The handle at a cursor: an exclamation mark, and perhaps a name and a second mark. -/
def tagHandle? (cursor : Cursor) : Option (List Char × Cursor) :=
  if cursor.next == '!' then
    let (name, after) := (cursor.skip 1).span isNameCharacter
    if after.next == '!' then
      some ('!' :: name ++ ['!'], after.skip 1)
    else
      some ('!' :: name, after)
  else
    none

/-- Whether a handle ends in a mark of its own. -/
def isNamedHandle (handle : List Char) : Bool :=
  handle.length > 1 && handle.getLast? = some '!'

/-- A tag at a cursor: its handle, its suffix, and the cursor after it. -/
def tagToken? (inFlow : Bool) (fuel : Nat) (cursor : Cursor) : Option (Token × Cursor) := do
  let (handle, suffix, after) ←
    if cursor.ahead 1 == '<' then do
      let (text, beyond) ← tagText? true false fuel (cursor.skip 2)
      if beyond.next == '>' then some ([], text, beyond.skip 1) else none
    else do
      let (handle, beyond) ← tagHandle? cursor
      if isNamedHandle handle then
        let (text, after) ← tagText? false false fuel beyond
        some (handle, text, after)
      else
        let (text, after) ← tagText? false true fuel beyond
        let suffix := handle.drop 1 ++ text
        if suffix = [] then some ([], ['!'], after) else some (['!'], suffix, after)
  if isGapOrEnd after.next || (inFlow && after.next == ',') then
    return (.tag (String.ofList handle) (String.ofList suffix), after)
  else
    none

/-- The name at a cursor that stands for an anchor or a reference to one. -/
def anchorName? (cursor : Cursor) : Option (String × Cursor) :=
  let (name, after) := (cursor.skip 1).span isNameCharacter
  let ends := isGapOrEnd after.next || "?:,]\x7d%@\x60".toList.contains after.next
  if name = [] || !ends then none else some (String.ofList name, after)

/-- A number of a version at a cursor. -/
def versionNumber? (cursor : Cursor) : Option (Nat × Cursor) :=
  let (digits, after) := cursor.span Char.isDigit
  if digits = [] || digits.length > 9 then none else some (Json.numberOf digits, after)

/-- The value of a directive of a name. -/
def directiveValue? (name : String) (fuel : Nat) (cursor : Cursor) : Option (Token × Cursor) := do
  match name with
  | "YAML" =>
      let (major, afterMajor) ← versionNumber? cursor.skipGaps
      if afterMajor.next == '.' then
        let (minor, after) ← versionNumber? (afterMajor.skip 1)
        return (.version major minor, after)
      else
        none
  | "TAG" =>
      let (handle, afterHandle) ← tagHandle? cursor.skipGaps
      if (isNamedHandle handle || handle = ['!']) && isGap afterHandle.next then
        let (text, after) ← tagText? true false fuel afterHandle.skipGaps
        if isGapOrEnd after.next then
          return (.tagPrefix (String.ofList handle) (String.ofList text), after)
        else
          none
      else
        none
  | _ => none

/-- A directive at a cursor, and the cursor on the line after it. -/
def directive? (fuel : Nat) (cursor : Cursor) : Option (Token × Cursor) := do
  let (name, afterName) := (cursor.skip 1).span isNameCharacter
  if name = [] || !isGapOrEnd afterName.next then
    none
  else
    let (token, afterValue) ← directiveValue? (String.ofList name) fuel afterName
    let after := afterValue.skipGaps.skipComment
    if isLineEnd after.next then return (token, after.skipBreak) else none

end RpcStubs.Data.Yaml
