namespace RpcStubs.Data.Yaml

/-!
# Reading positions in YAML

A cursor is the text that is still to be read with its place: index, line and column. The
classes of characters on which YAML is built are fixed here.
-/

/-- The character that stands for the end of the text. -/
def endMark : Char := '\x00'

/-- Whether a character ends a line. -/
def isBreak (character : Char) : Bool :=
  character == '\n' || character == '\r' || character == '\u0085' || character == '\u2028' ||
    character == '\u2029'

/-- Whether a character is a space or a tab. -/
def isGap (character : Char) : Bool :=
  character == ' ' || character == '\t'

/-- Whether a character ends a line or the text. -/
def isLineEnd (character : Char) : Bool :=
  isBreak character || character == endMark

/-- Whether a character is a gap or ends a line or the text. -/
def isGapOrEnd (character : Char) : Bool :=
  isGap character || isLineEnd character

/-- Whether a character may stand in the name of an anchor or a directive. -/
def isNameCharacter (character : Char) : Bool :=
  character.isAlphanum || character == '_' || character == '-'

/-- Whether a character may stand in a YAML text at all. -/
def isAllowed (character : Char) : Bool :=
  let code := character.toNat
  code == 0x09 || code == 0x0A || code == 0x0D || (0x20 ≤ code && code ≤ 0x7E) ||
    code == 0x85 || (0xA0 ≤ code && code ≤ 0xFFFD) || 0x10000 ≤ code

/-- The text that is still to be read, and its place. -/
structure Cursor where
  rest : List Char
  index : Nat := 0
  line : Nat := 0
  column : Nat := 0
deriving Repr

namespace Cursor

/-- The character some places ahead. -/
def ahead (cursor : Cursor) (places : Nat) : Char :=
  (cursor.rest[places]?).getD endMark

/-- The next character. -/
def next (cursor : Cursor) : Char :=
  cursor.ahead 0

/-- Whether nothing is left. -/
def atEnd (cursor : Cursor) : Bool :=
  cursor.rest.isEmpty

/-- The cursor some characters further on the same line. -/
def skip (cursor : Cursor) (count : Nat) : Cursor :=
  { cursor with
    rest := cursor.rest.drop count
    index := cursor.index + count
    column := cursor.column + count }

/-- The cursor after the line break at which it stands. -/
def skipBreak (cursor : Cursor) : Cursor :=
  match cursor.rest with
  | '\r' :: '\n' :: rest =>
      { rest := rest, index := cursor.index + 2, line := cursor.line + 1, column := 0 }
  | character :: rest =>
      if isBreak character then
        { rest := rest, index := cursor.index + 1, line := cursor.line + 1, column := 0 }
      else
        cursor
  | [] => cursor

/-- The text that the line break at a cursor counts as. -/
def breakText (cursor : Cursor) : List Char :=
  match cursor.next with
  | '\u2028' => ['\u2028']
  | '\u2029' => ['\u2029']
  | character => if isBreak character then ['\n'] else []

/-- The characters that satisfy a test, and the cursor after them. -/
def span (cursor : Cursor) (test : Char → Bool) : List Char × Cursor :=
  let taken := cursor.rest.takeWhile test
  (taken, cursor.skip taken.length)

/-- The cursor after all gaps. -/
def skipGaps (cursor : Cursor) : Cursor :=
  (cursor.span isGap).2

/-- The cursor after a comment, when one starts here. -/
def skipComment (cursor : Cursor) : Cursor :=
  if cursor.next == '#' then (cursor.span fun character => !isLineEnd character).2 else cursor

/-- Whether a mark of three characters stands alone at the start of the line. -/
def standsAlone (cursor : Cursor) (mark : Char) : Bool :=
  cursor.column == 0 && cursor.next == mark && cursor.ahead 1 == mark &&
    cursor.ahead 2 == mark && isGapOrEnd (cursor.ahead 3)

/-- Whether a document starts or ends here. -/
def atDocumentMark (cursor : Cursor) : Bool :=
  cursor.standsAlone '-' || cursor.standsAlone '.'

end Cursor

/-- Line breaks between words as the text they come to: one break alone is a space. -/
def fold (first others : List Char) : List Char :=
  if first = ['\n'] then
    if others = [] then [' '] else others
  else
    first ++ others

end RpcStubs.Data.Yaml
