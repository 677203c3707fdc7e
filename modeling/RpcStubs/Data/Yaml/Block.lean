import RpcStubs.Data.Yaml.Cursor
namespace RpcStubs.Data.Yaml

/-!
# Scalars over lines

Literal and folded scalars: the indented lines after their mark.
-/

/-- What becomes of the line breaks at the end of a scalar. -/
inductive Chomping
  | strip
  | clip
  | keep
deriving Repr, DecidableEq

/-- The head of a block scalar: what becomes of its last breaks, and its indentation. -/
structure BlockHead where
  chomping : Chomping := .clip
  increment : Option Nat := none

/-- The chomping that a mark asks for. -/
def chomping? : Char → Option Chomping
  | '+' => some .keep
  | '-' => some .strip
  | _ => none

/-- The indentation that a digit asks for; zero is refused. -/
def increment? (cursor : Cursor) : Option (Option Nat × Cursor) :=
  if cursor.next.isDigit then
    if cursor.next == '0' then
      none
    else
      some (some (cursor.next.toNat - '0'.toNat), cursor.skip 1)
  else
    some (none, cursor)

/-- The head of a block scalar, and the cursor after it. -/
def blockHead? (cursor : Cursor) : Option (BlockHead × Cursor) := do
  match chomping? cursor.next with
  | some chomping =>
      let (increment, after) ← increment? (cursor.skip 1)
      return ({ chomping := chomping, increment := increment }, after)
  | none =>
      let (increment, after) ← increment? cursor
      match increment, chomping? after.next with
      | some _, some chomping =>
          return ({ chomping := chomping, increment := increment }, after.skip 1)
      | _, _ => return ({ increment := increment }, after)

/-- The cursor at the start of the line after the head of a block scalar. -/
def afterHead? (cursor : Cursor) : Option Cursor :=
  let beyond := cursor.skipGaps.skipComment
  if isLineEnd beyond.next then some beyond.skipBreak else none

/-- The cursor after spaces, up to a column when the indentation is known. -/
def skipSpaces (indent : Option Nat) (cursor : Cursor) : Cursor :=
  let spaces := (cursor.rest.takeWhile (· == ' ')).length
  match indent with
  | none => cursor.skip spaces
  | some limit => cursor.skip (min spaces (limit - cursor.column))

/--
Read empty lines and the indentation of the next line.

`widest` is the largest column seen, which becomes the indentation when none is known.
-/
def emptyLines? (indent : Option Nat) :
    Nat → Nat → List Char → Cursor → Option (List Char × Nat × Cursor)
  | 0, _, _, _ => none
  | fuel + 1, widest, breaks, cursor =>
      let here := skipSpaces indent cursor
      let wider := max widest here.column
      let mayIndent := match indent with
        | none => true
        | some limit => here.column < limit
      if mayIndent && here.next == '\t' then
        none
      else if isBreak here.next then
        emptyLines? indent fuel wider (breaks ++ here.breakText) here.skipBreak
      else
        some (breaks, wider, here)

/-- Line breaks between two lines, and whether the lines beside them start with a gap. -/
structure BlockBreaks where
  first : List Char := []
  others : List Char := []
  afterGap : Bool := false

/-- The text between the lines of a block scalar. -/
def BlockBreaks.text (breaks : BlockBreaks) (isLiteral beforeGap : Bool) : List Char :=
  if !isLiteral && breaks.first = ['\n'] && !breaks.afterGap && !beforeGap then
    if breaks.others = [] then [' '] else breaks.others
  else
    breaks.first ++ breaks.others

/-- The lines of a block scalar; `read` holds the characters so far, in reverse. -/
def blockLines? (isLiteral : Bool) (indent : Nat) :
    Nat → List Char → BlockBreaks → Cursor → Option (List Char × BlockBreaks × Cursor)
  | 0, _, _, _ => none
  | fuel + 1, read, breaks, cursor =>
      if cursor.column = indent && !cursor.atEnd then
        let gap := isGap cursor.next
        let between := breaks.text isLiteral gap
        let (line, after) := cursor.span fun character => !isLineEnd character
        let longer := line.reverse ++ (between.reverse ++ read)
        match emptyLines? (some indent) (fuel + 1) 0 [] after.skipBreak with
        | none => none
        | some (others, _, beyond) =>
            blockLines? isLiteral indent fuel longer
              { first := after.breakText, others := others, afterGap := gap } beyond
      else
        some (read, breaks, cursor)

/-- The line breaks that are kept at the end of a block scalar. -/
def BlockBreaks.kept (breaks : BlockBreaks) : Chomping → List Char
  | .strip => []
  | .clip => breaks.first
  | .keep => breaks.first ++ breaks.others

/--
A block scalar and the cursor after it.

`parent` is one more than the indentation around it, or zero at the top; the number of
characters left and one more is fuel enough.
-/
def block? (isLiteral : Bool) (parent fuel : Nat) (cursor : Cursor) :
    Option (String × Cursor) := do
  let (head, afterMarks) ← blockHead? (cursor.skip 1)
  let start ← afterHead? afterMarks
  let given := head.increment.map (parent - 1 + ·)
  let (others, widest, here) ← emptyLines? given fuel 0 [] start
  let indent := given.getD (max widest (max parent 1))
  let (read, breaks, after) ←
    blockLines? isLiteral indent fuel [] { others := others } here
  return (String.ofList (read.reverse ++ breaks.kept head.chomping), after)

end RpcStubs.Data.Yaml
