namespace RpcStubs.Source

/-!
# Balanced brackets

Brackets in source text must be well nested outside comments and literals. The text is read
character by character; the state says which brackets are open, since which line, and
whether the next character belongs to a comment or a literal.
-/

/-- The three kinds of brackets. -/
inductive Bracket
  | brace
  | parenthesis
  | square
deriving Repr, DecidableEq

/-- The opening character of a bracket. -/
def Bracket.opening : Bracket → Char
  | .brace => '\x7b'
  | .parenthesis => '('
  | .square => '['

/-- The closing character of a bracket. -/
def Bracket.closing : Bracket → Char
  | .brace => '\x7d'
  | .parenthesis => ')'
  | .square => ']'

/-- The bracket that a character opens. -/
def Bracket.opened? (character : Char) : Option Bracket :=
  [brace, parenthesis, square].find? fun bracket => bracket.opening == character

/-- The bracket that a character closes. -/
def Bracket.closed? (character : Char) : Option Bracket :=
  [brace, parenthesis, square].find? fun bracket => bracket.closing == character

/-- What is wrong with the brackets or literals of a text, and on which lines. -/
inductive Imbalance
  | mismatched (closed : Bracket) (line : Nat) (opened : Bracket) (since : Nat)
  | unmatched (closed : Bracket) (line : Nat)
  | unclosed (opened : Bracket) (since : Nat)
  | literal (line : Nat)
  | rawString
  | blockComment
deriving Repr, DecidableEq

/-- A character between single quotes. -/
def quotedChar (character : Char) : String :=
  "'" ++ String.singleton character ++ "'"

/-- The imbalance in words. -/
def Imbalance.message : Imbalance → String
  | .mismatched closed line opened since =>
      quotedChar closed.closing ++ s!" on line {line} closes " ++
        quotedChar opened.opening ++ s!" from line {since}"
  | .unmatched closed line => "unmatched " ++ quotedChar closed.closing ++ s!" on line {line}"
  | .unclosed opened since => quotedChar opened.opening ++ s!" from line {since} is never closed"
  | .literal line => s!"unterminated literal on line {line}"
  | .rawString => "unterminated raw string"
  | .blockComment => "unterminated block comment"

/-- What the next character belongs to. -/
inductive Mode
  | code
  | slash
  | lineComment
  | blockComment (afterStar : Bool)
  | literal (quote : Char)
  | escape (quote : Char)
  | raw
deriving Repr, DecidableEq

/-- How far a text has been read: the line, the mode, and the open brackets with their lines. -/
structure Reading where
  line : Nat := 1
  mode : Mode := .code
  opened : List (Bracket × Nat) := []
deriving Repr, DecidableEq

namespace Reading

/-- Read a character of code. -/
def stepCode (reading : Reading) (character : Char) : Except Imbalance Reading :=
  if character = '\n' then
    .ok { reading with line := reading.line + 1, mode := .code }
  else if character = '/' then
    .ok { reading with mode := .slash }
  else if character = '\x22' || character = '\x27' then
    .ok { reading with mode := .literal character }
  else if character = '\x60' then
    .ok { reading with mode := .raw }
  else
    match Bracket.opened? character, Bracket.closed? character with
    | some bracket, _ =>
        .ok { reading with mode := .code, opened := (bracket, reading.line) :: reading.opened }
    | none, some bracket =>
        match reading.opened with
        | [] => .error (.unmatched bracket reading.line)
        | (last, since) :: others =>
            if last = bracket then
              .ok { reading with mode := .code, opened := others }
            else
              .error (.mismatched bracket reading.line last since)
    | none, none => .ok { reading with mode := .code }

/-- The line after a character. -/
def lineAfter (reading : Reading) (character : Char) : Nat :=
  if character = '\n' then reading.line + 1 else reading.line

/-- Read one character. -/
def step (reading : Reading) (character : Char) : Except Imbalance Reading :=
  match reading.mode with
  | .code => reading.stepCode character
  | .slash =>
      if character = '/' then
        .ok { reading with mode := .lineComment }
      else if character = '*' then
        .ok { reading with mode := .blockComment false }
      else
        reading.stepCode character
  | .lineComment =>
      .ok { reading with
        line := reading.lineAfter character
        mode := if character = '\n' then .code else .lineComment }
  | .blockComment afterStar =>
      .ok { reading with
        line := reading.lineAfter character
        mode :=
          if afterStar && character = '/' then .code else .blockComment (character = '*') }
  | .literal quote =>
      if character = '\\' then
        .ok { reading with mode := .escape quote }
      else if character = '\n' then
        .error (.literal reading.line)
      else if character = quote then
        .ok { reading with mode := .code }
      else
        .ok reading
  | .escape quote => .ok { reading with mode := .literal quote }
  | .raw =>
      .ok { reading with
        line := reading.lineAfter character
        mode := if character = '\x60' then .code else .raw }

/-- Read some characters. -/
def steps (reading : Reading) (text : List Char) : Except Imbalance Reading :=
  text.foldlM step reading

/-- What is wrong when the text ends here. -/
def ending (reading : Reading) : Except Imbalance Unit :=
  match reading.mode with
  | .blockComment _ => .error .blockComment
  | .literal _ => .error (.literal reading.line)
  | .escape _ => .error (.literal reading.line)
  | .raw => .error .rawString
  | _ =>
      match reading.opened with
      | [] => .ok ()
      | (last, since) :: _ => .error (.unclosed last since)

end Reading

/-- Check that the brackets of a text are balanced. -/
def checkBrackets (text : List Char) : Except Imbalance Unit :=
  match Reading.steps {} text with
  | .ok reading => reading.ending
  | .error imbalance => .error imbalance

end RpcStubs.Source
