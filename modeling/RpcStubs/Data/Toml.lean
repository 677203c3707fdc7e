import RpcStubs.Data.Json
namespace RpcStubs.Data.Toml

/-!
# TOML

Reading a TOML text as its statements: table headers and assignments. Of values, texts,
truth values, lists and inline tables are understood; a text with any other value is
refused.
-/

/-- A value. -/
inductive Value
  | text (value : String)
  | boolean (value : Bool)
  | list (items : List Value)
  | table (entries : List (List String × Value))
deriving Repr

/-- A statement: the header of a table, or the assignment of a value to a dotted key. -/
inductive Statement
  | header (path : List String)
  | assignment (path : List String) (value : Value)
deriving Repr

/-- Whether a character may stand in a comment or a string on one line. -/
def isPrintable (character : Char) : Bool :=
  character == '\t' || (0x20 ≤ character.toNat && character.toNat ≠ 0x7F)

/-- Whether a character may stand in a bare key. -/
def isBareCharacter (character : Char) : Bool :=
  character.isAlphanum || character == '-' || character == '_'

/-- The text without spaces and tabs at its start. -/
def skipGaps : List Char → List Char :=
  List.dropWhile fun character => character == ' ' || character == '\t'

/-- The text after a line break at its start. -/
def afterBreak? : List Char → Option (List Char)
  | '\n' :: rest => some rest
  | '\r' :: '\n' :: rest => some rest
  | _ => none

/-- The text without a comment at its start. -/
def skipComment : List Char → List Char
  | '#' :: rest => rest.dropWhile isPrintable
  | text => text

/-- The text after the end of a line, at which nothing but a comment may stand. -/
def afterLine? (text : List Char) : Option (List Char) :=
  match skipComment (skipGaps text) with
  | [] => some []
  | rest => afterBreak? rest

/-- The text without blanks, line breaks and comments at its start. -/
def skipBlanks : Nat → List Char → List Char
  | 0, text => text
  | fuel + 1, text =>
      let rest := skipComment (skipGaps text)
      match afterBreak? rest with
      | some after => skipBlanks fuel after
      | none => rest

/-- The number that some hexadecimal digits spell, and the text after them. -/
def hexCharacter? (width : Nat) (text : List Char) : Option (Char × List Char) := do
  let digits := text.take width
  let code ← digits.foldlM
    (fun number digit => (Json.hexDigit? digit).map (number * 16 + ·)) 0
  if digits.length = width && code.isValidChar then
    return (Char.ofNat code, text.drop width)
  else
    none

/-- The character that an escape spells, and the text after it. -/
def escape? : List Char → Option (Char × List Char)
  | 'b' :: rest => some ('\x08', rest)
  | 't' :: rest => some ('\t', rest)
  | 'n' :: rest => some ('\n', rest)
  | 'f' :: rest => some ('\x0c', rest)
  | 'r' :: rest => some ('\r', rest)
  | '\x22' :: rest => some ('\x22', rest)
  | '\\' :: rest => some ('\\', rest)
  | 'u' :: rest => hexCharacter? 4 rest
  | 'U' :: rest => hexCharacter? 8 rest
  | _ => none

/-- The rest of a basic string on one line; `read` holds its characters in reverse. -/
def basic? : Nat → List Char → List Char → Option (String × List Char)
  | 0, _, _ => none
  | _, _, [] => none
  | fuel + 1, read, character :: rest =>
      if character == '\x22' then
        some (String.ofList read.reverse, rest)
      else if character == '\\' then
        match escape? rest with
        | some (meant, after) => basic? fuel (meant :: read) after
        | none => none
      else if isPrintable character then
        basic? fuel (character :: read) rest
      else
        none

/-- The rest of a literal string on one line. -/
def literal? (text : List Char) : Option (String × List Char) :=
  let inside := text.takeWhile fun character => isPrintable character && character != '\x27'
  match text.drop inside.length with
  | '\x27' :: rest => some (String.ofList inside, rest)
  | _ => none

/-- The text after blanks of any kind. -/
def skipAllBlanks : Nat → List Char → List Char
  | 0, text => text
  | fuel + 1, text =>
      let rest := skipGaps text
      match afterBreak? rest with
      | some after => skipAllBlanks fuel after
      | none => rest

/-- How many quotes a text starts with. -/
def quoteRun (quote : Char) (text : List Char) : Nat :=
  (text.takeWhile (· == quote)).length

/-- The rest of a string over several lines; `read` holds its characters in reverse. -/
def longString? (quote : Char) : Nat → List Char → List Char → Option (String × List Char)
  | 0, _, _ => none
  | _, _, [] => none
  | fuel + 1, read, character :: rest =>
      if character == quote then
        let count := quoteRun quote (character :: rest)
        if count < 3 then
          longString? quote fuel (character :: read) rest
        else if count ≤ 5 then
          some (String.ofList (read.reverse ++ List.replicate (count - 3) quote),
            (character :: rest).drop count)
        else
          none
      else if character == '\\' && quote == '\x22' then
        match escape? rest with
        | some (meant, after) => longString? quote fuel (meant :: read) after
        | none =>
            match afterBreak? (skipGaps rest) with
            | some after => longString? quote fuel read (skipAllBlanks (after.length + 1) after)
            | none => none
      else
        match afterBreak? (character :: rest) with
        | some after => longString? quote fuel ('\n' :: read) after
        | none =>
            if isPrintable character then
              longString? quote fuel (character :: read) rest
            else
              none

/-- A string at the start of a text; keys take none over several lines. -/
def string? (isKey : Bool) (text : List Char) : Option (String × List Char) :=
  match text with
  | [] => none
  | quote :: rest =>
      if !isKey && 3 ≤ quoteRun quote text then
        let body := text.drop 3
        longString? quote (body.length + 1) [] ((afterBreak? body).getD body)
      else if quote == '\x22' then
        basic? (rest.length + 1) [] rest
      else
        literal? rest

/-- Whether a character starts a string. -/
def isQuote (character : Char) : Bool :=
  character == '\x22' || character == '\x27'

/-- A part of a dotted key, and the text after it. -/
def keyPart? (text : List Char) : Option (String × List Char) :=
  match text with
  | first :: _ =>
      if isQuote first then
        string? true text
      else
        let bare := text.takeWhile isBareCharacter
        if bare = [] then none else some (String.ofList bare, text.drop bare.length)
  | [] => none

/-- A dotted key, and the text after it and after gaps. -/
def key? : Nat → List Char → Option (List String × List Char)
  | 0, _ => none
  | fuel + 1, text => do
      let (part, after) ← keyPart? (skipGaps text)
      match skipGaps after with
      | '.' :: rest =>
          let (others, beyond) ← key? fuel rest
          return (part :: others, beyond)
      | rest => return ([part], rest)

/-- The text after a word at its start. -/
def afterWord? (word : String) (text : List Char) : Option (List Char) :=
  if word.toList.isPrefixOf text then some (text.drop word.length) else none

/-- Whether two dotted keys may stand in one table: neither is the start of the other. -/
def areApart (first second : List String) : Bool :=
  !first.isPrefixOf second && !second.isPrefixOf first

mutual

/-- A value at the start of a text, and the text after it. -/
def value? : Nat → List Char → Option (Value × List Char)
  | 0, _ => none
  | fuel + 1, text =>
      match text with
      | [] => none
      | first :: rest =>
          if isQuote first then
            (string? false text).map fun (string, after) => (.text string, after)
          else if first == '[' then
            items? fuel [] rest
          else if first == '\x7b' then
            match skipGaps rest with
            | '\x7d' :: after => some (.table [], after)
            | inner => entries? fuel [] inner
          else
            match afterWord? "true" text, afterWord? "false" text with
            | some after, _ => some (.boolean true, after)
            | _, some after => some (.boolean false, after)
            | none, none => none

/-- The items of a list after those in `read`, in reverse, and the text after the list. -/
def items? : Nat → List Value → List Char → Option (Value × List Char)
  | 0, _, _ => none
  | fuel + 1, read, text =>
      match skipBlanks (text.length + 1) text with
      | ']' :: rest => some (.list read.reverse, rest)
      | inner =>
          match value? fuel inner with
          | none => none
          | some (item, after) =>
              match skipBlanks (after.length + 1) after with
              | ',' :: rest => items? fuel (item :: read) rest
              | ']' :: rest => some (.list (item :: read).reverse, rest)
              | _ => none

/-- The entries of an inline table after those in `read`, in reverse, and the text after it. -/
def entries? : Nat → List (List String × Value) → List Char → Option (Value × List Char)
  | 0, _, _ => none
  | fuel + 1, read, text =>
      match key? (text.length + 1) text with
      | some (key, '=' :: afterEquals) =>
          match value? fuel (skipGaps afterEquals) with
          | none => none
          | some (value, after) =>
              if read.all fun entry => areApart key entry.1 then
                match skipGaps after with
                | ',' :: rest => entries? fuel ((key, value) :: read) rest
                | '\x7d' :: rest => some (.table ((key, value) :: read).reverse, rest)
                | _ => none
              else
                none
      | _ => none

end

/-- The statement at the start of a text, and the text after it. -/
def statement? (text : List Char) : Option (Statement × List Char) :=
  match text with
  | '[' :: rest =>
      match key? (rest.length + 1) rest with
      | some (path, ']' :: after) => some (.header path, after)
      | _ => none
  | _ =>
      match key? (text.length + 1) text with
      | some (path, '=' :: rest) =>
          (value? (2 * rest.length + 2) (skipGaps rest)).map fun (value, after) =>
            (.assignment path value, after)
      | _ => none

/-- The statements of a text. -/
def statements? : Nat → List Char → Option (List Statement)
  | 0, _ => none
  | fuel + 1, text =>
      match skipBlanks (text.length + 1) text with
      | [] => some []
      | rest => do
          let (statement, after) ← statement? rest
          let next ← afterLine? after
          let others ← statements? fuel next
          return statement :: others

/-- The statements of a text; a byte order mark at its start does not count. -/
def read? (text : String) : Option (List Statement) :=
  let characters := match text.toList with
    | '\uFEFF' :: rest => rest
    | rest => rest
  statements? (characters.length + 1) characters

end RpcStubs.Data.Toml
