import RpcStubs.Text.Blank
namespace RpcStubs.Text

/-!
# Pieces of a text between marks

Cutting a text at every mark, at the first mark or at the last one, and the pieces
joined again.
-/

/-- The pieces between marks; a text without a mark is one piece. -/
def pieces (isMark : Char → Bool) : List Char → List (List Char)
  | [] => [[]]
  | character :: rest =>
      if isMark character then
        [] :: pieces isMark rest
      else
        match pieces isMark rest with
        | [] => [[character]]
        | piece :: others => (character :: piece) :: others

/-- There is always a first piece. -/
theorem pieces_ne_nil (isMark : Char → Bool) (text : List Char) :
    pieces isMark text ≠ [] := by
  cases text with
  | nil =>
      simp [pieces]
  | cons character rest =>
      unfold pieces
      split
      · simp
      · split <;> simp

/-- The text before the first mark and the text after it. -/
def cutFirst (mark : Char) : List Char → Option (List Char × List Char)
  | [] => none
  | character :: rest =>
      if character = mark then
        some ([], rest)
      else
        (cutFirst mark rest).map fun (before, after) => (character :: before, after)

/-- The text before the last mark and the text after it. -/
def cutLast (mark : Char) : List Char → Option (List Char × List Char)
  | [] => none
  | character :: rest =>
      match cutLast mark rest with
      | some (before, after) => some (character :: before, after)
      | none => if character = mark then some ([], rest) else none

/-- The text after the last mark, or the whole text when it has none. -/
def afterLast (mark : Char) (text : List Char) : List Char :=
  match cutLast mark text with
  | some (_, after) => after
  | none => text

/-- Pieces written one after the other with a separator between neighbours. -/
def joined (separator : List Char) : List (List Char) → List Char
  | [] => []
  | [piece] => piece
  | piece :: next :: others => piece ++ separator ++ joined separator (next :: others)

/-- The words of a text: its pieces between blanks that are not empty. -/
def words (text : List Char) : List (List Char) :=
  (pieces isBlank text).filter (!·.isEmpty)

/-- Whether a text occurs inside another one. -/
def occursIn (wanted : List Char) : List Char → Bool
  | [] => wanted.isEmpty
  | character :: rest =>
      wanted.isPrefixOf (character :: rest) || occursIn wanted rest

/-- The pieces of a string between occurrences of a mark. -/
def segments (mark : Char) (text : String) : List String :=
  (pieces (· == mark) text.toList).map String.ofList

/-- Strings written one after the other with a separator between neighbours. -/
def join (separator : String) : List String → String
  | [] => ""
  | [piece] => piece
  | piece :: next :: others => piece ++ separator ++ join separator (next :: others)

end RpcStubs.Text
