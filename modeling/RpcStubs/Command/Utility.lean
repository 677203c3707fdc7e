import RpcStubs.Command.Basic
namespace RpcStubs.Command

/-!
# Utilities

The small programs of every environment: they copy, count, cut and change bytes.
-/

/-- The bytes of a character. -/
def bytesOf (character : Char) : List UInt8 :=
  (String.singleton character).toUTF8.toList

/-- Copy the input for `-`; nothing else can be read. -/
def copyEach : Utility
  | [], streams => (0, streams)
  | name :: others, streams =>
      if name = "-" then
        copyEach others (streams.write streams.input).drained
      else
        let (_, finished) :=
          copyEach others (streams.complain s!"cat: {name}: {Files.Fault.notFound.message}")
        (1, finished)

/-- Copy the input, or everything that is named. -/
def cat : Utility
  | [], streams => copyEach ["-"] streams
  | names, streams => copyEach names streams

/-- Write words with a blank between neighbours, and end the line unless `-n` comes first. -/
def echo : Utility
  | "-n" :: words, streams => (0, streams.say (Text.join " " words))
  | words, streams => (0, streams.say (Text.join " " words ++ "\n"))

/-- The digit of base eight that a character is. -/
def octalDigit? (character : Char) : Option Nat :=
  if '0' ≤ character ∧ character ≤ '7' then some (character.toNat - 48) else none

/-- Read digits of base eight, at most `budget` more. -/
def octal (value : Nat) : Nat → List Char → Nat × List Char
  | budget + 1, character :: rest =>
      match octalDigit? character with
      | some digit => octal (value * 8 + digit) budget rest
      | none => (value, character :: rest)
  | _, text => (value, text)

/-- Reading digits takes nothing away but them. -/
theorem length_octal (value budget : Nat) (text : List Char) :
    (octal value budget text).2.length ≤ text.length := by
  induction budget generalizing value text with
  | zero =>
      simp [octal]
  | succ budget inductionHypothesis =>
      cases text with
      | nil =>
          simp [octal]
      | cons character rest =>
          simp only [octal]
          split
          · exact Nat.le_succ_of_le (inductionHypothesis _ rest)
          · simp

/-- The control character that a letter after a backslash stands for. -/
def control? : Char → Option UInt8
  | 'a' => some 7
  | 'b' => some 8
  | 't' => some 9
  | 'n' => some 10
  | 'v' => some 11
  | 'f' => some 12
  | 'r' => some 13
  | '\\' => some 92
  | _ => none

/-- What a format writes with some arguments, and the arguments that are left. -/
def formatted (arguments : List String) : List Char → List UInt8 × List String
  | [] => ([], arguments)
  | ['\\'] => ([92], arguments)
  | '\\' :: character :: rest =>
      match control? character, octalDigit? character with
      | some byte, _ =>
          let (written, left) := formatted arguments rest
          (byte :: written, left)
      | none, some digit =>
          let read := octal digit 2 rest
          let (written, left) := formatted arguments read.2
          (UInt8.ofNat read.1 :: written, left)
      | none, none =>
          let (written, left) := formatted arguments rest
          (92 :: bytesOf character ++ written, left)
  | '%' :: '%' :: rest =>
      let (written, left) := formatted arguments rest
      (37 :: written, left)
  | '%' :: 's' :: rest =>
      let (written, left) := formatted arguments.tail rest
      ((arguments.headD "").toUTF8.toList ++ written, left)
  | '%' :: 'd' :: rest =>
      let (written, left) := formatted arguments.tail rest
      ((arguments.headD "0").toUTF8.toList ++ written, left)
  | character :: rest =>
      let (written, left) := formatted arguments rest
      (bytesOf character ++ written, left)
termination_by text => text.length
decreasing_by
  all_goals
    simp only [List.length_cons]
    try omega
  have shorter := length_octal digit 2 rest
  change (octal digit 2 rest).2.length < _
  omega

/-- Write a format as often as it takes to use up the arguments, which `budget` bounds. -/
def printEach (format : List Char) : Nat → Utility
  | 0, _, streams => (0, streams)
  | budget + 1, arguments, streams =>
      let (written, left) := formatted arguments format
      if left = [] ∨ left.length = arguments.length then
        (0, streams.write written)
      else
        printEach format budget left (streams.write written)

/-- Write arguments as a format says. -/
def printf : Utility
  | [], streams => (2, streams.complain "printf: missing operand")
  | format :: arguments, streams =>
      printEach format.toList (arguments.length + 1) arguments streams

/-- Count the bytes or the lines of the input. -/
def count : Utility
  | ["-c"], streams => (0, (streams.say s!"{streams.input.length}\n").drained)
  | ["-l"], streams => (0, (streams.say s!"{streams.input.count 10}\n").drained)
  | _, streams => (1, streams.complain "wc: invalid option")

/-- The bytes up to the end of a number of lines. -/
def firstLines : Nat → List UInt8 → List UInt8
  | 0, _ => []
  | _, [] => []
  | lines + 1, byte :: rest => byte :: firstLines (if byte = 10 then lines else lines + 1) rest

/-- Copy the start of the input: ten lines, or as many lines or bytes as are asked for. -/
def head : Utility
  | [], streams => (0, (streams.write (firstLines 10 streams.input)).drained)
  | ["-n", number], streams =>
      (0, (streams.write (firstLines (number.toNat?.getD 0) streams.input)).drained)
  | ["-c", number], streams =>
      (0, (streams.write (streams.input.take (number.toNat?.getD 0))).drained)
  | _, streams => (1, streams.complain "head: invalid option")

/-- The bytes of a set, ranges written out. -/
def byteSet : List UInt8 → List UInt8
  | first :: 45 :: last :: rest =>
      (List.range (last.toNat + 1 - first.toNat)).map (fun step => first + UInt8.ofNat step) ++
        byteSet rest
  | byte :: rest => byte :: byteSet rest
  | [] => []

/-- The byte that takes the place of another one; the last byte of a set stands for all later. -/
def replacementFor (source target : List UInt8) (byte : UInt8) : UInt8 :=
  match source.idxOf? byte with
  | some index => target.getD index (target.getLastD byte)
  | none => byte

/-- Replace the bytes of one set by those of another one, or delete them. -/
def translate : Utility
  | ["-d", source], streams =>
      let set := byteSet source.toUTF8.toList
      (0, (streams.write (streams.input.filter fun byte => !set.contains byte)).drained)
  | [source, target], streams =>
      let sources := byteSet source.toUTF8.toList
      let targets := byteSet target.toUTF8.toList
      (0, (streams.write (streams.input.map (replacementFor sources targets))).drained)
  | _, streams => (1, streams.complain "tr: missing operand")

/-- The programs that every environment has, by name. -/
def utilities : List (String × Utility) := [
  ("cat", cat),
  ("echo", echo),
  ("printf", printf),
  ("wc", count),
  ("head", head),
  ("tr", translate),
  ("true", fun _ streams => (0, streams)),
  ("false", fun _ streams => (1, streams))]

end RpcStubs.Command
