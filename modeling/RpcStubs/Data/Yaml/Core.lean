import RpcStubs.Data.Json
import RpcStubs.Text.Pieces
namespace RpcStubs.Data.Yaml

open Text

/-!
# The values of scalars

What a plain scalar or a scalar with a tag stands for: null, a truth value, a number, or
its own text.
-/

/-- Whether a text spells null. -/
def isNullText (text : String) : Bool :=
  ["~", "null", "Null", "NULL"].contains text

/-- The truth value that a text spells. -/
def boolean? (text : String) : Option Bool :=
  if ["true", "True", "TRUE"].contains text then
    some true
  else if ["false", "False", "FALSE"].contains text then
    some false
  else
    none

/-- The text without a leading text. -/
def after? (leading : String) (text : List Char) : Option (List Char) :=
  if leading.toList.isPrefixOf text then some (text.drop leading.length) else none

/-- The value of a digit in a base. -/
def digit? (base : Nat) (character : Char) : Option Nat :=
  match Json.hexDigit? character with
  | some value => if value < base then some value else none
  | none => none

/-- The number that digits in a base spell; there must be one digit at least. -/
def natural? (base : Nat) (text : List Char) : Option Nat :=
  if text = [] then
    none
  else
    text.foldlM (fun number character => (digit? base character).map (number * base + ·)) 0

/-- Whether a text is a zero with more digits after it, which is no number. -/
def hasLeadingZero (text : List Char) : Bool :=
  let unsigned := match text with
    | '-' :: rest => rest
    | '+' :: rest => rest
    | rest => rest
  match unsigned with
  | '0' :: second :: rest => (second :: rest).all Char.isDigit
  | _ => false

/-- The number that a text without sign spells, in base ten or in the base that it names. -/
def based? (text : List Char) : Option Nat :=
  match after? "0x" text, after? "0o" text, after? "0b" text with
  | some digits, _, _ => natural? 16 digits
  | _, some digits, _ => natural? 8 digits
  | _, _, some digits => natural? 2 digits
  | _, _, _ => natural? 10 text

/-- The integer that a text spells, if it fits into 128 bits. -/
def integer? (text : List Char) : Option Int :=
  if hasLeadingZero text then
    none
  else
    match text with
    | '-' :: rest =>
        match based? rest with
        | some size => if size ≤ Nat.pow 2 127 then some (-size) else none
        | none => none
    | '+' :: rest => (based? rest).bind fun size => if size < Nat.pow 2 128 then some size else none
    | rest => (based? rest).bind fun size => if size < Nat.pow 2 128 then some size else none

/-- Whether a text spells infinity or no number. -/
def isUnbounded (text : String) : Bool :=
  [".inf", ".Inf", ".INF", "+.inf", "+.Inf", "+.INF", "-.inf", "-.Inf", "-.INF", ".nan", ".NaN",
    ".NAN"].contains text

/-- The decimal that a text spells, with or without digits on either side of its point. -/
def decimal? (text : List Char) : Option Decimal := do
  let (negative, unsigned) := match text with
    | '-' :: rest => (true, rest)
    | '+' :: rest => (false, rest)
    | rest => (false, rest)
  let (whole, afterWhole) := Json.digits unsigned
  let (places, afterPlaces) := match afterWhole with
    | '.' :: rest => Json.digits rest
    | rest => ([], rest)
  let (power, rest) ← Json.exponent? afterPlaces
  if (whole = [] && places = []) || rest ≠ [] then
    none
  else
    return { negative := negative
             mantissa := Json.numberOf (whole ++ places)
             exponent := power.getD 0 - places.length }

/-- The number with a fraction or exponent that a text spells. -/
def float? (text : String) : Option Scalar :=
  if isUnbounded text then
    some (.decimal false)
  else
    match decimal? text.toList with
    | some decimal => if decimal.isFinite then some (.decimal decimal.isWhole) else none
    | none => none

/-- The number that a text spells. -/
def number? (text : String) : Option Scalar :=
  match integer? text.toList with
  | some value => some (.integer value)
  | none => if hasLeadingZero text.toList then none else float? text

/-- What a plain scalar stands for. -/
def plainValue (text : String) : Scalar :=
  if text = "" || isNullText text then
    .null
  else
    match boolean? text with
    | some value => .boolean value
    | none => (number? text).getD (.text text)

/-- What a scalar with a tag of the core schema stands for, if it spells such a value. -/
def taggedValue? (tag text : String) : Option Scalar :=
  match tag with
  | "tag:yaml.org,2002:null" => if isNullText text then some .null else none
  | "tag:yaml.org,2002:bool" => (boolean? text).map .boolean
  | "tag:yaml.org,2002:int" => (integer? text.toList).map .integer
  | "tag:yaml.org,2002:float" => float? text
  | _ => some (.text text)

/-- Whether a tag gives a node a type of the file's own. -/
def isLocal (tag : String) : Bool :=
  tag.toList.head? = some '!'

/-- The node of a scalar, if its tag admits its text. -/
def scalarNode? (tag : Option String) (text : String) (isPlain : Bool) : Option Node :=
  match tag with
  | some tag =>
      if isLocal tag then
        some (.tagged (.scalar (.text text) (some text)))
      else
        (taggedValue? tag text).map fun value => .scalar value (some text)
  | none =>
      some (.scalar (if isPlain then plainValue text else .text text) (some text))

end RpcStubs.Data.Yaml
