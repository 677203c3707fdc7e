namespace RpcStubs.Text

/-!
# Bytes as text

Reading bytes as UTF-8. `decode?` refuses bytes that are no text; `decodeLossy` writes the
replacement character for every longest run of bytes that starts a character without ending it.
-/

/-- The character that stands for bytes that are no text. -/
def replacement : Char := '\uFFFD'

/-- Whether a byte lies in a range. -/
def within (low high byte : UInt8) : Bool :=
  low ≤ byte && byte ≤ high

/-- Whether a byte continues a character of several bytes. -/
def continues (byte : UInt8) : Bool :=
  within 0x80 0xBF byte

/-- The bytes that may come second after a leading byte, with the number of bytes in all. -/
def secondByte (lead : UInt8) : Option (Nat × (UInt8 → Bool)) :=
  if within 0xC2 0xDF lead then
    some (2, continues)
  else if lead == 0xE0 then
    some (3, within 0xA0 0xBF)
  else if lead == 0xED then
    some (3, within 0x80 0x9F)
  else if within 0xE1 0xEF lead then
    some (3, continues)
  else if lead == 0xF0 then
    some (4, within 0x90 0xBF)
  else if within 0xF1 0xF3 lead then
    some (4, continues)
  else if lead == 0xF4 then
    some (4, within 0x80 0x8F)
  else
    none

/-- The character whose bits are in a leading byte and in the bytes that continue it. -/
def assembled (lead : UInt8) (others : List UInt8) : Char :=
  let first := match others.length with
    | 1 => lead.toNat % 0x20
    | 2 => lead.toNat % 0x10
    | _ => lead.toNat % 0x08
  Char.ofNat (others.foldl (fun code byte => code * 0x40 + byte.toNat % 0x40) first)

/-- The first character of bytes that start with `lead`, and how many further bytes it takes. -/
def firstCharacter (lead : UInt8) (rest : List UInt8) : Char × Nat :=
  if lead < 0x80 then
    (Char.ofNat lead.toNat, 0)
  else
    match secondByte lead, rest with
    | some (size, fits), second :: later =>
        if fits second then
          let others := second :: (later.take (size - 2)).takeWhile continues
          if others.length + 1 = size then
            (assembled lead others, others.length)
          else
            (replacement, others.length)
        else
          (replacement, 0)
    | _, _ => (replacement, 0)

/-- The characters of some bytes, every run of bytes that is no character replaced. -/
def decodeLossy : List UInt8 → List Char
  | [] => []
  | lead :: rest =>
      let (character, taken) := firstCharacter lead rest
      character :: decodeLossy (rest.drop taken)
termination_by bytes => bytes.length
decreasing_by
  simp only [List.length_cons, List.length_drop]
  omega

/-- The text that some bytes hold, when they are well-formed. -/
def decode? (bytes : ByteArray) : Option String :=
  String.fromUTF8? bytes

/-- The text of some bytes for showing, whatever they hold. -/
def shown (bytes : ByteArray) : String :=
  match decode? bytes with
  | some text => text
  | none => String.ofList (decodeLossy bytes.toList)

end RpcStubs.Text
