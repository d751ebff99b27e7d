/-!
# Hexadecimal text

Bytes are written as two lowercase digits each.
-/

namespace Covenant.Text

def hexDigit (value : Nat) : Char :=
  if value < 10 then
    Char.ofNat ('0'.toNat + value)
  else
    Char.ofNat ('a'.toNat + (value - 10))

def hexByte (byte : UInt8) : List Char :=
  [hexDigit (byte.toNat / 16), hexDigit (byte.toNat % 16)]

/-- Two digits per byte, without any prefix. -/
def hex (bytes : List UInt8) : String :=
  String.ofList (bytes.flatMap hexByte)

def isHexDigit (character : Char) : Bool :=
  ('0' ≤ character && character ≤ '9') || ('a' ≤ character && character ≤ 'f') ||
    ('A' ≤ character && character ≤ 'F')

/-- The value of a hexadecimal digit, zero for any other character. -/
def hexValue (character : Char) : Nat :=
  if '0' ≤ character && character ≤ '9' then
    character.toNat - '0'.toNat
  else if 'a' ≤ character && character ≤ 'f' then
    character.toNat - 'a'.toNat + 10
  else if 'A' ≤ character && character ≤ 'F' then
    character.toNat - 'A'.toNat + 10
  else
    0

def hexNumber (digits : List Char) : Nat :=
  digits.foldl (fun value digit => value * 16 + hexValue digit) 0

def hexNat (value : Nat) : String :=
  String.ofList (Nat.toDigits 16 value)

def ofHex? : List Char → Option (List UInt8)
  | [] => some []
  | high :: low :: rest =>
    if isHexDigit high && isHexDigit low then
      (ofHex? rest).map (UInt8.ofNat (hexValue high * 16 + hexValue low) :: ·)
    else
      none
  | [_] => none

end Covenant.Text
