/-!
# Decimal numerals

Reading and writing natural numbers in base ten.  Reading takes an optional
plus sign, any number of leading zeros, and refuses values that do not fit
below a limit.
-/

namespace Covenant.Text

def isDigit (character : Char) : Bool :=
  '0' ≤ character && character ≤ '9'

def digitsValue (digits : List Char) : Nat :=
  digits.foldl (fun value digit => value * 10 + (digit.toNat - '0'.toNat)) 0

/-- Read a nonempty list of digits as a number below `limit`. -/
def readDigits? (limit : Nat) (digits : List Char) : Option Nat :=
  if !digits.isEmpty && digits.all isDigit && digitsValue digits < limit then
    some (digitsValue digits)
  else
    none

/-- Read a numeral, possibly with a plus sign, as a number below `limit`. -/
def readNat? (limit : Nat) (text : String) : Option Nat :=
  match text.toList with
  | '+' :: digits => readDigits? limit digits
  | digits => readDigits? limit digits

/-- One more than the largest number of eight bits. -/
def limit8 : Nat := 256

/-- One more than the largest number of thirty-two bits. -/
def limit32 : Nat := 4294967296

end Covenant.Text
