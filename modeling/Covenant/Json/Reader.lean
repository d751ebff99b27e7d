import Covenant.Json.Basic
import Covenant.Text.Hex

/-!
# Reading JSON

Reading takes exactly one value, with blanks before and after it.  Of every
step the result is what it took and the text behind it.
-/

namespace Covenant.Json

def isBlank (character : Char) : Bool :=
  character == ' ' || character == '\t' || character == '\n' || character == '\r'

def skipBlanks (text : List Char) : List Char :=
  text.dropWhile isBlank

/-! ## Strings -/

/-- A part of a string: a character, or a unit of sixteen bits that is escaped. -/
inductive Piece where
  | char (character : Char)
  | unit (code : Nat)

def simpleEscape? : Char → Option Char
  | '"' => some '"'
  | '\\' => some '\\'
  | '/' => some '/'
  | 'b' => some '\x08'
  | 'f' => some '\x0c'
  | 'n' => some '\n'
  | 'r' => some '\r'
  | 't' => some '\t'
  | _ => none

def pieces : List Char → Option (List Piece × List Char)
  | '"' :: rest => some ([], rest)
  | '\\' :: 'u' :: a :: b :: c :: d :: rest =>
    if [a, b, c, d].all Text.isHexDigit then
      (pieces rest).map fun (following, rest) =>
        (.unit (Text.hexNumber [a, b, c, d]) :: following, rest)
    else
      none
  | '\\' :: letter :: rest =>
    match simpleEscape? letter with
    | some character =>
      (pieces rest).map fun (following, rest) => (.char character :: following, rest)
    | none => none
  | character :: rest =>
    if character = '\\' || character.toNat < 32 then
      none
    else
      (pieces rest).map fun (following, rest) => (.char character :: following, rest)
  | [] => none

def isLeading (code : Nat) : Bool :=
  0xD800 ≤ code && code < 0xDC00

def isTrailing (code : Nat) : Bool :=
  0xDC00 ≤ code && code < 0xE000

def pairChar (leading trailing : Nat) : Char :=
  Char.ofNat (0x10000 + (leading - 0xD800) * 0x400 + (trailing - 0xDC00))

/-- The characters that the parts of a string spell; a unit of a pair cannot stand alone. -/
def spelled? : List Piece → Option (List Char)
  | [] => some []
  | .char character :: rest => (spelled? rest).map (character :: ·)
  | .unit leading :: .unit trailing :: rest =>
    if isLeading leading then
      if isTrailing trailing then
        (spelled? rest).map (pairChar leading trailing :: ·)
      else
        none
    else if isTrailing leading then
      none
    else
      (spelled? (.unit trailing :: rest)).map (Char.ofNat leading :: ·)
  | .unit code :: rest =>
    if isLeading code || isTrailing code then
      none
    else
      (spelled? rest).map (Char.ofNat code :: ·)

def readString (text : List Char) : Option (Option String × List Char) :=
  (pieces text).map fun (parts, rest) => ((spelled? parts).map String.ofList, rest)

/-! ## Numbers -/

def takeDigits (text : List Char) : Option (List Char × List Char) :=
  match text.takeWhile Text.isDigit with
  | [] => none
  | digits => some (digits, text.dropWhile Text.isDigit)

/-- Take the digits before the point: a zero stands alone. -/
def takeWhole (text : List Char) : Option (List Char × List Char) := do
  let (digits, rest) ← takeDigits text
  if digits.head? = some '0' && digits.length ≠ 1 then none else some (digits, rest)

/-- Take a point and the digits behind it, if there is one. -/
def takeFraction : List Char → Option (List Char × List Char)
  | '.' :: text => (takeDigits text).map fun (digits, rest) => ('.' :: digits, rest)
  | text => some ([], text)

def takeSign : List Char → List Char × List Char
  | '+' :: rest => (['+'], rest)
  | '-' :: rest => (['-'], rest)
  | text => ([], text)

def takeExponent : List Char → Option (List Char × List Char)
  | [] => some ([], [])
  | mark :: text =>
    if mark = 'e' || mark = 'E' then
      let (sign, unsigned) := takeSign text
      (takeDigits unsigned).map fun (digits, rest) => (mark :: sign ++ digits, rest)
    else
      some ([], mark :: text)

def takeUnsigned (text : List Char) : Option (List Char × List Char) := do
  let (whole, text) ← takeWhole text
  let (fraction, text) ← takeFraction text
  let (exponent, text) ← takeExponent text
  return (whole ++ fraction ++ exponent, text)

def readNumber : List Char → Option (Json × List Char)
  | '-' :: text =>
    (takeUnsigned text).map fun (digits, rest) => (.number (String.ofList ('-' :: digits)), rest)
  | text => (takeUnsigned text).map fun (digits, rest) => (.number (String.ofList digits), rest)

/-! ## Values -/

mutual

/-- Read a value; `bound` exceeds the number of steps. -/
def valueWithin : Nat → List Char → Option (Json × List Char)
  | 0, _ => none
  | bound + 1, text =>
    match skipBlanks text with
    | '"' :: rest => (readString rest).map fun (content, rest) => (.string content, rest)
    | '[' :: rest =>
      match skipBlanks rest with
      | ']' :: rest => some (.array [], rest)
      | _ => (itemsWithin bound rest).map fun (items, rest) => (.array items, rest)
    | '\x7b' :: rest =>
      match skipBlanks rest with
      | '\x7d' :: rest => some (.object [], rest)
      | _ => (membersWithin bound rest).map fun (members, rest) => (.object members, rest)
    | 'n' :: 'u' :: 'l' :: 'l' :: rest => some (.null, rest)
    | 't' :: 'r' :: 'u' :: 'e' :: rest => some (.bool true, rest)
    | 'f' :: 'a' :: 'l' :: 's' :: 'e' :: rest => some (.bool false, rest)
    | text => readNumber text

def itemsWithin : Nat → List Char → Option (List Json × List Char)
  | 0, _ => none
  | bound + 1, text =>
    match valueWithin bound text with
    | none => none
    | some (first, rest) =>
      match skipBlanks rest with
      | ',' :: rest =>
        (itemsWithin bound rest).map fun (items, rest) => (first :: items, rest)
      | ']' :: rest => some ([first], rest)
      | _ => none

def membersWithin : Nat → List Char → Option (List (Option String × Json) × List Char)
  | 0, _ => none
  | bound + 1, text =>
    match memberWithin bound text with
    | none => none
    | some (first, rest) =>
      match skipBlanks rest with
      | ',' :: rest =>
        (membersWithin bound rest).map fun (members, rest) => (first :: members, rest)
      | '\x7d' :: rest => some ([first], rest)
      | _ => none

def memberWithin : Nat → List Char → Option ((Option String × Json) × List Char)
  | 0, _ => none
  | bound + 1, text =>
    match skipBlanks text with
    | '"' :: rest =>
      match readString rest with
      | none => none
      | some (name, rest) =>
        match skipBlanks rest with
        | ':' :: rest =>
          (valueWithin bound rest).map fun (value, rest) => ((name, value), rest)
        | _ => none
    | _ => none

end

/-- Read a text that holds exactly one value. -/
def read? (text : String) : Option Json :=
  match valueWithin (3 * text.length + 3) text.toList with
  | some (value, rest) => if (skipBlanks rest).isEmpty then some value else none
  | none => none

end Covenant.Json
