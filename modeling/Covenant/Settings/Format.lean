import Covenant.Text.Blank
import Covenant.Text.Hex
import Covenant.Text.Numeral

/-!
# The format of settings

Settings are written as lines of the form `key = value`, in a small part of
the TOML language.  Values are strings, truth values, whole numbers and lists,
which are not nested too deeply, and a number sign starts a comment.  Of every
step the result is what it took and the text behind it.
-/

namespace Covenant.Settings

inductive Value where
  | text (content : String)
  | flag (isSet : Bool)
  | number
  | list (items : List Value)

/-! ## Blanks and comments -/

def isGap (character : Char) : Bool :=
  character == ' ' || character == '\t'

def skipGap (text : List Char) : List Char :=
  text.dropWhile isGap

/-- Characters that can stand in a comment or a string. -/
def isPlain (character : Char) : Bool :=
  character == '\t' || (32 ≤ character.toNat && character.toNat ≠ 127)

def skipComment : List Char → List Char
  | '#' :: rest => rest.dropWhile isPlain
  | text => text

def endOfLine? : List Char → Option (List Char)
  | '\n' :: rest => some rest
  | '\r' :: '\n' :: rest => some rest
  | _ => none

/-- Drop blanks, comments and line ends, in at most `bound` rounds. -/
def skipLinesWithin : Nat → List Char → List Char
  | 0, text => text
  | bound + 1, text =>
    let behind := skipComment (skipGap text)
    match endOfLine? behind with
    | some rest => skipLinesWithin bound rest
    | none => behind

def skipLines (text : List Char) : List Char :=
  skipLinesWithin (text.length + 1) text

/-! ## Strings -/

def scalar? (code : Nat) : Option Char :=
  if code < 0xD800 || (0xE000 ≤ code && code < 0x110000) then some (Char.ofNat code) else none

def spelledChar? (digits : List Char) : Option Char :=
  if digits.all Text.isHexDigit then scalar? (Text.hexNumber digits) else none

def simpleEscape? : Char → Option Char
  | 'b' => some '\x08'
  | 't' => some '\t'
  | 'n' => some '\n'
  | 'f' => some '\x0c'
  | 'r' => some '\r'
  | '"' => some '"'
  | '\\' => some '\\'
  | _ => none

def prepend? (character? : Option Char) (taken? : Option (List Char × List Char)) :
    Option (List Char × List Char) := do
  let character ← character?
  let (content, rest) ← taken?
  return (character :: content, rest)

/-- Take the content of a string up to its closing quote. -/
def stringContent : List Char → Option (List Char × List Char)
  | '"' :: rest => some ([], rest)
  | '\\' :: 'u' :: a :: b :: c :: d :: rest =>
    prepend? (spelledChar? [a, b, c, d]) (stringContent rest)
  | '\\' :: 'U' :: a :: b :: c :: d :: e :: f :: g :: h :: rest =>
    prepend? (spelledChar? [a, b, c, d, e, f, g, h]) (stringContent rest)
  | '\\' :: letter :: rest => prepend? (simpleEscape? letter) (stringContent rest)
  | character :: rest =>
    if isPlain character && character ≠ '\\' then
      prepend? (some character) (stringContent rest)
    else
      none
  | [] => none

/-! ## Words -/

/-- Drop the underscores, each of which must stand between two digits. -/
def joinDigits? (isDigit : Char → Bool) (text : List Char) : Option (List Char) :=
  let groups := Text.split (· == '_') text
  if groups.all fun group => !group.isEmpty && group.all isDigit then
    some groups.flatten
  else
    none

def valueIn (base : Nat) (digits : List Char) : Nat :=
  digits.foldl (fun value digit => value * base + Text.hexValue digit) 0

def isDigitBelow (base : Nat) (character : Char) : Bool :=
  Text.isDigit character && Text.hexValue character < base

/-- The first natural number that sixty-four bits with a sign do not hold. -/
def numberLimit : Nat :=
  0x8000000000000000

/-- Digits in a base, for a number of sixty-four bits with a sign. -/
def isNumberIn (base : Nat) (isDigit : Char → Bool) (text : List Char) : Bool :=
  match joinDigits? isDigit text with
  | some digits => valueIn base digits < numberLimit
  | none => false

/-- A decimal number below a limit, without needless zeros. -/
def isDecimal (limit : Nat) (text : List Char) : Bool :=
  match joinDigits? Text.isDigit text with
  | some digits =>
    (digits.head? ≠ some '0' || digits.length == 1) && valueIn 10 digits < limit
  | none => false

def isNumber : List Char → Bool
  | '0' :: 'x' :: digits => isNumberIn 16 Text.isHexDigit digits
  | '0' :: 'o' :: digits => isNumberIn 8 (isDigitBelow 8) digits
  | '0' :: 'b' :: digits => isNumberIn 2 (isDigitBelow 2) digits
  | '+' :: digits => isDecimal numberLimit digits
  | '-' :: digits => isDecimal (numberLimit + 1) digits
  | digits => isDecimal numberLimit digits

def wordValue? (word : List Char) : Option Value :=
  if word = "true".toList then
    some (.flag true)
  else if word = "false".toList then
    some (.flag false)
  else if isNumber word then
    some .number
  else
    none

def isWordChar (character : Char) : Bool :=
  !(isGap character || character == '\n' || character == '\r' || character == ',' ||
    character == ']' || character == '#')

/-! ## Values -/

/-- The number of lists that may lie in one another. -/
def deepest : Nat := 79

mutual

/-- Take a value; `bound` exceeds the number of steps, and at most `depth` lists
may lie in one another. -/
def valueWithin : Nat → Nat → List Char → Option (Value × List Char)
  | 0, _, _ => none
  | bound + 1, depth, text =>
    match text with
    | '"' :: rest =>
      (stringContent rest).map fun (content, rest) => (.text (String.ofList content), rest)
    | '[' :: rest =>
      if depth = 0 then
        none
      else
        (itemsWithin bound (depth - 1) rest).map fun (items, rest) => (.list items, rest)
    | _ =>
      (wordValue? (text.takeWhile isWordChar)).map fun value =>
        (value, text.dropWhile isWordChar)

/-- Take items and the closing bracket; a comma may stand behind the last item. -/
def itemsWithin : Nat → Nat → List Char → Option (List Value × List Char)
  | 0, _, _ => none
  | bound + 1, depth, text =>
    match skipLines text with
    | ']' :: rest => some ([], rest)
    | text =>
      match valueWithin bound depth text with
      | none => none
      | some (first, rest) =>
        match skipLines rest with
        | ',' :: rest =>
          (itemsWithin bound depth rest).map fun (items, rest) => (first :: items, rest)
        | ']' :: rest => some ([first], rest)
        | _ => none

end

/-! ## Lines -/

def isKeyChar (character : Char) : Bool :=
  Text.isDigit character || ('a' ≤ character && character ≤ 'z') ||
    ('A' ≤ character && character ≤ 'Z') || character == '_' || character == '-'

def entry? (text : List Char) : Option ((String × Value) × List Char) :=
  match text.takeWhile isKeyChar with
  | [] => none
  | key =>
    match skipGap (text.dropWhile isKeyChar) with
    | '=' :: rest =>
      (valueWithin (2 * rest.length + 2) deepest (skipGap rest)).map fun (value, rest) =>
        ((String.ofList key, value), rest)
    | _ => none

/-- Take entries, less than `bound`, up to the end. -/
def entriesWithin : Nat → List Char → Option (List (String × Value))
  | 0, _ => none
  | bound + 1, text =>
    match skipLines text with
    | [] => some []
    | text =>
      match entry? text with
      | none => none
      | some (first, rest) =>
        match skipComment (skipGap rest) with
        | [] => some [first]
        | behind =>
          match endOfLine? behind with
          | some following => (entriesWithin bound following).map (first :: ·)
          | none => none

/-- Drop the byte order mark that a text may start with. -/
def skipOrderMark : List Char → List Char
  | '\ufeff' :: rest => rest
  | text => text

/-- The entries of a text; no key is repeated. -/
def entries? (text : String) : Option (List (String × Value)) := do
  let found ← entriesWithin (text.length + 1) (skipOrderMark text.toList)
  let keys := found.map (·.1)
  if keys.eraseDups.length = keys.length then some found else none

end Covenant.Settings
