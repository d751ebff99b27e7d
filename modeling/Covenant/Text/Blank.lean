/-!
# Blank characters and trimming

A blank is a character with the Unicode `White_Space` property.  Trimming and
splitting into words work on character lists, so that every function here is
a plain recursion over its input.
-/

namespace Covenant.Text

/-- The characters with the Unicode `White_Space` property. -/
def isBlank (character : Char) : Bool :=
  let code := character.toNat
  (9 ≤ code && code ≤ 13) || code == 0x20 || code == 0x85 || code == 0xA0 ||
    code == 0x1680 || (0x2000 ≤ code && code ≤ 0x200A) || code == 0x2028 ||
    code == 0x2029 || code == 0x202F || code == 0x205F || code == 0x3000

def trimStart (text : List Char) : List Char :=
  text.dropWhile isBlank

def trimEnd (text : List Char) : List Char :=
  (text.reverse.dropWhile isBlank).reverse

def trim (text : List Char) : List Char :=
  trimEnd (trimStart text)

def trimmed (text : String) : String :=
  String.ofList (trim text.toList)

/-- Cut a text at every character that `cuts`; there is one piece more than
there are cuts. -/
def split (cuts : Char → Bool) : List Char → List (List Char)
  | [] => [[]]
  | character :: rest =>
    if cuts character then
      [] :: split cuts rest
    else
      match split cuts rest with
      | [] => [[character]]
      | piece :: pieces => (character :: piece) :: pieces

/-- The nonempty pieces between blanks. -/
def words (text : List Char) : List (List Char) :=
  (split isBlank text).filter fun piece => !piece.isEmpty

/-- The text before and after the first occurrence of `mark`. -/
def cutAt (mark : Char) : List Char → Option (List Char × List Char)
  | [] => none
  | character :: rest =>
    if character = mark then
      some ([], rest)
    else
      (cutAt mark rest).map fun (before, after) => (character :: before, after)

end Covenant.Text
