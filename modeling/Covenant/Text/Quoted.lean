import Covenant.Text.Hex
import Covenant.Text.Mark
import Covenant.Text.Unprintable

/-!
# Quoted text

A text between double quotes, as it is shown in messages about names.  Quotes
and backslashes are escaped, and so are marks and all that cannot be printed:
a reader sees every character of the text, and where each one ends.
-/

namespace Covenant.Text

def isCoded (character : Char) : Bool :=
  marks.contains character || laterMarks.contains character || unprintable.contains character

def quotedChar (character : Char) : List Char :=
  if character = '"' || character = '\\' then
    ['\\', character]
  else if character = '\n' then
    ['\\', 'n']
  else if character = '\r' then
    ['\\', 'r']
  else if character = '\t' then
    ['\\', 't']
  else if character.toNat = 0 then
    ['\\', '0']
  else if isCoded character then
    "\\u\x7b".toList ++ (hexNat character.toNat).toList ++ ['\x7d']
  else
    [character]

def quoted (text : String) : String :=
  String.ofList ('"' :: text.toList.flatMap quotedChar ++ ['"'])

end Covenant.Text
