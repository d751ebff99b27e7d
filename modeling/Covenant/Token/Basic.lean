import Covenant.Token.Word

/-!
# Tokens

A token is a piece of the source with its category, its value and the place
where it starts.  Lines and columns count from one and columns count
characters; offsets count the bytes of the UTF-8 encoding.
-/

namespace Covenant

inductive Token.Kind where
  | separator
  | operator
  | selector
  | keyword
  | identifier
  | type
  | string
  | number
  | decimal
  | bool
  | address
  | hash
  | bytes
  | assembly
  | macroName
  | invalid
deriving DecidableEq

namespace Token.Kind

def name : Token.Kind → String
  | separator => "separator"
  | operator => "operator"
  | selector => "selector"
  | keyword => "keyword"
  | identifier => "identifier"
  | type => "type"
  | string => "string"
  | number => "number"
  | decimal => "decimal"
  | bool => "bool"
  | address => "address"
  | hash => "hash"
  | bytes => "bytes"
  | assembly => "asm block"
  | macroName => "macro"
  | invalid => "invalid token"

/-- Categories that stand for a value on their own. -/
def isLiteral : Token.Kind → Bool
  | string | number | decimal | bool | address | hash | bytes => true
  | _ => false

end Token.Kind

/-- A place in the source, between two characters. -/
structure Position where
  offset : Nat
  line : Nat
  column : Nat
deriving DecidableEq

namespace Position

def start : Position :=
  { offset := 0, line := 1, column := 1 }

def after (position : Position) (character : Char) : Position :=
  if character = '\n' then
    { offset := position.offset + character.utf8Size
      line := position.line + 1
      column := 1 }
  else
    { offset := position.offset + character.utf8Size
      line := position.line
      column := position.column + 1 }

def past (position : Position) (text : List Char) : Position :=
  text.foldl after position

end Position

/-- A token; `stop` is the offset of the byte after its last one. -/
structure Token where
  kind : Token.Kind
  value : String
  start : Position
  stop : Nat
deriving DecidableEq

namespace Token

def line (token : Token) : Nat :=
  token.start.line

def is (token : Token) (kind : Token.Kind) (value : String) : Bool :=
  token.kind == kind && token.value == value

def length (token : Token) : Nat :=
  token.stop - token.start.offset

end Token

end Covenant
