import Covenant.Json.Basic
import Covenant.Text.Hex

/-!
# Writing JSON

A value is written either without any blanks or with every item on a line of
its own.  Quotes, backslashes and control characters in strings are escaped;
all other characters stand for themselves.
-/

namespace Covenant.Json

def escaped (character : Char) : List Char :=
  if character = '"' then
    ['\\', '"']
  else if character = '\\' then
    ['\\', '\\']
  else if character = '\x08' then
    ['\\', 'b']
  else if character = '\x0c' then
    ['\\', 'f']
  else if character = '\n' then
    ['\\', 'n']
  else if character = '\r' then
    ['\\', 'r']
  else if character = '\t' then
    ['\\', 't']
  else if character.toNat < 32 then
    ['\\', 'u', '0', '0', Text.hexDigit (character.toNat / 16),
      Text.hexDigit (character.toNat % 16)]
  else
    [character]

/-- A string between quotes; one without a content is written as an empty one. -/
def writeString (content : Option String) : List Char :=
  '"' :: (content.getD "").toList.flatMap escaped ++ ['"']

/-- What stands before an item of a given depth, and between a name and its value. -/
structure Layout where
  before : Nat → List Char
  colon : List Char

namespace Layout

def compact : Layout :=
  { before := fun _ => [], colon := [':'] }

/-- A new line before each item, two blanks for each level, and one behind a colon. -/
def indented : Layout :=
  { before := fun depth => '\n' :: List.replicate (2 * depth) ' ', colon := [':', ' '] }

end Layout

mutual

/-- Write a value whose items have a given depth. -/
def write (layout : Layout) (depth : Nat) : Json → List Char
  | .null => "null".toList
  | .bool true => "true".toList
  | .bool false => "false".toList
  | .number text => text.toList
  | .string content => writeString content
  | .array [] => ['[', ']']
  | .array (first :: rest) =>
    '[' :: layout.before depth ++ write layout (depth + 1) first ++
      writeItems layout depth rest ++ layout.before (depth - 1) ++ [']']
  | .object [] => ['\x7b', '\x7d']
  | .object ((name, value) :: rest) =>
    '\x7b' :: layout.before depth ++ writeString name ++ layout.colon ++
      write layout (depth + 1) value ++ writeMembers layout depth rest ++
      layout.before (depth - 1) ++ ['\x7d']

def writeItems (layout : Layout) (depth : Nat) : List Json → List Char
  | [] => []
  | first :: rest =>
    ',' :: layout.before depth ++ write layout (depth + 1) first ++
      writeItems layout depth rest

def writeMembers (layout : Layout) (depth : Nat) : List (Option String × Json) → List Char
  | [] => []
  | (name, value) :: rest =>
    ',' :: layout.before depth ++ writeString name ++ layout.colon ++
      write layout (depth + 1) value ++ writeMembers layout depth rest

end

def compact (value : Json) : String :=
  String.ofList (write .compact 1 value)

/-- Write a value with every item on a line of its own. -/
def pretty (value : Json) : String :=
  String.ofList (write .indented 1 value)

end Covenant.Json
