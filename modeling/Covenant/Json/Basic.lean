import Covenant.Text.Numeral

/-!
# JSON values

A value as it is written: numbers keep their text, and objects keep their
members in order, repeated names included.  A string may be written with
escapes that spell no text; such a string has no content.
-/

namespace Covenant

inductive Json where
  | null
  | bool (value : Bool)
  | number (text : String)
  | string (content : Option String)
  | array (items : List Json)
  | object (members : List (Option String × Json))
deriving Inhabited

namespace Json

def text (content : String) : Json :=
  .string (some content)

def natural (value : Nat) : Json :=
  .number (toString value)

def record (members : List (String × Json)) : Json :=
  .object (members.map fun (name, value) => (some name, value))

def texts (contents : List String) : Json :=
  .array (contents.map text)

def naturals (values : List Nat) : Json :=
  .array (values.map natural)

def optional {Value : Type} (encode : Value → Json) : Option Value → Json
  | some value => encode value
  | none => .null

def text? : Json → Option String
  | .string content => content
  | _ => none

def natural? (limit : Nat) : Json → Option Nat
  | .number text => Text.readDigits? limit text.toList
  | _ => none

def bool? : Json → Option Bool
  | .bool value => some value
  | _ => none

def items? : Json → Option (List Json)
  | .array items => some items
  | _ => none

def member? (name : String) : Json → Option Json
  | .object members => members.lookup (some name)
  | _ => none

end Json

end Covenant
