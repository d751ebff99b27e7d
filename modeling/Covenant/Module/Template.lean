import Covenant.Machine.Line

/-!
# Description templates

A wallet shows an event by running a short program, which takes the address
and the data of the event from the stack and leaves a text.  A template is
such a text with the placeholders `address` and `data` between braces.  Any
other text between braces stands for itself.
-/

namespace Covenant.Template

inductive Part where
  | text (content : List Char)
  | address
  | data
deriving DecidableEq

def Part.ofPlaceholder? (inside : List Char) : Option Part :=
  if inside = "address".toList then
    some .address
  else if inside = "data".toList then
    some .data
  else
    none

def textPart (content : List Char) : List Part :=
  if content.isEmpty then [] else [.text content]

/--
Split a template.  `before` is the text since the last piece, and `inside` is
the text since an opening brace that has not been closed.
-/
def partsFrom (before : List Char) (inside : Option (List Char)) : List Char → List Part
  | [] =>
    match inside with
    | none => textPart before
    | some opened => textPart (before ++ '\x7b' :: opened)
  | character :: rest =>
    match inside with
    | none =>
      if character = '\x7b' then
        partsFrom before (some []) rest
      else
        partsFrom (before ++ [character]) none rest
    | some opened =>
      if character = '\x7d' then
        match Part.ofPlaceholder? opened with
        | some part => textPart before ++ part :: partsFrom [] none rest
        | none =>
          .text (before ++ '\x7b' :: opened ++ ['\x7d']) :: partsFrom [] none rest
      else
        partsFrom before (some (opened ++ [character])) rest

def parts (template : String) : List Part :=
  partsFrom [] none template.toList

def result : Operand :=
  .register { index := 1 }

def address : Operand :=
  .register { index := 2 }

def data : Operand :=
  .register { index := 3 }

def Part.code : Part → List Line
  | .text content =>
    [.instruction .load [.scratch, .quoted (String.ofList content)],
      .instruction .cat [result, .scratch, result]]
  | .address => [.instruction .cat [result, Template.address, result]]
  | .data => [.instruction .cat [result, Template.data, result]]

def code (template : String) : List Line :=
  [.instruction .pop [address],
    .instruction .cast [address, address, .machineType .string],
    .instruction .pop [data],
    .instruction .cast [data, data, .machineType .string],
    .instruction .load [result, .quoted ""]] ++
  (parts template).flatMap Part.code ++
  [.instruction .push [result], .instruction .ret []]

end Covenant.Template
