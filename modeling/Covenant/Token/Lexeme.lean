import Covenant.Text.Blank
import Covenant.Text.Hex
import Covenant.Text.Numeral
import Covenant.Token.Basic

/-!
# Lexemes

A lexeme is the spelling of one token at the front of a text.  `Lexeme.read`
recognises the longest one and never fails: a character that starts no
lexeme is an invalid token of its own.  Between lexemes there is trivia:
spaces, tabs, line endings and comments.
-/

namespace Covenant

/-! ## Trivia -/

inductive Trivia where
  | between
  | lineComment
  | blockComment
deriving DecidableEq

namespace Trivia

def isSpace (character : Char) : Bool :=
  character == ' ' || character == '\t' || character == '\r' || character == '\n'

/--
The number of characters of trivia at the front of a text.  A comment that is
not closed runs to the end.
-/
def width : Trivia → List Char → Nat
  | _, [] => 0
  | between, '/' :: '/' :: rest => width lineComment rest + 2
  | between, '/' :: '*' :: rest => width blockComment rest + 2
  | between, character :: rest =>
    if isSpace character then width between rest + 1 else 0
  | lineComment, character :: rest =>
    if character = '\n' then width between rest + 1 else width lineComment rest + 1
  | blockComment, '*' :: '/' :: rest => width between rest + 2
  | blockComment, _ :: rest => width blockComment rest + 1

end Trivia

/-! ## Recognising one lexeme -/

/--
What stands at the front of a text: the category, the number of characters
after the first one, and the value of the token.
-/
structure Lexeme where
  kind : Token.Kind
  more : Nat
  value : List Char

namespace Lexeme

def whole (kind : Token.Kind) (first : Char) (rest : List Char) : Lexeme :=
  { kind, more := rest.length, value := first :: rest }

def wordKind (word : String) : Token.Kind :=
  if word = "true" || word = "false" then
    .bool
  else if Word.isKeyword word then
    .keyword
  else if Word.isTypeName word then
    .type
  else
    .identifier

/-- A word: the longest run of name characters. -/
def word (first : Char) (rest : List Char) : Lexeme :=
  let tail := rest.takeWhile Word.continuesName
  whole (wordKind (String.ofList (first :: tail))) first tail

/-- A number, a decimal with digits on both sides of its point, or bytes. -/
def numeral (first : Char) (rest : List Char) : Lexeme :=
  match first, rest with
  | '0', 'x' :: digits => whole .bytes '0' ('x' :: digits.takeWhile Text.isHexDigit)
  | _, _ =>
    let digits := rest.takeWhile Text.isDigit
    match rest.dropWhile Text.isDigit with
    | '.' :: places =>
      let fraction := places.takeWhile Text.isDigit
      if fraction.isEmpty then
        whole .number first digits
      else
        whole .decimal first (digits ++ '.' :: fraction)
    | _ => whole .number first digits

/-- A string runs to the next quote, or to the end when there is none. -/
def quotation (rest : List Char) : Lexeme :=
  let body := rest.takeWhile (· != '"')
  match rest.dropWhile (· != '"') with
  | [] => whole .string '"' body
  | quote :: _ => whole .string '"' (body ++ [quote])

/-- A sign followed by a body; the value leaves the sign out. -/
def signed (kind : Token.Kind) (sign : Char) (body : List Char) : Lexeme :=
  if body.isEmpty then
    { kind := .invalid, more := 0, value := [sign] }
  else
    { kind, more := body.length, value := body }

def nameBody : List Char → List Char
  | [] => []
  | first :: rest =>
    if Word.startsName first then first :: rest.takeWhile Word.continuesName else []

/-- All operators, the longer ones first. -/
def operators : List String :=
  ["<<=", ">>=", "==", "!=", "<=", ">=", "&&", "||", "<<", ">>", "+=", "-=", "*=", "/=", "%=",
    "|=", "&=", "^=", "<", ">", "+", "-", "*", "/", "%", "!", "&", "|", "^", "="]

/-- An operator, a separator or the selector; anything else is invalid. -/
def symbol (first : Char) (rest : List Char) : Lexeme :=
  match operators.find? fun operator => operator.toList.isPrefixOf (first :: rest) with
  | some operator =>
    { kind := .operator, more := operator.length - 1, value := operator.toList }
  | none =>
    if "()\x7b\x7d[],;:".toList.contains first then
      whole .separator first []
    else if first = '.' then
      whole .selector first []
    else
      whole .invalid first []

/--
The part of a text before the brace that closes the current block; `depth`
counts the blocks open inside it.
-/
def blockBody (depth : Nat) : List Char → List Char
  | [] => []
  | character :: rest =>
    if character = '\x7b' then
      character :: blockBody (depth + 1) rest
    else if character = '\x7d' then
      match depth with
      | 0 => []
      | outer + 1 => character :: blockBody outer rest
    else
      character :: blockBody depth rest

/--
An assembly block: the word `asm`, blanks, and a block in braces whose body is
the value.  A block that is not closed runs to the end.
-/
def assemblyBlock? (text : List Char) : Option Lexeme :=
  match text with
  | 'a' :: 's' :: 'm' :: after =>
    if (after.head?.map Word.continuesName).getD false then
      none
    else
      let blanks := after.takeWhile Text.isBlank
      match after.dropWhile Text.isBlank with
      | '\x7b' :: inside =>
        let body := blockBody 0 inside
        let closing := if body.length < inside.length then 1 else 0
        some { kind := .assembly
               more := 3 + blanks.length + body.length + closing
               value := body }
      | _ => none
  | _ => none

/-- The longest lexeme at the front of a nonempty text. -/
def read (first : Char) (rest : List Char) : Lexeme :=
  match assemblyBlock? (first :: rest) with
  | some block => block
  | none =>
    if Word.startsName first then
      word first rest
    else if Text.isDigit first then
      numeral first rest
    else if first = '"' then
      quotation rest
    else if first = '@' then
      signed .address first (rest.takeWhile Word.isLetterOrDigit)
    else if first = '#' then
      signed .hash first (rest.takeWhile Text.isHexDigit)
    else if first = '$' then
      signed .macroName first (nameBody rest)
    else
      symbol first rest

end Lexeme

end Covenant
