/-!
# Words of the language

The reserved words, the type names, the operators, and the rules that a name
has to meet to be declared.  Only ASCII letters and digits can occur in a
name.
-/

namespace Covenant.Word

/-- Words that never name a declaration. -/
def keywords : List String :=
  ["contract", "token", "script", "description", "organization", "struct", "enum", "const",
    "global", "local", "import", "event", "constructor", "property", "public", "private",
    "task", "trigger", "code", "nft", "if", "else", "while", "do", "for", "switch", "case",
    "default", "break", "continue", "return", "throw", "emit", "asm", "this"]

/-- Names of the types the language itself provides. -/
def typeNames : List String :=
  ["none", "number", "bool", "string", "timestamp", "address", "hash", "bytes", "any", "task",
    "method", "module", "decimal", "storage_map", "storage_list", "storage_set"]

def binaryOperators : List String :=
  ["==", "!=", "<=", ">=", "<", ">", "+", "-", "*", "/", "%", "&&", "||", "&", "|", "^", "<<",
    ">>"]

def assignmentOperators : List String :=
  ["=", "+=", "-=", "*=", "/=", "%=", "<<=", ">>=", "|=", "&=", "^="]

def isKeyword (word : String) : Bool :=
  keywords.contains word

def isTypeName (word : String) : Bool :=
  typeNames.contains word

def isBinaryOperator (word : String) : Bool :=
  binaryOperators.contains word

def isAssignmentOperator (word : String) : Bool :=
  assignmentOperators.contains word

def isLower (character : Char) : Bool :=
  'a' ≤ character && character ≤ 'z'

def isUpper (character : Char) : Bool :=
  'A' ≤ character && character ≤ 'Z'

def isLetter (character : Char) : Bool :=
  isLower character || isUpper character

def isLetterOrDigit (character : Char) : Bool :=
  isLetter character || ('0' ≤ character && character ≤ '9')

def startsName (character : Char) : Bool :=
  isLetter character || character == '_'

def continuesName (character : Char) : Bool :=
  isLetterOrDigit character || character == '_'

def isAllUppercase (name : String) : Bool :=
  name.toList.any isLetter && !name.toList.any isLower

def isIdentifier (name : String) : Bool :=
  match name.toList with
  | [] => false
  | first :: rest => startsName first && rest.all continuesName

def isVariableName (name : String) : Bool :=
  isIdentifier name && !isKeyword name && !isTypeName name && !isAllUppercase name

def isConstantName (name : String) : Bool :=
  isIdentifier name && isAllUppercase name

/-- The uppercase form of an ASCII letter; other characters stay. -/
def raise (character : Char) : Char :=
  if isLower character then Char.ofNat (character.toNat - 32) else character

def capitalize (name : String) : String :=
  match name.toList with
  | [] => ""
  | first :: rest => String.ofList (raise first :: rest)

/-- Does the name consist of `start` followed by an uppercase letter and more? -/
def startsCamel (start name : String) : Bool :=
  start.toList.isPrefixOf name.toList &&
    (match name.toList.drop start.length with
      | [] => false
      | next :: _ => isUpper next)

end Covenant.Word
