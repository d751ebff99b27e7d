import Covenant.Token.Basic
import Covenant.Tree.Basic

/-!
# Reading tokens

Reading turns a list of tokens into trees.  It stops at the first error and
keeps what it has built so far: the scopes, and a counter for the nodes.

Every repetition and every nesting of the grammar uses up tokens.  The one
exception is a double angle bracket that closes two type arguments: its first
half is used up without a move to the next token.  The weight of the remaining
tokens counts such a bracket twice, so that it shrinks in every round, and
bounds the recursion.  A round that does not make it shrink stalls, and so does
what is nested in something of the same weight.
-/

namespace Covenant

structure Reading.State where
  rest : List Token
  lastLine : Nat
  nodes : Nat := 0
  scopes : ScopeTree := {}

/-- A step of reading, which may fail and changes the state. -/
abbrev Reading (Outcome : Type) : Type :=
  StateT Reading.State (Except Failure) Outcome

namespace Reading

def State.start (tokens : List Token) : State :=
  { rest := tokens, lastLine := (tokens.getLast?.map Token.line).getD 1 }

/-- The line of the next token, or of the last one at the end. -/
def State.line (state : State) : Nat :=
  (state.rest.head?.map Token.line).getD state.lastLine

/-! ## Failing -/

def fail {Outcome : Type} (error : Error) : Reading Outcome :=
  throw (.error error)

def refuse {Outcome : Type} (line : Nat) (complaint : Complaint) : Reading Outcome :=
  fail (.semantic line complaint)

/-- Stop because a bound is spent, or because there is no token to pass over. -/
def stall {Outcome : Type} : Reading Outcome :=
  throw .stalled

def result {Outcome : Type} : Except Error Outcome → Reading Outcome
  | .ok outcome => pure outcome
  | .error error => fail error

def require {Outcome : Type} (value : Option Outcome) (error : Error) : Reading Outcome :=
  match value with
  | some outcome => pure outcome
  | none => fail error

/-! ## Single tokens -/

def peek (distance : Nat) : Reading (Option Token) := do
  return (← get).rest[distance]?

def line : Reading Nat := do
  return (← get).line

def current : Reading Token := do
  let state ← get
  match state.rest with
  | token :: _ => return token
  | [] => fail (.unexpectedEnd state.line)

/-- Pass over the next token; the end is never passed. -/
def skip : Reading Unit := do
  let state ← get
  match state.rest with
  | _ :: rest => set { state with rest }
  | [] => stall

def fetch : Reading Token := do
  let token ← current
  skip
  return token

def check (kind : Token.Kind) (value : String) : Reading Bool := do
  return ((← peek 0).map fun token => token.is kind value).getD false

def eat (kind : Token.Kind) (value : String) : Reading Bool := do
  let found ← check kind value
  if found then
    skip
  return found

def expect (kind : Token.Kind) (value : String) : Reading Token := do
  let token ← fetch
  if token.is kind value then
    return token
  else
    fail (.expected token.line ("`" ++ value ++ "`") token.value)

def separator (value : String) : Reading Unit := do
  discard (expect .separator value)

def operator (value : String) : Reading Unit := do
  discard (expect .operator value)

def identifier : Reading Token := do
  let token ← fetch
  if token.kind = .identifier then
    return token
  else
    fail (.expected token.line "identifier" token.value)

/-- Take the name behind a dot, which may be a keyword or the name of a type. -/
def member : Reading Token := do
  let token ← fetch
  match token.kind with
  | .identifier | .keyword | .type => return token
  | _ => fail (.expected token.line "member name" token.value)

/--
Take a closing angle bracket.  Of a double bracket only one half is taken; the
other half stays as a single bracket.
-/
def closeAngle : Reading Unit := do
  let state ← get
  match state.rest with
  | token :: rest =>
    if token.is .operator ">>" then
      set { state with rest := { token with value := ">" } :: rest }
    else
      operator ">"
  | [] => operator ">"

/-! ## Nodes and scopes -/

def mark (line : Nat) : Reading Mark := do
  modify fun state => { state with nodes := state.nodes + 1 }
  return { id := (← get).nodes, line }

def node {Outcome : Type} (line : Nat) (build : Mark → Outcome) : Reading Outcome := do
  return build (← mark line)

def scopes : Reading ScopeTree := do
  return (← get).scopes

def setScopes (scopes : ScopeTree) : Reading Unit :=
  modify fun state => { state with scopes }

/-- Change the scopes; an error of the change is one of the reading. -/
def alter {Outcome : Type} (change : Change ScopeTree Outcome) : Reading Outcome := do
  let (outcome, scopes) ← result (change.outcome (← scopes))
  setScopes scopes
  return outcome

def rootScope (moduleName : String) : Reading ScopeId := do
  let (id, scopes) := (← scopes).root moduleName
  setScopes scopes
  return id

def childScope (parent : ScopeId) : Reading ScopeId := do
  let (id, scopes) := (← scopes).child parent
  setScopes scopes
  return id

def declare (scope : ScopeId) (name : String) (ty : Ty) (storage : Storage)
    (collection : Option CollectionTypes) (line : Nat) : Reading VarId :=
  alter (ScopeTree.declareVariable scope name ty storage collection line)

/-! ## Repetition -/

/-- How many rounds a token can pay for. -/
def tokenWeight (token : Token) : Nat :=
  if token.is .operator ">>" then 2 else 1

def tokensWeight : List Token → Nat
  | [] => 0
  | token :: rest => tokenWeight token + tokensWeight rest

/-- How many rounds the remaining tokens can pay for. -/
def State.weight (state : State) : Nat :=
  tokensWeight state.rest

/-- Run with a bound that exceeds the weight of the remaining tokens. -/
def bounded {Outcome : Type} (run : Nat → Reading Outcome) : Reading Outcome := do
  run ((← get).weight + 1)

/-- A step of a repetition, which must use up some of the remaining tokens. -/
def advancing {Outcome : Type} (step : Reading Outcome) : Reading Outcome := do
  let before ← get
  let outcome ← step
  if (← get).weight < before.weight then
    return outcome
  else
    stall

/-- Read something nested in what began with some weight, of which less must be left. -/
def below {Outcome : Type} (weight : Nat) (nested : Reading Outcome) : Reading Outcome := do
  if (← get).weight < weight then
    nested
  else
    stall

/-- Change a value round by round until `done`, in less than `bound` rounds. -/
def iterateWithin {Value : Type} (done : Reading Bool) (round : Value → Reading Value) :
    Nat → Value → Reading Value
  | 0, _ => stall
  | bound + 1, value => do
      if ← done then
        return value
      else
        iterateWithin done round bound (← advancing (round value))

def iterate {Value : Type} (done : Reading Bool) (round : Value → Reading Value)
    (value : Value) : Reading Value :=
  bounded fun bound => iterateWithin done round bound value

def collect {Item : Type} (done : Reading Bool) (item : Reading Item) :
    Reading (List Item) :=
  iterate done (fun items => do return items ++ [← item]) []

/-- Read items with commas between them, less than `bound`, up to a closing parenthesis. -/
def commaSeparatedWithin {Item : Type} (item : Reading Item) : Nat → Reading (List Item)
  | 0 => stall
  | bound + 1 => do
      let first ← advancing item
      if ← eat .separator ")" then
        return [first]
      else
        separator ","
        return first :: (← commaSeparatedWithin item bound)

/-- Read items with commas between them, and the closing parenthesis. -/
def commaSeparated {Item : Type} (item : Reading Item) : Reading (List Item) := do
  if ← eat .separator ")" then
    return []
  else
    bounded (commaSeparatedWithin item)

end Reading

end Covenant
