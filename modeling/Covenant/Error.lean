/-!
# Errors

Compilation stops at its first error.  An error names its cause; the wording
of every cause is in `Complaint.message`, `Defect.message` and
`Error.message`, and nowhere else.

A `Complaint` is a rule of the language that the source breaks.  A `Defect`
is a state that no source should lead to: apart from running out of registers
it would be a mistake of the compiler itself.
-/

namespace Covenant

/-- A rule of the language that a source breaks. -/
inductive Complaint where
  | storageOutsideGlobal (typeName : String)
  | precisionRange (written : String)
  | repeatedEnumValue (value : Nat) (enumName : String)
  | missingCode (moduleName : String)
  | noTriggers (moduleKind : String)
  | foreignTrigger (trigger moduleKind : String)
  | itemNotAllowed (keyword moduleKind : String)
  | constantNotLiteral (name : String)
  | tooManyEvents
  | notDescription (name : String)
  | constructorParameters
  | taskParameters (name : String)
  | triggerParameters (name : String) (types : List String)
  | noReturnValue (name : String)
  | missingReturn (name : String)
  | descriptionParameters
  | notCall
  | untypedLocal (name : String)
  | emptyLocal (name : String)
  | caseNotLiteral
  | returnNeedsValue (typeName : String)
  | returnWithoutType
  | assignedConstant (name : String)
  | assignedCollection (name : String)
  | readOnly (name : String)
  | noField (typeName field : String)
  | invalidDecimal (written : String)
  | symbolOutsideToken
  | collectionAsValue (name : String)
  | noMethods (typeName : String)
  | argumentCount (library method : String) (wanted found : Nat)
  | missingTypeArgument (library method : String)
  | argumentNotLiteral (position : Nat)
  | argumentNotString (position : Nat)
  | noResult (method : String)
  | unusedVariable (name : String)
  | unassignedVariable (name : String)
  | moduleNotCompiled (name : String)
  | globalNotInitialized (name : String)
  | globalInitializedTwice (name : String)
  | other (text : String)
deriving DecidableEq

def Complaint.message : Complaint → String
  | storageOutsideGlobal typeName => s!"{typeName} can only be the type of a global"
  | precisionRange written => s!"decimal precision must be between 1 and 32, got {written}"
  | repeatedEnumValue value enumName => s!"duplicated value {value} in enum {enumName}"
  | missingCode moduleName => s!"{moduleName} has no code block"
  | noTriggers moduleKind => s!"a {moduleKind} cannot declare triggers"
  | foreignTrigger trigger moduleKind =>
    s!"{trigger} is not a valid trigger for a {moduleKind}"
  | itemNotAllowed keyword moduleKind => s!"{keyword} is not allowed in a {moduleKind}"
  | constantNotLiteral name => s!"constant {name} must be a literal"
  | tooManyEvents => "too many events"
  | notDescription name => s!"{name} is not a description"
  | constructorParameters => "constructor must take exactly one address parameter"
  | taskParameters name => s!"task {name} cannot take parameters"
  | triggerParameters name types =>
    let list := ", ".intercalate types
    s!"trigger {name} must take ({list})"
  | noReturnValue name => s!"{name} cannot return a value"
  | missingReturn name => s!"{name} must return a value on every path"
  | descriptionParameters => "description code must take (address, any)"
  | notCall => "only calls can be used as statements"
  | untypedLocal name => s!"local {name} needs a type or a value"
  | emptyLocal name => s!"local {name} cannot hold a value of type none"
  | caseNotLiteral => "case values must be literals"
  | returnNeedsValue typeName => s!"return needs a value of type {typeName}"
  | returnWithoutType => "method does not return a value"
  | assignedConstant name => s!"cannot assign to constant {name}"
  | assignedCollection name => s!"storage collection {name} cannot be assigned"
  | readOnly name => s!"{name} is read-only"
  | noField typeName field => s!"{typeName} has no field {field}"
  | invalidDecimal written => s!"invalid decimal literal {written}"
  | symbolOutsideToken => "$THIS_SYMBOL is only available in tokens"
  | collectionAsValue name =>
    s!"storage collection {name} can only be used through its methods"
  | noMethods typeName => s!"{typeName} has no methods"
  | argumentCount library method wanted found =>
    s!"{library}.{method} expects {wanted} arguments, got {found}"
  | missingTypeArgument library method => s!"{library}.{method} needs a type argument"
  | argumentNotLiteral position => s!"argument {position} must be a literal"
  | argumentNotString position => s!"argument {position} must be a string literal"
  | noResult method => s!"{method} does not return a value"
  | unusedVariable name => s!"unused variable: {name}"
  | unassignedVariable name => s!"variable {name} is used before being assigned"
  | moduleNotCompiled name => s!"module {name} is not compiled yet"
  | globalNotInitialized name => s!"global {name} is not initialized in the constructor"
  | globalInitializedTwice name =>
    s!"global {name} is initialized more than once in the constructor"
  | other text => text

/-- A state of the compiler that no source should lead to. -/
inductive Defect where
  | registersExhausted
  | registerFree (index : Nat)
  | registersHeld (held : List (Nat × Nat))
  | alreadyBound (name : String)
  | stillBound (name : String)
  | missingArgument (index : Nat)
  | seriesWithoutArguments
  | returnOutside
  | lookupEmpty
  | enumWithoutType
  | noModule
  | nftWithoutTypes
  | noTokenIdentifier
  | labelNotAssembled (label : String)
  | precisionOutOfRange (precision : Nat)
  | unbuildableType (kind detail : String)
  | notCollection (name : String)
  | mapWithoutKey (name : String)
  | untypedCollection (name : String)
  | routineHeader
  | routineParameter (text : String)
  | routineType (name : String)
  | routineLabel (library name : String)
  | routineOrphan (line : String)
  | genericArgument
  | descriptionParameter
  | triggerSignature (name : String)
  | other (text : String)
deriving DecidableEq

def Defect.message : Defect → String
  | registersExhausted => "no more available registers"
  | registerFree index => s!"register r{index} is not allocated"
  | registersHeld held =>
    let list := ", ".intercalate (held.map fun (index, node) => s!"r{index} (node {node})")
    s!"register not deallocated: {list}"
  | alreadyBound name => s!"{name} is already bound"
  | stillBound name => s!"{name} is still bound"
  | missingArgument index => s!"missing argument {index}"
  | seriesWithoutArguments => "createSeries without arguments"
  | returnOutside => "return outside of a method"
  | lookupEmpty => "variable lookup returned nothing"
  | enumWithoutType => "enum without a type"
  | noModule => "no module is being parsed"
  | nftWithoutTypes => "NFT without ROM and RAM"
  | noTokenIdentifier => "NFT module without _tokenID"
  | labelNotAssembled label => s!"label {label} was not assembled"
  | precisionOutOfRange precision => s!"decimal precision {precision} out of range"
  | unbuildableType kind detail => s!"cannot construct type {kind} from {detail}"
  | notCollection name => s!"{name} is not a storage collection"
  | mapWithoutKey name => s!"map {name} has no key type"
  | untypedCollection name => s!"{name} carries no collection types"
  | routineHeader => "malformed builtin header"
  | routineParameter text => s!"malformed builtin parameter {text}"
  | routineType name => s!"unsupported builtin type {name}"
  | routineLabel library name => s!"builtin {library}.{name} has no entry label"
  | routineOrphan line => s!"builtin code outside of a routine: {line}"
  | genericArgument => "generic argument out of range"
  | descriptionParameter => "description without data parameter"
  | triggerSignature name => s!"no signature for trigger {name}"
  | other text => text

/--
Every failure that is reported.  Lines count from one.  A failed assembly
keeps the listing that was refused, so that it can be written out.
-/
inductive Error where
  | unexpectedEnd (line : Nat)
  | expected (line : Nat) (wanted found : String)
  | unexpectedToken (line : Nat) (token : String)
  | invalidName (line : Nat) (what name : String)
  | duplicate (line : Nat) (name : String)
  | typeMismatch (line : Nat) (left right : String)
  | wrongType (line : Nat) (wanted found : String)
  | undeclaredVariable (line : Nat) (name : String)
  | unknownIdentifier (line : Nat) (name : String)
  | unknownLibrary (line : Nat) (name : String)
  | unimportedLibrary (line : Nat) (name : String)
  | unknownMethod (line : Nat) (library method : String)
  | outsideLoop (line : Nat) (keyword : String)
  | semantic (line : Nat) (complaint : Complaint)
  | unrepresentable (kind : String)
  | assembler (moduleName message : String) (listing : List String)
  | internal (line : Nat) (defect : Defect)
deriving DecidableEq

namespace Error

def message : Error → String
  | unexpectedEnd line => s!"line {line}: unexpected end of file"
  | expected line wanted found => s!"line {line}: expected {wanted}, got {found}"
  | unexpectedToken line token => s!"line {line}: unexpected token: {token}"
  | invalidName line what name => s!"line {line}: invalid {what} name: {name}"
  | duplicate line name => s!"line {line}: duplicated declaration: {name}"
  | typeMismatch line left right =>
    s!"line {line}: type mismatch, {left} on left, {right} on right"
  | wrongType line wanted found => s!"line {line}: expected {wanted}, got {found} instead"
  | undeclaredVariable line name => s!"line {line}: undeclared variable: {name}"
  | unknownIdentifier line name => s!"line {line}: unknown identifier: {name}"
  | unknownLibrary line name => s!"line {line}: unknown library: {name}"
  | unimportedLibrary line name => s!"line {line}: library {name} is not imported"
  | unknownMethod line library method => s!"line {line}: unknown method {method} in {library}"
  | outsideLoop line keyword => s!"line {line}: {keyword} is not inside a loop"
  | semantic line complaint =>
    let text := complaint.message
    s!"line {line}: {text}"
  | unrepresentable kind => s!"no VM representation for type {kind}"
  | assembler moduleName message _ => s!"assembler failed for {moduleName}: {message}"
  | internal line defect =>
    let text := defect.message
    s!"line {line}: internal compiler error: {text}"

def line? : Error → Option Nat
  | unexpectedEnd line => some line
  | expected line _ _ => some line
  | unexpectedToken line _ => some line
  | invalidName line _ _ => some line
  | duplicate line _ => some line
  | typeMismatch line _ _ => some line
  | wrongType line _ _ => some line
  | undeclaredVariable line _ => some line
  | unknownIdentifier line _ => some line
  | unknownLibrary line _ => some line
  | unimportedLibrary line _ => some line
  | unknownMethod line _ _ => some line
  | outsideLoop line _ => some line
  | semantic line _ => some line
  | unrepresentable _ => none
  | assembler _ _ _ => none
  | internal line _ => some line

def code : Error → String
  | unexpectedEnd _ => "T0001"
  | expected _ _ _ => "T0002"
  | unexpectedToken _ _ => "T0003"
  | invalidName _ _ _ => "T0004"
  | duplicate _ _ => "T0005"
  | typeMismatch _ _ _ => "T0101"
  | wrongType _ _ _ => "T0102"
  | undeclaredVariable _ _ => "T0201"
  | unknownIdentifier _ _ => "T0202"
  | unknownLibrary _ _ => "T0203"
  | unimportedLibrary _ _ => "T0204"
  | unknownMethod _ _ _ => "T0205"
  | outsideLoop _ _ => "T0301"
  | semantic _ _ => "T0302"
  | unrepresentable _ => "T0401"
  | assembler _ _ _ => "T0402"
  | internal _ _ => "T9999"

/-- Internal errors blame the compiler and not the source. -/
def isInternal : Error → Bool
  | internal _ _ => true
  | _ => false

end Error

/--
How a compilation ends without a result.  Besides a reported error there are
two endings without a report: the counter of an enum runs past thirty-two
bits, or a bounded search stalls, with its bound spent or with a step that makes
no progress.  The second never happens.
-/
inductive Failure where
  | error (error : Error)
  | overflow
  | stalled
deriving DecidableEq

/-- Report a rule of the language that the source breaks on a line. -/
def complain {Outcome : Type} (line : Nat) (complaint : Complaint) : Except Error Outcome :=
  .error (.semantic line complaint)

/-- Report a state that should not arise. -/
def blame {Outcome : Type} (line : Nat) (defect : Defect) : Except Error Outcome :=
  .error (.internal line defect)

/-- A change of a state that may fail; what was changed before it failed stays changed. -/
abbrev Change (State Outcome : Type) : Type :=
  EStateM Error State Outcome

namespace Change

variable {State Outcome : Type}

/-- The state that a change leaves behind, whether or not it fails. -/
def state (change : Change State Outcome) (before : State) : State :=
  match change before with
  | .ok _ after => after
  | .error _ after => after

/-- The outcome of a change and the state behind it, or its error alone. -/
def outcome (change : Change State Outcome) (before : State) : Except Error (Outcome × State) :=
  match change before with
  | .ok outcome after => .ok (outcome, after)
  | .error error _ => .error error

end Change

end Covenant
