import Covenant.Emission.Expression

/-!
# Emitting statements

A statement gives back every register it takes, apart from those of the
variables it is the first to assign.  The register of a local variable is
given back at the end of the scope it is declared in.
-/

namespace Covenant.Emission

def releaseLocal (line : Nat) (declaration : Variable) : Emission Unit := do
  if ← release declaration.id line then
    return ()
  else
    fail (.semantic declaration.line (.unusedVariable declaration.name))

def releaseLocals (line : Nat) : List Variable → Emission Unit
  | [] => return ()
  | declaration :: rest => do
      onlyIf (declaration.storage = .local) (releaseLocal line declaration)
      releaseLocals line rest

def leaveScope (env : Env) (scope : ScopeId) (line : Nat) : Emission Unit :=
  releaseLocals line (env.scopes.declaredIn scope)

/-- The line of the last statement, zero where there is none. -/
def lastLine (statements : List Stmt) : Nat :=
  (statements.getLast?.map Stmt.line).getD 0

/-- Clear the register of a variable that was given one just now. -/
def clearFresh (fresh : Bool) (register : Register) : Emission Unit :=
  onlyIf fresh (instruction .clear [.register register])

def store (env : Env) (line : Nat) (fresh : Bool) (value target : Register) :
    Selector → Emission Unit
  | .whole => instruction .copy [.register value, .register target]
  | .field name => do
      clearFresh fresh target
      loadScratch (.quoted name)
      instruction .put [.register value, .register target, .scratch]
  | .index index => do
      clearFresh fresh target
      let key ← expression env index
      instruction .put [.register value, .register target, .register key]
      dealloc key line

def assign (env : Env) (mark : Mark) (id : VarId) (selector : Selector) (value : Expr) :
    Emission Unit := do
  let register ← expression env value
  let fresh ← ensureBound env id mark
  let target ← operand env id mark.line
  store env mark.line fresh register target selector
  dealloc register mark.line

def discarded (env : Env) (line : Nat) (expr : Expr) : Emission Unit := do
  match expr with
  | .call mark ty method _ written =>
    match ← call env mark ty method (arguments env written) with
    | some register => dealloc register line
    | none => return ()
  | _ =>
    let register ← expression env expr
    dealloc register line

/-- Jump unless, or if, a condition holds. -/
def test (env : Env) (opcode : Opcode) (condition : Expr) (target : Label) (line : Nat) :
    Emission Unit := do
  let register ← expression env condition
  instruction opcode [.register register, .label target]
  dealloc register line

def pushExpression (env : Env) (expr : Expr) (line : Nat) : Emission Unit := do
  let register ← expression env expr
  instruction .push [.register register]
  dealloc register line

def pushResult (env : Env) (line : Nat) : Option Expr → Emission Unit
  | some value => pushExpression env value line
  | none => return ()

def rawLines : List String → Emission Unit
  | [] => return ()
  | first :: rest => do
      let text := Text.trimmed first
      onlyIf (!text.isEmpty) (line (.raw text))
      rawLines rest

/-! ## Statements -/

/-- What statements know of their surroundings. -/
structure Frame where
  loops : LoopStack := []
  /-- Where a return leads; there is no such place outside of a method. -/
  exit? : Option Label := none

/-- A program that can also change the frame. -/
abbrev Framed := StateT Frame Emission

/-- The code of the body of a loop. -/
def inLoop (breakLabel continueLabel : Label) (code : Framed Unit) : Framed Unit := do
  modify fun frame => { frame with loops := frame.loops.enter breakLabel continueLabel }
  code
  modify fun frame => { frame with loops := frame.loops.leave }

/-- Jump to a label that not every frame has. -/
def jumpTo (target : Option Label) (missing : Error) : Emission Unit :=
  match target with
  | some place => instruction .jmp [.label place]
  | none => fail missing

mutual

def statement (env : Env) : Stmt → Framed Unit
  | .declare mark id value => do
      annotate env mark.line
      match value with
      | some value => assign env mark id .whole value
      | none => return ()
  | .assign mark id selector value => do
      annotate env mark.line
      assign env mark id selector value
  | .call mark expr => do
      annotate env mark.line
      discarded env mark.line expr
  | .branch mark condition ⟨scope, body⟩ none => do
      annotate env mark.line
      test env .jmpNot condition (.otherwise mark.id) mark.line
      statements env body
      leaveScope env scope (lastLine body)
      instruction .jmp [.label (.joined mark.id)]
      label (.otherwise mark.id)
      label (.joined mark.id)
  | .branch mark condition ⟨scope, body⟩ (some ⟨otherScope, other⟩) => do
      annotate env mark.line
      test env .jmpNot condition (.otherwise mark.id) mark.line
      statements env body
      leaveScope env scope (lastLine body)
      instruction .jmp [.label (.joined mark.id)]
      label (.otherwise mark.id)
      statements env other
      leaveScope env otherScope (lastLine other)
      label (.joined mark.id)
  | .whileLoop mark condition ⟨scope, body⟩ => do
      annotate env mark.line
      label (.loopStart mark.id)
      test env .jmpNot condition (.loopEnd mark.id) mark.line
      inLoop (.loopEnd mark.id) (.loopStart mark.id) do
        statements env body
        leaveScope env scope (lastLine body)
      instruction .jmp [.label (.loopStart mark.id)]
      label (.loopEnd mark.id)
  | .doLoop mark ⟨scope, body⟩ condition => do
      annotate env mark.line
      label (.loopStart mark.id)
      inLoop (.loopEnd mark.id) (.loopContinue mark.id) do
        statements env body
        leaveScope env scope (lastLine body)
      label (.loopContinue mark.id)
      test env .jmpIf condition (.loopStart mark.id) mark.line
      label (.loopEnd mark.id)
  | .forLoop mark outer init condition step ⟨scope, body⟩ => do
      annotate env mark.line
      statement env init
      label (.loopStart mark.id)
      test env .jmpNot condition (.loopEnd mark.id) mark.line
      inLoop (.loopEnd mark.id) (.loopContinue mark.id) do
        statements env body
        leaveScope env scope (lastLine body)
      label (.loopContinue mark.id)
      statement env step
      instruction .jmp [.label (.loopStart mark.id)]
      label (.loopEnd mark.id)
      leaveScope env outer mark.line
  | .switch mark value cases none => do
      annotate env mark.line
      let scrutinee ← expression env value
      caseCode env mark scrutinee 0 cases
      label (.caseEnd mark.id)
      dealloc scrutinee mark.line
  | .switch mark value cases (some ⟨scope, body⟩) => do
      annotate env mark.line
      let scrutinee ← expression env value
      caseCode env mark scrutinee 0 cases
      statements env body
      leaveScope env scope (lastLine body)
      label (.caseEnd mark.id)
      dealloc scrutinee mark.line
  | .giveBack mark value => do
      annotate env mark.line
      pushResult env mark.line value
      jumpTo (← get).exit? (.internal mark.line .returnOutside)
  | .throw mark value => do
      annotate env mark.line
      let register ← expression env value
      instruction .throw [.register register]
      dealloc register mark.line
  | .leave mark => do
      annotate env mark.line
      jumpTo (← get).loops.breakLabel? (.outsideLoop mark.line "break")
  | .next mark => do
      annotate env mark.line
      jumpTo (← get).loops.continueLabel? (.outsideLoop mark.line "continue")
  | .emit mark _ number address value => do
      annotate env mark.line
      pushExpression env value mark.line
      pushExpression env address mark.line
      pushValue (.natural number)
      hostCall "Runtime.Notify"
  | .assembly mark lines => do
      annotate env mark.line
      rawLines lines

def statements (env : Env) : List Stmt → Framed Unit
  | [] => return ()
  | first :: rest => do
      statement env first
      statements env rest

/-- The code of the cases of a switch, counted from `index`. -/
def caseCode (env : Env) (mark : Mark) (scrutinee : Register) (index : Nat) :
    List Case → Framed Unit
  | [] => return ()
  | ⟨value, ⟨scope, body⟩⟩ :: rest => do
      let register ← expression env value
      instruction .equal [.register scrutinee, .register register, .register register]
      instruction .jmpNot [.register register, .label (.caseSkip mark.id index)]
      dealloc register mark.line
      statements env body
      leaveScope env scope (lastLine body)
      instruction .jmp [.label (.caseEnd mark.id)]
      label (.caseSkip mark.id index)
      caseCode env mark scrutinee (index + 1) rest

end

def block (env : Env) (body : Block) : Framed Unit := do
  statements env body.statements
  leaveScope env body.scope (lastLine body.statements)

/-- The code of the body of a method, in which a return leads to `exit`. -/
def inMethod (env : Env) (exit : Label) (body : Block) : Emission Unit := do
  let ((), _) ← (block env body).run { exit? := some exit }

end Covenant.Emission
