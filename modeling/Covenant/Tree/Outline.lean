import Covenant.Json.Basic
import Covenant.Tree.Basic

/-!
# Outlines of trees

An outline writes a tree as nested lists, so that a tool can look at what was
read.  The list of a node starts with the word for its form, its number and
its line; an expression adds its type.  The parts of the node follow in the
order in which they are written.
-/

namespace Covenant

def Mark.outline (mark : Mark) (form : String) (parts : List Json) : Json :=
  .array (.text form :: .natural mark.id :: .natural mark.line :: parts)

namespace Expr

def outlineNode (form : String) (mark : Mark) (ty : Ty) (parts : List Json) : Json :=
  mark.outline form (.text ty.display :: parts)

mutual

def outline : Expr → Json
  | .literal mark ty text => outlineNode "literal" mark ty [.text text]
  | .constant mark ty name text => outlineNode "constant" mark ty [.text name, .text text]
  | .variable mark ty id => outlineNode "variable" mark ty [.natural id]
  | .binary mark ty op left right =>
    outlineNode "binary" mark ty [.text op.symbol, left.outline, right.outline]
  | .not mark ty inner => outlineNode "not" mark ty [inner.outline]
  | .negate mark ty inner => outlineNode "negate" mark ty [inner.outline]
  | .cast mark ty inner => outlineNode "cast" mark ty [inner.outline]
  | .call mark ty method typeArgument arguments =>
    outlineNode "call" mark ty
      [.text method.library, .text method.name, .text method.aliasName,
        .optional (fun argument => .text argument.display) typeArgument,
        .array (outlineAll arguments)]
  | .field mark ty target name => outlineNode "field" mark ty [target.outline, .text name]
  | .element mark ty array index =>
    outlineNode "element" mark ty [array.outline, index.outline]
  | .thisAddress mark ty => outlineNode "thisAddress" mark ty []
  | .moduleRef mark ty name => outlineNode "moduleRef" mark ty [.text name]

def outlineAll : List Expr → List Json
  | [] => []
  | first :: rest => first.outline :: outlineAll rest

end

end Expr

namespace Selector

/-- A field is named, an index is outlined, and the whole is null. -/
def outline : Selector → Json
  | .whole => .null
  | .field name => .text name
  | .index position => position.outline

end Selector

namespace Stmt

def outlineBlock (scope : ScopeId) (statements : List Json) : Json :=
  .array [.natural scope, .array statements]

mutual

def outline : Stmt → Json
  | .declare mark target value =>
    mark.outline "local" [.natural target, .optional Expr.outline value]
  | .assign mark target selector value =>
    mark.outline "assign" [.natural target, selector.outline, value.outline]
  | .call mark invoked => mark.outline "call" [invoked.outline]
  | .branch mark condition ⟨scope, body⟩ none =>
    mark.outline "if"
      [condition.outline, outlineBlock scope (outlineAll body), .null]
  | .branch mark condition ⟨scope, body⟩ (some ⟨other, otherwise⟩) =>
    mark.outline "if"
      [condition.outline, outlineBlock scope (outlineAll body),
        outlineBlock other (outlineAll otherwise)]
  | .whileLoop mark condition ⟨scope, body⟩ =>
    mark.outline "while" [condition.outline, outlineBlock scope (outlineAll body)]
  | .doLoop mark ⟨scope, body⟩ condition =>
    mark.outline "do" [outlineBlock scope (outlineAll body), condition.outline]
  | .forLoop mark loopScope init condition step ⟨scope, body⟩ =>
    mark.outline "for"
      [.natural loopScope, init.outline, condition.outline, step.outline,
        outlineBlock scope (outlineAll body)]
  | .switch mark value cases none =>
    mark.outline "switch" [value.outline, .array (outlineCases cases), .null]
  | .switch mark value cases (some ⟨scope, body⟩) =>
    mark.outline "switch"
      [value.outline, .array (outlineCases cases), outlineBlock scope (outlineAll body)]
  | .giveBack mark value => mark.outline "return" [.optional Expr.outline value]
  | .throw mark value => mark.outline "throw" [value.outline]
  | .leave mark => mark.outline "break" []
  | .next mark => mark.outline "continue" []
  | .emit mark event number address value =>
    mark.outline "emit"
      [.text event, .natural number, address.outline, value.outline]
  | .assembly mark lines => mark.outline "asm" [.texts lines]

def outlineAll : List Stmt → List Json
  | [] => []
  | first :: rest => first.outline :: outlineAll rest

def outlineCases : List Case → List Json
  | [] => []
  | ⟨value, ⟨scope, body⟩⟩ :: rest =>
    .array [value.outline, outlineBlock scope (outlineAll body)] :: outlineCases rest

end

end Stmt

def BlockOf.outline (block : Block) : Json :=
  Stmt.outlineBlock block.scope (Stmt.outlineAll block.statements)

end Covenant
