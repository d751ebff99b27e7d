import Covenant.Proofs.ExactLiterals
import Covenant.Proofs.FairTypes

/-!
# Trees of operators

An expression is its first operand with a chain behind it, and a chain ends
where no operator comes next.  The bounds of the readers play no part in this,
as `expression_run` and `chain_run` say.

A tree of operators is written with its left operands as they are and with its
right operands in parentheses, unless they are leaves.  Reading what is written
gives back the tree: operators group to the left whatever they are.
-/

namespace Covenant.Reading

variable {Outcome Next : Type} {context : Context} {scope : ScopeId} {before : State}

/-! ## Readers without bounds -/

theorem below_run (weight : Nat) (nested : Reading Outcome) (before : State) :
    (below weight nested).run before =
      if before.weight < weight then nested.run before else .error .stalled := by
  rw [below, StateT.run_bind, StateT.run_get, pure_bind]
  split <;> rfl

/-- Whatever the bound, if it is large enough. -/
theorem expressionWithin_run {bound other : Nat} (light : before.weight < bound)
    (lighter : before.weight < other) :
    (expressionWithin context scope bound).run before =
      (expressionWithin context scope other).run before := by
  induction bound generalizing before other with
  | zero => exact absurd light (Nat.not_lt_zero _)
  | succ bound ih =>
    cases other with
    | zero => exact absurd lighter (Nat.not_lt_zero _)
    | succ other =>
      have same : below before.weight (expressionWithin context scope bound) =
          below before.weight (expressionWithin context scope other) := by
        refine StateT.ext fun inner => ?_
        rw [below_run, below_run]
        split
        · exact ih (by omega) (by omega)
        · rfl
      simp only [expressionWithin, StateT.run_bind, StateT.run_get, pure_bind]
      rw [same]

/-- The reader of an operand in an expression that begins with some weight. -/
abbrev operandBelow (context : Context) (scope : ScopeId) (weight : Nat) (leading : Bool) :
    Reading Expr :=
  operand context scope (below weight (expression context scope)) leading

/-- An expression is its first operand with a chain behind it. -/
theorem expression_run (before : State) :
    (expression context scope).run before =
      (operandBelow context scope before.weight true >>=
        chain (operandBelow context scope before.weight false)).run before := by
  have same : below before.weight (expressionWithin context scope before.weight) =
      below before.weight (expression context scope) := by
    refine StateT.ext fun inner => ?_
    rw [below_run, below_run]
    split
    · rw [expression, bounded, StateT.run_bind, StateT.run_get, pure_bind]
      exact expressionWithin_run ‹_› (Nat.lt_succ_self _)
    · rfl
  conv_lhs => rw [expression, bounded, StateT.run_bind, StateT.run_get, pure_bind]
  simp only [expressionWithin, StateT.run_bind, StateT.run_get, pure_bind]
  rw [same]

/-- The operator that comes next, if one does. -/
def State.operator? (state : State) : Option String :=
  (state.rest.head?.filter fun token =>
    token.kind = .operator && Word.isBinaryOperator token.value).map Token.value

theorem peekOperator_run (before : State) :
    peekOperator.run before = .ok (before.operator?, before) := by
  rw [State.operator?, List.head?_eq_getElem?]
  rfl

variable {right : Reading Expr} {left : Expr}

/-- A chain of at most some links. -/
abbrev linksWithin (right : Reading Expr) : Nat → Expr → Reading Expr :=
  iterateWithin (do return (← peekOperator).isNone) (link right)

theorem linksWithin_run (bound : Nat) (left : Expr) (before : State) :
    (linksWithin right (bound + 1) left).run before =
      if before.operator? = none then .ok (left, before)
      else (link right left).run before >>= fun pair =>
        if pair.2.weight < before.weight then (linksWithin right bound pair.1).run pair.2
        else .error .stalled := by
  rw [linksWithin, iterateWithin, StateT.run_bind, StateT.run_bind, peekOperator_run]
  cases before.operator? with
  | none => rfl
  | some spelling =>
    change (advancing (link right left) >>= linksWithin right bound).run before = _
    rw [StateT.run_bind, advancing, StateT.run_bind, StateT.run_get, pure_bind, StateT.run_bind,
      bind_assoc]
    refine bind_congr fun pair => ?_
    rw [StateT.run_bind, StateT.run_get, pure_bind]
    split <;> rfl

/-- Whatever the bound, if it is large enough. -/
theorem linksWithin_agree {bound other : Nat} (light : before.weight < bound)
    (lighter : before.weight < other) :
    (linksWithin right bound left).run before = (linksWithin right other left).run before := by
  induction bound generalizing before other left with
  | zero => exact absurd light (Nat.not_lt_zero _)
  | succ bound ih =>
    cases other with
    | zero => exact absurd lighter (Nat.not_lt_zero _)
    | succ other =>
      rw [linksWithin_run, linksWithin_run]
      split
      · rfl
      · refine bind_congr fun pair => ?_
        split
        · exact ih (by omega) (by omega)
        · rfl

/-- A chain ends where no operator comes next, and goes on behind a link otherwise. -/
theorem chain_run (right : Reading Expr) (left : Expr) (before : State) :
    (chain right left).run before =
      if before.operator? = none then .ok (left, before)
      else (link right left).run before >>= fun pair =>
        if pair.2.weight < before.weight then (chain right pair.1).run pair.2
        else .error .stalled := by
  have rounds (left : Expr) (before : State) : (chain right left).run before =
      (linksWithin right (before.weight + 1) left).run before := by
    rw [chain, iterate, bounded, StateT.run_bind, StateT.run_get, pure_bind]
  rw [rounds, linksWithin_run]
  split
  · rfl
  · refine bind_congr fun pair => ?_
    split
    · rw [rounds]
      exact linksWithin_agree ‹_› (Nat.lt_succ_self _)
    · rfl

theorem chain_done (ended : before.operator? = none) :
    (chain right left).run before = .ok (left, before) := by
  rw [chain_run, if_pos ended]

theorem chain_link {joined : Expr} {between : State} (operates : before.operator? ≠ none)
    (linked : (link right left).run before = .ok (joined, between))
    (less : between.weight < before.weight) :
    (chain right left).run before = (chain right joined).run between := by
  rw [chain_run, if_neg operates, linked]
  exact if_pos less

/-! ## Trees and how they are written -/

end Covenant.Reading

namespace Covenant.Expr

open Reading (literalOf?)

/-- A variable or a literal. -/
def isLeaf : Expr → Bool
  | .variable .. | literal .. => true
  | _ => false

/-- A right operand is put in parentheses unless it is a leaf. -/
def Grouped (right : Expr) (bare written : List Token) : Prop :=
  if right.isLeaf then written = bare
  else ∃ opening closing : Token, opening.is .separator "(" = true ∧
    closing.is .separator ")" = true ∧ written = opening :: bare ++ [closing]

/--
The tokens are a way to write the tree at a place where names mean what they do
in the scope.  Both operands of an operator have the same type; an inequality is
the negation of an equality.
-/
inductive Written (scopes : ScopeTree) (scope : ScopeId) : Expr → List Token → Prop
  | «variable» {mark : Mark} {id : VarId} {token : Token} (named : token.kind = .identifier)
      (found : scopes.findVariable? scope token.value = some id)
      (single : (scopes.declaration id).collection = none) :
      Written scopes scope (.variable mark (scopes.declaration id).ty id) [token]
  | literal {mark : Mark} {text : String} {ty : Ty} {token : Token}
      (valued : literalOf? token = some (text, ty)) :
      Written scopes scope (.literal mark ty text) [token]
  | negative {mark : Mark} {text : String} {ty : Ty} {sign token : Token}
      (isMinus : sign.is .operator "-" = true)
      (numeric : token.kind = .number ∨ token.kind = .decimal)
      (valued : literalOf? token = some (text, ty)) :
      Written scopes scope (.literal mark ty ("-" ++ text)) [sign, token]
  | binary {mark : Mark} {op : BinaryOp} {left right : Expr} {token : Token}
      {first second last : List Token} (operates : token.kind = .operator)
      (spells : BinaryOp.ofSpelling? token.value = some op) (equal : token.value ≠ "!=")
      (leftWritten : Written scopes scope left first)
      (rightWritten : Written scopes scope right second) (grouped : right.Grouped second last)
      (same : left.ty = right.ty) :
      Written scopes scope
        (.binary mark (if op.isComparison then .bool else left.ty) op left right)
        (first ++ token :: last)
  | unequal {mark inner : Mark} {left right : Expr} {token : Token} {first second last : List Token}
      (spells : token.is .operator "!=" = true) (leftWritten : Written scopes scope left first)
      (rightWritten : Written scopes scope right second) (grouped : right.Grouped second last)
      (same : left.ty = right.ty) :
      Written scopes scope (.not mark .bool (.binary inner .bool .equal left right))
        (first ++ token :: last)

/-- The trees differ at most in the marks of their nodes. -/
inductive Alike : Expr → Expr → Prop
  | literal {one two : Mark} {ty : Ty} {text : String} :
      Alike (.literal one ty text) (.literal two ty text)
  | «variable» {one two : Mark} {ty : Ty} {id : VarId} :
      Alike (.variable one ty id) (.variable two ty id)
  | binary {one two : Mark} {ty : Ty} {op : BinaryOp} {left left' right right' : Expr}
      (lefts : Alike left left') (rights : Alike right right') :
      Alike (.binary one ty op left right) (.binary two ty op left' right')
  | not {one two : Mark} {ty : Ty} {inner inner' : Expr} (inners : Alike inner inner') :
      Alike (.not one ty inner) (.not two ty inner')

theorem Alike.ty_eq {one two : Expr} (alike : Alike one two) : one.ty = two.ty := by
  cases alike <;> rfl

end Covenant.Expr

namespace Covenant.Reading

open Expr (Alike Written Grouped)

variable {context : Context} {scope : ScopeId} {before : State} {weight : Nat} {leading : Bool}
  {tree : Expr} {token : Token} {rest tokens : List Token} {op : BinaryOp}

theorem tokensWeight_lt (token : Token) (rest : List Token) :
    tokensWeight rest < tokensWeight (token :: rest) := by
  have positive : 0 < tokenWeight token := by
    unfold tokenWeight
    split <;> decide
  exact Nat.lt_add_of_pos_left positive

/-- No part of an operand comes next. -/
def EndsName (rest : List Token) : Prop :=
  ∀ token ∈ rest.head?, token.is .separator "(" = false ∧ token.is .selector "." = false ∧
    token.is .separator "[" = false

theorem check_absent {kind : Token.Kind} {value : String}
    (absent : ∀ token ∈ before.rest.head?, token.is kind value = false) :
    (check kind value).run before = .ok (false, before) := by
  rcases before with ⟨tokens, lastLine, nodes, scopes⟩
  cases tokens with
  | nil => rfl
  | cons next others =>
    change Except.ok (next.is kind value, _) = _
    rw [absent next rfl]

theorem eat_absent {kind : Token.Kind} {value : String}
    (absent : ∀ token ∈ before.rest.head?, token.is kind value = false) :
    (eat kind value).run before = .ok (false, before) := by
  rw [eat, bind_of_ok (check_absent absent)]
  rfl

theorem scopes_run (before : State) : scopes.run before = .ok (before.scopes, before) :=
  rfl

/-- A name that stands for a variable. -/
theorem operand_variable {nested : Reading Expr} {id : VarId}
    (spelled : before.rest = token :: rest) (named : token.kind = .identifier)
    (ends : EndsName rest)
    (found : before.scopes.findVariable? scope token.value = some id)
    (single : (before.scopes.declaration id).collection = none) :
    (operand context scope nested leading).run before =
      .ok (.variable ⟨before.nodes + 1, token.line⟩ (before.scopes.declaration id).ty id,
        { before with rest, nodes := before.nodes + 1 }) := by
  rw [operand, bind_of_ok (fetch_run spelled)]
  simp only [named]
  rw [Reading.named, bind_of_ok (check_absent fun token next => (ends token next).1),
    if_neg Bool.false_ne_true, bind_of_ok (eat_absent fun token next => (ends token next).2.1),
    if_neg Bool.false_ne_true, bind_of_ok (eat_absent fun token next => (ends token next).2.2),
    if_neg Bool.false_ne_true, nameValue, bind_of_ok (scopes_run _)]
  simp only [found]
  rw [variableValue, bind_of_ok (scopes_run _)]
  simp only [single]
  rfl

/-- A group that starts no expression is what stands in it. -/
theorem operand_group {nested : Reading Expr} {opening closing : Token} {inner : Expr}
    {between : State} (spelled : before.rest = opening :: tokens)
    (opens : opening.is .separator "(" = true) (closes : closing.is .separator ")" = true)
    (read : nested.run { before with rest := tokens } = .ok (inner, between))
    (left : between.rest = closing :: rest) :
    (operand context scope nested false).run before = .ok (inner, { between with rest }) := by
  rcases opening with ⟨kind, value, start, stop⟩
  simp only [Token.is, Bool.and_eq_true, beq_iff_eq] at opens
  rcases opens with ⟨rfl, rfl⟩
  have closed : (separator ")").run between = .ok ((), { between with rest }) := by
    have taken : (expect .separator ")").run between = .ok (closing, { between with rest }) := by
      rw [expect, bind_of_ok (fetch_run left), if_pos closes]
      rfl
    change (expect .separator ")" >>= fun _ => pure ()).run between = _
    rw [bind_of_ok taken]
    rfl
  rw [operand, bind_of_ok (fetch_run spelled)]
  change (group nested false).run _ = _
  rw [group, bind_of_ok read, bind_of_ok closed]
  rfl

theorem isBinaryOperator_of_spelling {spelling : String}
    (spells : BinaryOp.ofSpelling? spelling = some op) : Word.isBinaryOperator spelling = true := by
  unfold BinaryOp.ofSpelling? at spells
  split at spells
  case h_19 => cases spells
  all_goals decide

/-- Operands of one type stay as they are. -/
theorem unify_same {left right : Expr} (same : left.ty = right.ty) (line : Nat) (before : State) :
    (unify op left right line).run before = .ok ((left, right), before) := by
  have none : implicitTarget? op left.ty right.ty = none := by
    rw [← same]
    cases op <;> cases left.ty <;> rfl
  have converted : (convertRight op left right).run before = .ok (right, before) := by
    rw [convertRight, none]
    rfl
  rw [unify, bind_of_ok converted, if_pos same]
  rfl

/-- An operator joins operands of one type; an inequality is a negated equality. -/
theorem binary_same {left right : Expr} {spelling : String}
    (spells : BinaryOp.ofSpelling? spelling = some op) (same : left.ty = right.ty) (line : Nat)
    (before : State) :
    (binary spelling left right line).run before =
      let joined := .binary ⟨before.nodes + 1, line⟩ (if op.isComparison then .bool else left.ty)
        op left right
      if spelling = "!=" then
        .ok (.not ⟨before.nodes + 2, line⟩ .bool joined, { before with nodes := before.nodes + 2 })
      else .ok (joined, { before with nodes := before.nodes + 1 }) := by
  have found : (require (BinaryOp.ofSpelling? spelling) (.unexpectedToken line spelling)).run
      before = .ok (op, before) := by
    rw [spells]
    rfl
  rw [binary, bind_of_ok found, bind_of_ok (unify_same same line before)]
  change (if spelling = "!=" then _ else _ : Reading Expr).run _ = _
  split <;> rfl

/-! ## Reading trees -/

theorem isLiteral_of_value {value : String × Ty} (valued : literalOf? token = some value) :
    token.kind.isLiteral = true := by
  unfold literalOf? at valued
  cases kind : token.kind <;> rw [kind] at valued <;> first | rfl | cases valued

/-- Where the tree stands first in an expression, it is read as the left end of a chain. -/
def LeadsChain (context : Context) (scope : ScopeId) (before : State) (tree : Expr)
    (rest : List Token) (weight : Nat) : Prop :=
  ∃ expr nodes, expr.Alike tree ∧
    (operandBelow context scope weight true >>=
      chain (operandBelow context scope weight false)).run before =
    (chain (operandBelow context scope weight false) expr).run { before with rest, nodes }

/-- A leaf is an operand wherever it stands. -/
theorem leaf_read (written : tree.Written before.scopes scope tokens) (leaf : tree.isLeaf = true)
    (spelled : before.rest = tokens ++ rest) (ends : EndsName rest) :
    ∃ expr nodes, expr.Alike tree ∧ (operandBelow context scope weight leading).run before =
      .ok (expr, { before with rest, nodes }) := by
  cases written with
  | «variable» named found single =>
    exact ⟨_, _, .variable, operand_variable spelled named ends found single⟩
  | literal valued =>
    have read : (operandBelow context scope weight leading).run before = _ :=
      operand_literal spelled (isLiteral_of_value valued)
    rw [literal_run valued, String.empty_append] at read
    exact ⟨_, _, .literal, read⟩
  | negative isMinus numeric valued =>
    have read : (operandBelow context scope weight leading).run before = _ :=
      operand_minus spelled isMinus numeric
    rw [literal_run valued] at read
    exact ⟨_, _, .literal, read⟩
  | binary => cases leaf
  | unequal => cases leaf

theorem operator?_none (spelled : before.rest = token :: rest) (other : token.kind ≠ .operator) :
    before.operator? = none := by
  simp [State.operator?, spelled, other]

theorem operator?_some (spelled : before.rest = token :: rest) (operates : token.kind = .operator)
    (joins : Word.isBinaryOperator token.value = true) : before.operator? ≠ none := by
  simp [State.operator?, spelled, operates, joins]

theorem endsName_operator (operates : token.kind = .operator) : EndsName (token :: rest) := by
  intro token isFirst
  cases isFirst
  simp [Token.is, operates]

theorem endsName_separator {value : String} (separates : token.is .separator value = true)
    (opens : value ≠ "(" ∧ value ≠ "[") : EndsName (token :: rest) := by
  simp only [Token.is, Bool.and_eq_true, beq_iff_eq] at separates
  intro token isFirst
  cases isFirst
  simp [Token.is, separates, opens]

/-- Wherever the tokens stand first in an expression, they are read as this tree. -/
def LeadsChains (context : Context) (scopes : ScopeTree) (scope : ScopeId) (tree : Expr)
    (tokens : List Token) : Prop :=
  ∀ (before : State) (rest : List Token) (weight : Nat), before.scopes = scopes →
    before.rest = tokens ++ rest → EndsName rest → before.weight ≤ weight →
    LeadsChain context scope before tree rest weight

/-- A right operand is read as what is written, with parentheses if it needs them. -/
theorem right_read {scopes : ScopeTree} {bare : List Token}
    (written : tree.Written scopes scope bare) (grouped : tree.Grouped bare tokens)
    (leads : LeadsChains context scopes scope tree bare) (same : before.scopes = scopes)
    (spelled : before.rest = tokens ++ rest) (ends : EndsName rest)
    (light : before.weight ≤ weight) :
    ∃ expr nodes, expr.Alike tree ∧ (operandBelow context scope weight false).run before =
      .ok (expr, { before with rest, nodes }) := by
  subst same
  unfold Grouped at grouped
  split at grouped
  next leaf =>
    subst grouped
    exact leaf_read written leaf spelled ends
  next =>
    rcases grouped with ⟨opening, closing, opens, closes, rfl⟩
    have behind : before.rest = opening :: (bare ++ closing :: rest) := by
      rw [spelled]
      simp
    have lighter : State.weight { before with rest := bare ++ closing :: rest } < weight := by
      refine lt_of_lt_of_le ?_ light
      rw [State.weight, State.weight, behind]
      exact tokensWeight_lt _ _
    have stops : EndsName (closing :: rest) := endsName_separator closes (by decide)
    rcases leads { before with rest := bare ++ closing :: rest } _ _ rfl rfl stops le_rfl with
      ⟨expr, nodes, alike, run⟩
    have other : closing.kind ≠ .operator := by
      simp only [Token.is, Bool.and_eq_true, beq_iff_eq] at closes
      simp [closes]
    have read : (below weight (expression context scope)).run
        { before with rest := bare ++ closing :: rest } =
          .ok (expr, { before with rest := closing :: rest, nodes }) := by
      rw [below_run, if_pos lighter, expression_run, run]
      exact chain_done (operator?_none rfl other)
    exact ⟨expr, nodes, alike, operand_group behind opens closes read rfl⟩

/-- An operator and its right operand behind a tree make a larger tree. -/
theorem LeadsChains.link {scopes : ScopeTree} {left right joined : Expr}
    {first second last : List Token} (operates : token.kind = .operator)
    (joins : Word.isBinaryOperator token.value = true)
    (leftLeads : LeadsChains context scopes scope left first)
    (rightWritten : right.Written scopes scope second) (grouped : right.Grouped second last)
    (rightLeads : LeadsChains context scopes scope right second)
    (binds : ∀ one two line state, Alike one left → Alike two right →
      ∃ expr nodes, Alike expr joined ∧
        (binary token.value one two line).run state = .ok (expr, { state with nodes })) :
    LeadsChains context scopes scope joined (first ++ token :: last) := by
  intro before rest weight same spelled ends light
  rw [List.append_assoc, List.cons_append] at spelled
  subst same
  rcases leftLeads _ _ _ rfl spelled (endsName_operator operates) light with
    ⟨one, nodes, alike, run⟩
  have shorter : tokensWeight (last ++ rest) < before.weight := by
    have longer := tokensWeight_lt token (last ++ rest)
    rw [State.weight, spelled, tokensWeight_append first]
    omega
  let behind : State := { before with rest := last ++ rest, nodes }
  have lighter : behind.weight ≤ weight := le_of_lt (lt_of_lt_of_le shorter light)
  rcases right_read rightWritten grouped rightLeads (rfl : behind.scopes = _) rfl ends lighter with
    ⟨two, more, alikeRight, read⟩
  rcases binds one two token.line { before with rest, nodes := more } alike alikeRight with
    ⟨expr, most, joinedAlike, bound⟩
  refine ⟨expr, most, joinedAlike, ?_⟩
  rw [run]
  refine chain_link (operator?_some rfl operates joins) ?_ ?_
  · rw [Reading.link, bind_of_ok (fetch_run rfl), bind_of_ok read, bound]
  · change tokensWeight rest < tokensWeight (token :: (last ++ rest))
    have longer := tokensWeight_lt token (last ++ rest)
    rw [tokensWeight_append] at longer
    omega

/-- Whatever is written for a tree is read as the left end of a chain. -/
theorem leadsChains {scopes : ScopeTree} (written : tree.Written scopes scope tokens) :
    LeadsChains context scopes scope tree tokens := by
  have leaf {tree : Expr} {tokens : List Token} (written : tree.Written scopes scope tokens)
      (isLeaf : tree.isLeaf = true) : LeadsChains context scopes scope tree tokens := by
    intro before rest weight same spelled ends _
    subst same
    rcases leaf_read written isLeaf spelled ends with ⟨expr, nodes, alike, read⟩
    exact ⟨expr, nodes, alike, bind_of_ok read _⟩
  induction written with
  | «variable» named found single => exact leaf (.variable named found single) rfl
  | literal valued => exact leaf (.literal valued) rfl
  | negative isMinus numeric valued => exact leaf (.negative isMinus numeric valued) rfl
  | binary operates spells equal _ rightWritten grouped same leftLeads rightLeads =>
    refine .link operates (isBinaryOperator_of_spelling spells) leftLeads rightWritten grouped
      rightLeads fun one two line state oneAlike twoAlike => ?_
    have types : one.ty = two.ty := by rw [oneAlike.ty_eq, twoAlike.ty_eq, same]
    have run := binary_same spells types line state
    rw [if_neg equal, oneAlike.ty_eq] at run
    exact ⟨_, _, .binary oneAlike twoAlike, run⟩
  | @unequal _ _ _ _ token _ _ _ spells _ rightWritten grouped same leftLeads rightLeads =>
    simp only [Token.is, Bool.and_eq_true, beq_iff_eq] at spells
    have means : BinaryOp.ofSpelling? token.value = some .equal := by
      rw [spells.2]
      rfl
    refine .link spells.1 (isBinaryOperator_of_spelling means) leftLeads rightWritten grouped
      rightLeads fun one two line state oneAlike twoAlike => ?_
    have types : one.ty = two.ty := by rw [oneAlike.ty_eq, twoAlike.ty_eq, same]
    have run := binary_same means types line state
    rw [if_pos spells.2] at run
    exact ⟨_, _, .not (.binary oneAlike twoAlike), run⟩

/--
A tree of operators that is written with its left operands bare and with its right operands
grouped, and with a semicolon behind it, is read back: the reader stops at the semicolon with this
very tree, whichever operators occur in it.
-/
theorem tree_read_back {closing : Token} (written : tree.Written before.scopes scope tokens)
    (spelled : before.rest = tokens ++ closing :: rest)
    (closes : closing.is .separator ";" = true) :
    ∃ expr nodes, expr.Alike tree ∧ (expression context scope).run before =
      .ok (expr, { before with rest := closing :: rest, nodes }) := by
  have stops : EndsName (closing :: rest) := endsName_separator closes (by decide)
  rcases leadsChains written _ _ _ rfl spelled stops le_rfl with ⟨expr, nodes, alike, run⟩
  have other : closing.kind ≠ .operator := by
    simp only [Token.is, Bool.and_eq_true, beq_iff_eq] at closes
    simp [closes]
  refine ⟨expr, nodes, alike, ?_⟩
  rw [expression_run, run]
  exact chain_done (operator?_none rfl other)

/-- A module that declares nothing. -/
def bareContext : Context :=
  { declared := {}, moduleName := "test", symbol := none, libraries := [], own := { name := "this" }
    events := [], moduleNames := [], returns := .number }

/-- The tokens are what is left of a method with a number `x`. -/
def besideNumber (rest : List Token) : State where
  rest := rest
  lastLine := 1
  scopes :=
    { scopes := [
        { parent := none, moduleName := "test", names := [("x", 0)], variableIds := [0] }]
      declarations := [
        { id := 0, name := "x", ty := .number, storage := .local, scope := 0, line := 1 }] }

def onFirstLine (kind : Token.Kind) (value : String) : Token :=
  ⟨kind, value, ⟨0, 1, 1⟩, 0⟩

/-- The tokens of `x * -2 != (2 + x)`. -/
def unequalTokens : List Token :=
  [onFirstLine .identifier "x", onFirstLine .operator "*", onFirstLine .operator "-",
    onFirstLine .number "2", onFirstLine .operator "!=", onFirstLine .separator "(",
    onFirstLine .number "2", onFirstLine .operator "+", onFirstLine .identifier "x",
    onFirstLine .separator ")"]

/-- The tree of `x * -2 != (2 + x)`; its marks are of no account. -/
def unequalTree : Expr :=
  let x := .variable ⟨0, 0⟩ .number 0
  .not ⟨0, 0⟩ .bool (.binary ⟨0, 0⟩ .bool .equal
    (.binary ⟨0, 0⟩ .number .mul x (.literal ⟨0, 0⟩ .number ("-" ++ "2")))
    (.binary ⟨0, 0⟩ .number .add (.literal ⟨0, 0⟩ .number "2") x))

theorem unequalTree_written (rest : List Token) :
    unequalTree.Written (besideNumber rest).scopes 0 unequalTokens := by
  have x : Written (besideNumber rest).scopes 0 (.variable ⟨0, 0⟩ .number 0)
      [onFirstLine .identifier "x"] :=
    @Written.variable _ _ _ 0 _ rfl rfl rfl
  have minusTwo : Written (besideNumber rest).scopes 0 (.literal ⟨0, 0⟩ .number ("-" ++ "2"))
      [onFirstLine .operator "-", onFirstLine .number "2"] :=
    .negative rfl (.inl rfl) rfl
  have two : Written (besideNumber rest).scopes 0 (.literal ⟨0, 0⟩ .number "2")
      [onFirstLine .number "2"] :=
    .literal rfl
  have product : Written (besideNumber rest).scopes 0 (.binary ⟨0, 0⟩ ..)
      ([onFirstLine .identifier "x"] ++ onFirstLine .operator "*" :: _) :=
    .binary rfl rfl (by decide) x minusTwo rfl rfl
  have sum : Written (besideNumber rest).scopes 0 (.binary ⟨0, 0⟩ ..)
      ([onFirstLine .number "2"] ++ onFirstLine .operator "+" :: _) :=
    .binary rfl rfl (by decide) two x rfl rfl
  exact .unequal rfl product sum
    ⟨onFirstLine .separator "(", onFirstLine .separator ")", rfl, rfl, rfl⟩ rfl

theorem tree_read_back_unequal :
    unequalTree.Written (besideNumber []).scopes 0 unequalTokens ∧
      ∃ expr nodes, expr.Alike unequalTree ∧
        (expression bareContext 0).run
            (besideNumber (unequalTokens ++ [onFirstLine .separator ";"])) =
          .ok (expr, { besideNumber [onFirstLine .separator ";"] with nodes }) :=
  ⟨unequalTree_written [], tree_read_back (unequalTree_written _) rfl rfl⟩

end Covenant.Reading
