import Covenant.Proofs.OperatorTrees
import Covenant.Proofs.ReadingExpressions

/-!
# Signs in chains

A sign in front of an operand should change that operand alone, as it does in
front of a number.  `Chain` describes chains that are read so.  In front of any
other operand a sign takes in all that follows, so the description is right
where nothing follows; and since a group at the start of an expression asks for
an operator, it is never right for a group.
-/

namespace Covenant.Reading

variable {Outcome Next : Type} {context : Context} {scope : ScopeId} {before : State}

/-! ## Nested expressions -/

/-- Where the first reader does not stall, the second one does the same. -/
def Refines (first second : Reading Outcome) : Prop :=
  ∀ before, first.run before = .error .stalled ∨ first.run before = second.run before

namespace Refines

theorem refl (code : Reading Outcome) : Refines code code :=
  fun _ => .inr rfl

theorem bind {first second : Reading Outcome} {one two : Outcome → Reading Next}
    (refines : Refines first second) (further : ∀ outcome, Refines (one outcome) (two outcome)) :
    Refines (first >>= one) (second >>= two) := by
  intro before
  rw [StateT.run_bind, StateT.run_bind]
  rcases refines before with stalled | same
  · rw [stalled]
    exact .inl rfl
  · rw [← same]
    cases first.run before with
    | error failure => exact .inr rfl
    | ok pair => exact further pair.1 pair.2

/-- The readers differ only in what they do behind the same step. -/
theorem behind {code : Reading Outcome} {one two : Outcome → Reading Next}
    (further : ∀ outcome, Refines (one outcome) (two outcome)) :
    Refines (code >>= one) (code >>= two) :=
  bind (refl code) further

/-- A smaller weight stalls more often. -/
theorem below {less more : Nat} (le : less ≤ more) (nested : Reading Outcome) :
    Refines (Reading.below less nested) (Reading.below more nested) := by
  intro before
  rw [below_run, below_run]
  split
  · rw [if_pos (by omega)]
    exact .inr rfl
  · exact .inl rfl

section Nested

variable {first second : Reading Expr}

theorem commaSeparated {first second : Reading Outcome} (refines : Refines first second) :
    Refines (Reading.commaSeparated first) (Reading.commaSeparated second) := by
  have items (bound : Nat) :
      Refines (commaSeparatedWithin first bound) (commaSeparatedWithin second bound) := by
    induction bound with
    | zero => exact refl _
    | succ bound ih =>
      refine bind (behind fun before => bind refines fun _ => refl _) fun item => ?_
      refine behind fun closed => ?_
      split
      · exact refl _
      · exact behind fun _ => bind ih fun _ => refl _
  refine behind fun closed => ?_
  split
  · exact refl _
  · exact behind fun before => items _

variable (refines : Refines first second)
include refines

theorem call (context : Context) (method : Method) (implicit : List Expr) (line : Nat) :
    Refines (Reading.call context first method implicit line)
      (Reading.call context second method implicit line) :=
  behind fun _ => behind fun _ => bind refines.commaSeparated fun _ => refl _

theorem selection (context : Context) (scope : ScopeId) (target : Token) :
    Refines (Reading.selection context scope first target)
      (Reading.selection context scope second target) := by
  refine behind fun member => behind fun tree => ?_
  split
  · unfold variableMember
    split
    · exact behind fun _ => behind fun _ => behind fun _ => refines.call _ _ _ _
    · refine behind fun called => ?_
      split
      · exact refl _
      · exact behind fun _ => behind fun _ => behind fun _ => behind fun _ => refines.call _ _ _ _
  · unfold namedMember
    split
    · exact refl _
    · split
      · exact behind fun _ => refines.call _ _ _ _
      · exact refl _

theorem named (context : Context) (scope : ScopeId) (token : Token) :
    Refines (Reading.named context scope first token)
      (Reading.named context scope second token) := by
  refine behind fun called => ?_
  split
  · exact behind fun _ => refines.call _ _ _ _
  · refine behind fun selected => ?_
    split
    · exact refines.selection _ _ _
    · refine behind fun indexed => ?_
      split
      · exact behind fun _ => behind fun _ => behind fun _ => bind refines fun _ => refl _
      · exact refl _

/-- An operand is read the same wherever its nested expressions are. -/
theorem operand (context : Context) (scope : ScopeId) (leading : Bool) :
    Refines (Reading.operand context scope first leading)
      (Reading.operand context scope second leading) := by
  refine behind fun token => ?_
  split
  · split
    · exact bind refines fun _ => refl _
    · refine behind fun next => ?_
      split
      · exact refl _
      · exact bind refines fun _ => refl _
    · exact refl _
  · split
    · exact bind refines fun _ => refl _
    · exact refl _
  · split
    · exact behind fun _ => behind fun _ => behind fun _ => refines.call _ _ _ _
    · exact refl _
  · exact refl _
  · exact refines.named _ _ _
  · exact refl _

end Nested

end Refines

/-- What is read inside a light expression is read so inside a heavier one. -/
theorem operandBelow_run {less more : Nat} {leading : Bool} {expr : Expr} {after : State}
    (le : less ≤ more)
    (read : (operandBelow context scope less leading).run before = .ok (expr, after)) :
    (operandBelow context scope more leading).run before = .ok (expr, after) := by
  rcases (Refines.below le (expression context scope)).operand context scope leading before with
    stalled | same
  · rw [read] at stalled
    cases stalled
  · rw [← same, read]

/-! ## Signs -/

/-- The token is a sign in front of an operand. -/
def isSign (token : Token) : Bool :=
  token.is .operator "-" || token.is .operator "!"

/-- The operand has a type that the sign can stand in front of. -/
def takesSign (sign : Token) (operand : Expr) : Bool :=
  if sign.value = "!" then operand.ty = .bool else hasOpposite operand.ty

/-- An operand with a sign in front. -/
def withSign (sign : Token) (mark : Mark) (operand : Expr) : Expr :=
  if sign.value = "!" then .not mark .bool operand else .negate mark operand.ty operand

/-- A minus becomes a part of the number behind it. -/
def JoinsNumber (sign next : Token) : Prop :=
  sign.is .operator "-" = true ∧ (next.kind = .number ∨ next.kind = .decimal)

section Operand

variable {nested : Reading Expr} {leading : Bool} {sign next : Token} {rest : List Token}
  {inner : Expr} {after : State}

/-- Any other operand is read as a nested expression when a sign stands in front. -/
theorem operand_signed (spelled : before.rest = sign :: next :: rest) (signs : isSign sign = true)
    (other : ¬ JoinsNumber sign next)
    (read : nested.run { before with rest := next :: rest } = .ok (inner, after))
    (takes : takesSign sign inner = true) :
    (operand context scope nested leading).run before =
      .ok (withSign sign ⟨after.nodes + 1, sign.line⟩ inner,
        { after with nodes := after.nodes + 1 }) := by
  rcases sign with ⟨kind, value, start, stop⟩
  rw [operand, bind_of_ok (fetch_run spelled)]
  simp only [isSign, Token.is, Bool.or_eq_true, Bool.and_eq_true, beq_iff_eq] at signs
  rcases signs with ⟨rfl, rfl⟩ | ⟨rfl, rfl⟩
  · have plain : ¬ (next.kind = .number ∨ next.kind = .decimal) :=
      fun numeric => other ⟨rfl, numeric⟩
    change (opposite nested start.line).run _ = _
    rw [opposite, StateT.run_bind]
    change (if next.kind = .number ∨ next.kind = .decimal then _ else _ : Reading Expr).run _ = _
    rw [if_neg plain, bind_of_ok read, if_pos (by simpa [takesSign] using takes)]
    rfl
  · change (negation nested start.line).run _ = _
    rw [negation, bind_of_ok read, if_pos (by simpa [takesSign] using takes)]
    rfl

/-- Only a group needs to know that it starts an expression. -/
theorem operand_leading (spelled : before.rest = next :: rest)
    (other : next.is .separator "(" = false) :
    (operand context scope nested true).run before =
      (operand context scope nested false).run before := by
  rw [operand, operand, bind_of_ok (fetch_run spelled), bind_of_ok (fetch_run spelled)]
  congr 1
  split
  · rfl
  · split
    · simp_all [Token.is]
    · rfl
  all_goals rfl

end Operand

/-! ## Chains -/

/--
One operand, with or without a sign in front.  The sign changes this operand
alone.  `mayStand` says where a sign may stand in front of an operand other than
a number, by the first token of the operand and the state behind it.
-/
inductive Single (context : Context) (scope : ScopeId) (mayStand : Token → State → Prop) :
    Bool → State → Expr → State → Prop
  | plain {leading : Bool} {before after : State} {expr : Expr}
      (unsigned : ∀ token ∈ before.rest.head?, isSign token = false)
      (read : (operandBelow context scope before.weight leading).run before = .ok (expr, after)) :
      Single context scope mayStand leading before expr after
  | number {leading : Bool} {before after : State} {sign next : Token} {rest : List Token}
      {expr : Expr} (spelled : before.rest = sign :: next :: rest) (joins : JoinsNumber sign next)
      (read : (literal "-" next).run { before with rest } = .ok (expr, after)) :
      Single context scope mayStand leading before expr after
  | signed {leading : Bool} {before start after : State} {sign next : Token} {rest : List Token}
      {expr : Expr} (spelled : before.rest = sign :: next :: rest) (signs : isSign sign = true)
      (other : ¬ JoinsNumber sign next) (unsigned : isSign next = false)
      (behind : start = { before with rest := next :: rest })
      (read : (operandBelow context scope start.weight false).run start = .ok (expr, after))
      (takes : takesSign sign expr = true) (stands : mayStand next after) :
      Single context scope mayStand leading before
        (withSign sign ⟨after.nodes + 1, sign.line⟩ expr) { after with nodes := after.nodes + 1 }

/-- Operands are joined to what stands on their left, one after the other. -/
inductive Links (context : Context) (scope : ScopeId) (mayStand : Token → State → Prop) :
    Expr → State → Expr → State → Prop
  | done {left : Expr} {before : State} (ended : before.operator? = none) :
      Links context scope mayStand left before left before
  | link {left right joined expr : Expr} {before middle between after : State} {token : Token}
      {rest : List Token} (spelled : before.rest = token :: rest)
      (operates : before.operator? ≠ none)
      (operand : Single context scope mayStand false { before with rest } right middle)
      (joins : (binary token.value left right token.line).run middle = .ok (joined, between))
      (further : Links context scope mayStand joined between expr after) :
      Links context scope mayStand left before expr after

/-- A chain of operands with operators between them, joined from the left. -/
def Chain (context : Context) (scope : ScopeId) (mayStand : Token → State → Prop)
    (before : State) (expr : Expr) (after : State) : Prop :=
  ∃ first middle, Single context scope mayStand true before first middle ∧
    Links context scope mayStand first middle expr after

/-- Nothing follows the operand behind a sign, and it is not a group. -/
def StandsLast (next : Token) (after : State) : Prop :=
  next.is .separator "(" = false ∧ after.operator? = none

section Reading

variable {leading : Bool} {expr : Expr} {after : State}

theorem weight_lt {token : Token} {rest : List Token} (spelled : before.rest = token :: rest) :
    tokensWeight rest < before.weight := by
  rw [State.weight, spelled]
  exact tokensWeight_lt token rest

/-- An operand is read as it should be if a sign stands in front of the last one only. -/
theorem Single.read {weight : Nat}
    (single : Single context scope StandsLast leading before expr after)
    (light : before.weight ≤ weight) :
    (operandBelow context scope weight leading).run before = .ok (expr, after) := by
  cases single with
  | plain unsigned read => exact operandBelow_run light read
  | number spelled joins read => rw [operand_minus spelled joins.1 joins.2, read]
  | @signed start after sign next rest inner spelled signs other unsigned behind read takes
      stands =>
    have rests : start.rest = next :: rest := by rw [behind]
    have less : start.weight < before.weight := by
      rw [behind]
      exact weight_lt spelled
    refine operand_signed spelled signs other ?_ takes
    rw [← behind, below_run, if_pos (Nat.lt_of_lt_of_le less light), expression_run,
      bind_of_ok ((operand_leading rests stands.1).trans read), chain_done stands.2]

variable {mayStand : Token → State → Prop}

/-- The state is sound on some ground, and any line is among the lines of the ground. -/
theorem State.exists_sound (state : State) (recorded : state.scopes.Recorded) (line : Nat) :
    ∃ ground, state.Sound ground ∧ Shown ground line := by
  refine ⟨⟨⟨.invalid, "", ⟨0, line, 0⟩, 0⟩ :: ⟨.invalid, "", ⟨0, state.lastLine, 0⟩, 0⟩ ::
    state.rest, state.scopes⟩, ⟨?_, .of_suffix ⟨[_, _], rfl⟩, ?_, ?_, recorded, .start,
    fun _ => .inl⟩,
    ?_⟩
  · exact fun formed token listed => formed token (by simp [listed])
  · exact fun token listed => .inr ⟨token, by simp [listed], rfl⟩
  · exact .inr ⟨_, List.mem_cons_of_mem _ List.mem_cons_self, rfl⟩
  · exact .inr ⟨_, List.mem_cons_self, rfl⟩

theorem operandBelow_moves (furnished : context.Furnished) (recorded : before.scopes.Recorded)
    (read : (operandBelow context scope before.weight leading).run before = .ok (expr, after)) :
    after.weight < before.weight ∧ after.scopes = before.scopes := by
  rcases before.exists_sound recorded 0 with ⟨ground, sound, -⟩
  have reads : Reads ground before.weight before.place true
      (operandBelow context scope before.weight leading) fun expr =>
        Makes ground context [] before.place [expr] :=
    operand_makes furnished scope leading fun less lighter place same =>
      .below lighter (expression_makes furnished scope)
  rcases (reads before rfl (Nat.le_refl _) sound).2 expr after read with ⟨moves, makes⟩
  exact ⟨moves.lt, makes.same⟩

/-- An operand uses up tokens and leaves the scopes as they are. -/
theorem Single.moves (furnished : context.Furnished) (recorded : before.scopes.Recorded)
    (single : Single context scope mayStand leading before expr after) :
    after.weight < before.weight ∧ after.scopes = before.scopes := by
  cases single with
  | plain unsigned read => exact operandBelow_moves furnished recorded read
  | number spelled joins read =>
    obtain rfl := literal_ok read
    exact ⟨Nat.lt_trans (tokensWeight_lt _ _) (weight_lt spelled), rfl⟩
  | @signed start after sign next rest inner spelled signs other unsigned behind read takes
      stands =>
    have still : start.scopes = before.scopes := by rw [behind]
    have lighter : start.weight < before.weight := by
      rw [behind]
      exact weight_lt spelled
    rcases operandBelow_moves furnished (still ▸ recorded) read with ⟨less, same⟩
    exact ⟨Nat.lt_trans less lighter, same.trans still⟩

/-- Every link uses up tokens, so the chain goes on to its end. -/
theorem Links.read (furnished : context.Furnished) {left : Expr} {weight : Nat}
    (links : Links context scope StandsLast left before expr after)
    (recorded : before.scopes.Recorded) (light : before.weight ≤ weight) :
    (chain (operandBelow context scope weight false) left).run before = .ok (expr, after) := by
  induction links with
  | done ended => exact chain_done ended
  | @link left right joined expr before middle between after token rest spelled operates operand
      joins further ih =>
    have still : (State.scopes { before with rest }).Recorded := recorded
    rcases operand.moves furnished still with ⟨less, same⟩
    have lighter : tokensWeight rest < before.weight := weight_lt spelled
    rcases middle.exists_sound (same ▸ recorded) token.line with ⟨ground, sound, shown⟩
    have made : Reads ground middle.weight middle.place false
        (binary token.value left right token.line) _ :=
      binary_makes context token.value left right shown
    rcases (made middle rfl (Nat.le_refl _) sound).2 joined between joins with
      ⟨moves, -⟩
    have lessBetween : between.weight < before.weight :=
      Nat.lt_of_le_of_lt moves.le (Nat.lt_trans less lighter)
    have linked : (Reading.link (operandBelow context scope weight false) left).run before =
        .ok (joined, between) := by
      rw [Reading.link, bind_of_ok (fetch_run spelled),
        bind_of_ok (operand.read (Nat.le_trans (Nat.le_of_lt lighter) light)), joins]
    rw [chain_link operates linked lessBetween]
    exact ih moves.sound.recorded (Nat.le_trans (Nat.le_of_lt lessBetween) light)

/-- No operator follows an expression. -/
theorem chain_ended {right : Reading Expr} {left : Expr}
    (read : (chain right left).run before = .ok (expr, after)) : after.operator? = none := by
  induction weight : before.weight using Nat.strong_induction_on generalizing before left with
  | h weight ih =>
    rw [chain_run] at read
    split at read
    next ended =>
      cases read
      exact ended
    next =>
      cases linked : (link right left).run before with
      | error failure =>
        rw [linked] at read
        cases read
      | ok pair =>
        rw [linked] at read
        change (if pair.2.weight < before.weight then _ else _ : Except _ _) = _ at read
        split at read
        next less => exact ih _ (weight ▸ less) read rfl
        next => cases read

theorem expression_ended (read : (expression context scope).run before = .ok (expr, after)) :
    after.operator? = none := by
  rw [expression_run] at read
  rcases ok_of_bind read with ⟨first, between, -, chained⟩
  exact chain_ended chained

/--
A chain is read as the operands joined from the left, if no sign stands in front
of an operand that more follows, or in front of a group; a sign in front of a
number may stand anywhere.  A sign at the start of an expression, other than a
minus of a number, takes in the whole expression behind it.
-/
theorem chain_folds (furnished : context.Furnished) (sane : before.scopes.Sane) :
    (∀ expr after, Chain context scope StandsLast before expr after →
      (expression context scope).run before = .ok (expr, after)) ∧
    ∀ sign next rest inner after, before.rest = sign :: next :: rest → isSign sign = true →
      ¬ JoinsNumber sign next →
      (expression context scope).run { before with rest := next :: rest } = .ok (inner, after) →
      takesSign sign inner = true →
      (expression context scope).run before =
        .ok (withSign sign ⟨after.nodes + 1, sign.line⟩ inner,
          { after with nodes := after.nodes + 1 }) := by
  constructor
  · rintro expr after ⟨first, middle, single, links⟩
    rcases single.moves furnished sane.recorded with ⟨less, same⟩
    rw [expression_run, bind_of_ok (single.read (Nat.le_refl _))]
    exact links.read furnished (same ▸ sane.recorded) (Nat.le_of_lt less)
  · intro sign next rest inner after spelled signs other read takes
    have less : State.weight { before with rest := next :: rest } < before.weight :=
      weight_lt spelled
    have nested : (below before.weight (expression context scope)).run
        { before with rest := next :: rest } = .ok (inner, after) := by
      rw [below_run, if_pos less, read]
    have ended : after.operator? = none := expression_ended read
    rw [expression_run, bind_of_ok (operand_signed spelled signs other nested takes)]
    exact chain_done ended

/-- The tokens of `x + -5 - -x;`. -/
def signedTokens : List Token :=
  [onFirstLine .identifier "x", onFirstLine .operator "+", onFirstLine .operator "-",
    onFirstLine .number "5", onFirstLine .operator "-", onFirstLine .operator "-",
    onFirstLine .identifier "x", onFirstLine .separator ";"]

theorem bareContext_furnished : bareContext.Furnished :=
  ⟨by simp [bareContext], by simp [bareContext, Library.Sufficient]⟩

theorem besideNumber_sane (rest : List Token) : (besideNumber rest).scopes.Sane := by
  have opened := (.start : ScopeTree.Reached (fun _ _ => True) {} {}).step (.root "test")
    ⟨nofun, trivial⟩
  have reached := opened.step (.declare 0 "x" .number .local none 1)
    ⟨.of_scope rfl (by decide), trivial⟩
  exact (ScopeTree.Reached.orderly reached).sane
    (List.forall_mem_singleton.mpr (Variable.proper_of_plain rfl nofun))

theorem chain_folds_signed :
    bareContext.Furnished ∧ (besideNumber signedTokens).scopes.Sane ∧
      ∃ expr after, Chain bareContext 0 StandsLast (besideNumber signedTokens) expr after ∧
        (expression bareContext 0).run (besideNumber signedTokens) = .ok (expr, after) := by
  have chained : Chain bareContext 0 StandsLast (besideNumber signedTokens) _ _ :=
    ⟨_, _, .plain (by decide) rfl, .link rfl (by decide) (.number rfl ⟨rfl, .inl rfl⟩ rfl) rfl
      (.link rfl (by decide) (.signed rfl rfl (by simp [JoinsNumber, onFirstLine]) rfl rfl rfl rfl
        ⟨rfl, rfl⟩) rfl (.done rfl))⟩
  exact ⟨bareContext_furnished, besideNumber_sane _, _, _, chained,
    (chain_folds bareContext_furnished (besideNumber_sane _)).1 _ _ chained⟩

/-- The tokens of `-x + 3;`. -/
def negatedTokens : List Token :=
  [onFirstLine .operator "-", onFirstLine .identifier "x", onFirstLine .operator "+",
    onFirstLine .number "3", onFirstLine .separator ";"]

/-- In `-x + 3` the sign takes in the sum. -/
theorem sign_takes_sum : ∃ expr after,
    Chain bareContext 0 (fun _ _ => True) (besideNumber negatedTokens) expr after ∧
      (expression bareContext 0).run (besideNumber negatedTokens) ≠ .ok (expr, after) := by
  have chained : Chain bareContext 0 (fun _ _ => True) (besideNumber negatedTokens) _ _ :=
    ⟨_, _, .signed rfl rfl (by simp [JoinsNumber, onFirstLine]) rfl rfl rfl rfl trivial,
      .link rfl (by decide) (.plain (by decide) rfl) rfl (.done rfl)⟩
  refine ⟨_, _, chained, ?_⟩
  intro same
  cases same

end Reading

end Covenant.Reading
