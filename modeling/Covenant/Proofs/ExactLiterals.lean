import Covenant.Proofs.TokenForms
import Covenant.Reading.Expression
import Mathlib.Data.List.Induction
import Mathlib.Data.Rat.Defs
import Mathlib.Tactic.FieldSimp
import Mathlib.Tactic.Ring

/-!
# Literals and the numbers they stand for

A number or decimal in the source is written for a rational number.  Its
literal is a text of digits without a point, and its type says how many of the
digits are places.  Reading the literal, giving it more places where a type asks
for them, and fitting it to a decimal beside it all keep the rational number.
-/

namespace Covenant

variable {token : Token} {value : ℚ} {places : Nat} {expr : Expr} {digits : List Char}
  {before after : State} {op : BinaryOp}

namespace Text

/-! ## Digits -/

instance (text : List Char) : Decidable (IsNumeral text) :=
  inferInstanceAs (Decidable (_ ∧ _))

theorem IsNumeral.append {first second : List Char} (one : IsNumeral first)
    (two : ∀ character ∈ second, isDigit character = true) : IsNumeral (first ++ second) := by
  refine ⟨by simp [one.1], fun character listed => ?_⟩
  rcases List.mem_append.mp listed with early | late
  · exact one.2 character early
  · exact two character late

theorem digitsValue_append (first second : List Char) :
    digitsValue (first ++ second) =
      digitsValue first * 10 ^ second.length + digitsValue second := by
  induction second using List.reverseRecOn with
  | nil => simp [digitsValue]
  | append_singleton second digit ih =>
    have step (digits : List Char) : digitsValue (digits ++ [digit]) =
        digitsValue digits * 10 + (digit.toNat - '0'.toNat) := by
      simp [digitsValue]
    rw [← List.append_assoc, step, step, ih, List.length_append, List.length_singleton]
    ring

theorem digitsValue_zeros (count : Nat) : digitsValue (List.replicate count '0') = 0 := by
  induction count with
  | zero => rfl
  | succ count ih => rw [List.replicate_succ', digitsValue_append, ih]; rfl

/-- Zeros in front are of no account. -/
theorem digitsValue_wholeDigits (digits : List Char) :
    digitsValue (wholeDigits digits) = digitsValue digits := by
  have dropped : digitsValue (digits.dropWhile (· == '0')) = digitsValue digits := by
    induction digits with
    | nil => rfl
    | cons first rest ih =>
      rw [List.dropWhile_cons]
      split
      · rename_i zero
        obtain rfl : first = '0' := by simpa using zero
        rw [ih]
        simp [digitsValue]
      · rfl
  unfold wholeDigits
  split
  · rename_i none
    rw [← dropped, none]
    rfl
  · exact dropped

theorem isNumeral_wholeDigits (numeral : IsNumeral digits) : IsNumeral (wholeDigits digits) := by
  unfold wholeDigits
  split
  · exact ⟨List.cons_ne_nil _ _, List.forall_mem_singleton.mpr rfl⟩
  · rename_i some
    exact ⟨some, fun character listed =>
      numeral.2 character ((List.dropWhile_suffix _).subset listed)⟩

/-- The whole number that a text stands for, which may start with a minus. -/
def integer? : List Char → Option ℤ
  | '-' :: digits => if IsNumeral digits then some (-digitsValue digits) else none
  | digits => if IsNumeral digits then some (digitsValue digits) else none

theorem integer?_numeral (numeral : IsNumeral digits) :
    integer? digits = some (digitsValue digits : ℤ) := by
  unfold integer?
  split
  · exact absurd (numeral.2 '-' List.mem_cons_self) (by decide)
  · rw [if_pos numeral]

theorem integer?_minus (numeral : IsNumeral digits) :
    integer? ('-' :: digits) = some (-digitsValue digits : ℤ) :=
  if_pos numeral

/-- Zeros behind a whole number multiply it. -/
theorem integer?_zeros {text : List Char} {number : ℤ} (stands : integer? text = some number)
    (count : Nat) :
    integer? (text ++ List.replicate count '0') = some (number * 10 ^ count) := by
  have zeros : ∀ character ∈ List.replicate count '0', isDigit character = true := by
    intro character listed
    rw [List.eq_of_mem_replicate listed]
    rfl
  have value (digits : List Char) : (digitsValue (digits ++ List.replicate count '0') : ℤ) =
      digitsValue digits * 10 ^ count := by
    rw [digitsValue_append, digitsValue_zeros]
    simp
  unfold integer? at stands
  split at stands
  · rename_i digits
    split at stands <;> cases stands
    rename_i numeral
    rw [List.cons_append, integer?_minus (numeral.append zeros), value, Int.neg_mul]
  · split at stands <;> cases stands
    rename_i numeral
    rw [integer?_numeral (numeral.append zeros), value]

end Text

/-! ## Numbers as they are written -/

/-- The token is written for a rational number with some places. -/
inductive Token.Writes (token : Token) : ℚ → Nat → Prop
  | number (isNumber : token.kind = .number) (numeral : Text.IsNumeral token.value.toList) :
      Writes token (Text.digitsValue token.value.toList) 0
  | decimal {whole fraction : List Char} (isDecimal : token.kind = .decimal)
      (spelled : token.value.toList = whole ++ '.' :: fraction)
      (wholeNumeral : Text.IsNumeral whole) (fractionNumeral : Text.IsNumeral fraction) :
      Writes token (Text.digitsValue whole + Text.digitsValue fraction / 10 ^ fraction.length)
        fraction.length

/-- Every number and every decimal of a source is written for a rational number. -/
theorem Token.exists_writes {source : String} (listed : token ∈ scan source)
    (numeric : token.kind = .number ∨ token.kind = .decimal) :
    ∃ value places, token.Writes value places := by
  have forms := scan_forms listed
  rcases numeric with isNumber | isDecimal
  · rw [isNumber] at forms
    exact ⟨_, _, .number isNumber forms⟩
  · rw [isDecimal] at forms
    rcases forms with ⟨whole, fraction, spelled, wholeNumeral, fractionNumeral⟩
    exact ⟨_, _, .decimal isDecimal spelled wholeNumeral fractionNumeral⟩

/-- How many digits of a literal of the type are places. -/
def Ty.scale? : Ty → Option Nat
  | .number => some 0
  | .decimal places => some places
  | _ => Option.none

/-- The expression is a literal that stands for the rational number. -/
def Expr.Denotes (expr : Expr) (value : ℚ) : Prop :=
  ∃ mark ty text places number, expr = .literal mark ty text ∧ ty.scale? = some places ∧
    Text.integer? text.toList = some number ∧ value = number / 10 ^ places

theorem Expr.Denotes.scale (denotes : expr.Denotes value) :
    ∃ places, expr.ty.scale? = some places := by
  rcases denotes with ⟨mark, ty, text, places, number, rfl, scaled, -⟩
  exact ⟨places, scaled⟩

namespace Reading

/-- The text and the type of a literal token. -/
def literalOf? (token : Token) : Option (String × Ty) :=
  match token.kind with
  | .decimal =>
    match scaledDecimal? token.value with
    | some (text, places) =>
      if few : 1 ≤ places ∧ places ≤ Ty.maxPlaces then some (text, .decimal ⟨places, few⟩) else none
    | none => none
  | kind => (plainLiteralType? kind).map fun ty => (token.value, ty)

theorem ok_of_bind {Outcome Next : Type} {code : Reading Outcome} {next : Outcome → Reading Next}
    {result : Next} (ran : (code >>= next).run before = .ok (result, after)) :
    ∃ outcome between, code.run before = .ok (outcome, between) ∧
      (next outcome).run between = .ok (result, after) := by
  rw [StateT.run_bind] at ran
  cases first : code.run before with
  | error failure =>
    rw [first] at ran
    cases ran
  | ok pair =>
    rw [first] at ran
    exact ⟨pair.1, pair.2, rfl, ran⟩

theorem bind_of_ok {Outcome Next : Type} {code : Reading Outcome} {outcome : Outcome}
    {between : State} (ran : code.run before = .ok (outcome, between))
    (next : Outcome → Reading Next) : (code >>= next).run before = (next outcome).run between := by
  rw [StateT.run_bind, ran]
  rfl

theorem literalValue_run (token : Token) (before : State) :
    (∃ value, literalOf? token = some value ∧
      (literalValue token).run before = .ok (value, before)) ∨
    literalOf? token = none ∧
      ∃ error, (literalValue token).run before = .error (.error error) := by
  unfold literalValue literalOf?
  cases token.kind
  case decimal =>
    cases scaledDecimal? token.value with
    | none => exact .inr ⟨rfl, _, rfl⟩
    | some scaled =>
      by_cases few : scaled.2 ≤ Ty.maxPlaces
      · by_cases some : 1 ≤ scaled.2
        · refine .inl ⟨_, dif_pos ⟨some, few⟩, ?_⟩
          simp only [if_pos few, Ty.ofPlaces, dif_pos (And.intro some few)]
          rfl
        · refine .inr ⟨dif_neg fun range => some range.1,
            .internal 0 (.precisionOutOfRange scaled.2), ?_⟩
          simp only [if_pos few, Ty.ofPlaces, dif_neg fun range : _ ∧ _ => some range.1]
          rfl
      · refine .inr ⟨dif_neg fun range => few range.2,
          .semantic token.line (.invalidDecimal token.value), ?_⟩
        simp only [if_neg few]
        rfl
  case string | number | bool | address | hash | bytes => exact .inl ⟨_, rfl, rfl⟩
  all_goals exact .inr ⟨rfl, _, rfl⟩

/-- The literal that is made of a token. -/
theorem literal_run {text : String} {ty : Ty} (valued : literalOf? token = some (text, ty))
    (sign : String) (before : State) :
    (literal sign token).run before =
      .ok (.literal ⟨before.nodes + 1, token.line⟩ ty (sign ++ text),
        { before with nodes := before.nodes + 1 }) := by
  rcases literalValue_run token before with ⟨value, same, run⟩ | ⟨none, -⟩
  · rw [valued] at same
    cases same
    rw [literal, StateT.run_bind, run]
    rfl
  · rw [valued] at none
    cases none

/-- A token without a value is refused. -/
theorem literal_refused (valueless : literalOf? token = none) (sign : String) (before : State) :
    ∃ error, (literal sign token).run before = .error (.error error) := by
  rcases literalValue_run token before with ⟨value, same, -⟩ | ⟨-, error, run⟩
  · rw [valueless] at same
    cases same
  · refine ⟨error, ?_⟩
    rw [literal, StateT.run_bind, run]
    rfl

/-- A literal is a node, and nothing else happens. -/
theorem literal_ok {sign : String} (read : (literal sign token).run before = .ok (expr, after)) :
    after = { before with nodes := before.nodes + 1 } := by
  cases valued : literalOf? token with
  | some value =>
    rw [literal_run valued sign before] at read
    cases read
    rfl
  | none =>
    rcases literal_refused valued sign before with ⟨error, refused⟩
    rw [refused] at read
    cases read

/-- The value of a numeral with few places is the number it is written for. -/
theorem literalOf?_writes (writes : token.Writes value places) (few : places ≤ Ty.maxPlaces) :
    ∃ text ty, literalOf? token = some (text, ty) ∧ ty.scale? = some places ∧
      Text.IsNumeral text.toList ∧ value = Text.digitsValue text.toList / 10 ^ places := by
  cases writes with
  | number isNumber numeral =>
    refine ⟨token.value, .number, ?_, rfl, numeral, by simp⟩
    simp [literalOf?, isNumber, plainLiteralType?]
  | @decimal whole fraction isDecimal spelled wholeNumeral fractionNumeral =>
    have range : 1 ≤ fraction.length ∧ fraction.length ≤ Ty.maxPlaces :=
      ⟨List.length_pos_of_ne_nil fractionNumeral.1, few⟩
    refine ⟨String.ofList (wholeDigits (whole ++ fraction)), .decimal ⟨_, range⟩, ?_, rfl, ?_, ?_⟩
    · simp [literalOf?, isDecimal, scaledDecimal?_spelled spelled wholeNumeral, range]
    · rw [String.toList_ofList]
      exact Text.isNumeral_wholeDigits (wholeNumeral.append fractionNumeral.2)
    · rw [String.toList_ofList, Text.digitsValue_wholeDigits, Text.digitsValue_append]
      push_cast
      field_simp

theorem literalOf?_many (writes : token.Writes value places) (many : Ty.maxPlaces < places) :
    literalOf? token = none := by
  cases writes with
  | number => exact absurd many (Nat.not_lt_zero _)
  | decimal isDecimal spelled wholeNumeral fractionNumeral =>
    simp [literalOf?, isDecimal, scaledDecimal?_spelled spelled wholeNumeral, many]

/-- A numeral is written with or without a minus in front. -/
def signText (negative : Bool) : String :=
  if negative then "-" else ""

/-- The literal of a numeral stands for the number, with its sign. -/
theorem literal_denotes (writes : token.Writes value places) (few : places ≤ Ty.maxPlaces)
    (negative : Bool) (before : State) :
    ∃ expr, (literal (signText negative) token).run before =
        .ok (expr, { before with nodes := before.nodes + 1 }) ∧
      expr.ty.scale? = some places ∧ expr.Denotes (if negative then -value else value) := by
  rcases literalOf?_writes writes few with ⟨text, ty, valued, scaled, numeral, rfl⟩
  refine ⟨_, literal_run valued _ before, scaled, ?_⟩
  cases negative with
  | false =>
    refine ⟨_, _, _, _, _, rfl, scaled, ?_, rfl⟩
    rw [signText, String.toList_append]
    exact Text.integer?_numeral numeral
  | true =>
    refine ⟨_, _, _, _, -Text.digitsValue text.toList, rfl, scaled, ?_, ?_⟩
    · rw [signText, String.toList_append]
      exact Text.integer?_minus numeral
    · push_cast
      exact (neg_div _ _).symm

end Reading

/-! ## More places -/

theorem Expr.rescaledText?_literal (wanted : Nat) (mark : Mark) (ty : Ty) (text : String) :
    (Expr.literal mark ty text).rescaledText? wanted =
      ty.scale?.bind fun places => rescaled? text places wanted := by
  cases ty <;> rfl

/-- Zeros behind a literal are places, so it stands for the same number. -/
theorem Expr.Denotes.rescaled {wanted : Ty.Places} (denotes : expr.Denotes value)
    (scaled : expr.ty.scale? = some places) (more : places ≤ wanted.val) :
    ∃ text, expr.rescaledText? wanted = some text ∧
      ∀ mark, (Expr.literal mark (.decimal wanted) text).Denotes value := by
  rcases denotes with ⟨mark, ty, text, own, number, rfl, ownScale, stands, rfl⟩
  obtain rfl : own = places := Option.some.inj (ownScale.symm.trans scaled)
  refine ⟨text ++ String.ofList (List.replicate (wanted.val - own) '0'), ?_, fun mark => ?_⟩
  · rw [rescaledText?_literal, ownScale, Option.bind_some, rescaled?, if_pos more]
  · refine ⟨mark, _, _, wanted, number * 10 ^ (wanted.val - own), rfl, rfl, ?_, ?_⟩
    · rw [String.toList_append, String.toList_ofList]
      exact Text.integer?_zeros stands _
    · have split : (10 : ℚ) ^ wanted.val = 10 ^ (wanted.val - own) * 10 ^ own := by
        rw [← pow_add, Nat.sub_add_cancel more]
      rw [split]
      push_cast
      field_simp

theorem Expr.rescaledText?_none {wanted : Nat} (scaled : expr.ty.scale? = some places)
    (less : wanted < places) : expr.rescaledText? wanted = none := by
  cases expr with
  | literal mark ty text =>
    have own : ty.scale? = some places := scaled
    rw [rescaledText?_literal, own, Option.bind_some, rescaled?, if_neg (by omega)]
  | _ => rfl

namespace Reading

theorem rescaleFor_run (target : Ty) (expr : Expr) (before : State) :
    (rescaleFor target expr).run before =
      match target.places?.bind fun wanted => expr.rescaledText? wanted with
      | some text => .ok (some (.literal ⟨before.nodes + 1, expr.line⟩ target text),
          { before with nodes := before.nodes + 1 })
      | none => .ok (none, before) := by
  cases target
  case decimal wanted =>
    simp only [rescaleFor, Ty.places?, rescale, Option.bind_some, Ty.ofPlaces, dif_pos wanted.2]
    cases expr.rescaledText? wanted <;> rfl
  all_goals rfl

theorem rescaleFor_ok (target : Ty) (expr : Expr) (before : State) :
    ∃ found after, (rescaleFor target expr).run before = .ok (found, after) := by
  rw [rescaleFor_run]
  split <;> exact ⟨_, _, rfl⟩

/-- The second expression stands in place of the first one; only literals are replaced. -/
structure Keeps (written fitted : Expr) : Prop where
  other : written.isLiteral = false → fitted = written
  value : ∀ value, written.Denotes value → fitted.Denotes value

theorem Keeps.refl (expr : Expr) : Keeps expr expr :=
  ⟨fun _ => rfl, fun _ => id⟩

theorem keeps_of_rescaleFor {target : Ty} {literal : Expr}
    (rescaled : (rescaleFor target expr).run before = .ok (some literal, after)) :
    Keeps expr literal ∧ literal.ty = target := by
  rw [rescaleFor_run] at rescaled
  split at rescaled <;> cases rescaled
  rename_i text found
  rcases Option.bind_eq_some_iff.mp found with ⟨count, places, widened⟩
  obtain ⟨wanted, rfl, rfl⟩ : ∃ wanted : Ty.Places,
      target = .decimal wanted ∧ count = wanted.val := by
    cases target <;> cases places
    exact ⟨_, rfl, rfl⟩
  refine ⟨⟨fun other => ?_, fun value denotes => ?_⟩, rfl⟩
  · cases expr <;> first | cases widened | cases other
  · rcases denotes.scale with ⟨own, scaled⟩
    have more : own ≤ wanted.val := by
      by_contra less
      rw [Expr.rescaledText?_none scaled (Nat.lt_of_not_le less)] at widened
      cases widened
    rcases denotes.rescaled scaled more with ⟨other, same, all⟩
    obtain rfl : text = other := Option.some.inj (widened.symm.trans same)
    exact all _

/-- A literal fits where a decimal has enough places for it, and stands for the same number. -/
theorem coerce_decimal (denotes : expr.Denotes value) (scaled : expr.ty.scale? = some places)
    (wanted : Ty.Places) (line : Nat) (before : State) :
    if places ≤ wanted.val then
      ∃ fitted after, (coerce expr (.decimal wanted) line).run before = .ok (fitted, after) ∧
        fitted.ty = .decimal wanted ∧ fitted.Denotes value
    else ∃ error, (coerce expr (.decimal wanted) line).run before = .error (.error error) := by
  by_cases same : expr.ty = .decimal wanted
  · obtain rfl : wanted.val = places := by simpa [same, Ty.scale?] using scaled
    rw [if_pos (Nat.le_refl _)]
    refine ⟨expr, before, ?_, same, denotes⟩
    rw [coerce, if_pos (by simp [same, Ty.accepts])]
    rfl
  · have refused : ¬ (Ty.decimal wanted).accepts expr.ty := by
      simpa [Ty.accepts] using Ne.symm same
    have uncastable : ¬ expr.ty.canCast (.decimal wanted) := by
      generalize expr.ty = ty at scaled
      cases ty <;> simp [Ty.scale?] at scaled <;> simp [Ty.canCast, Ty.kind]
    rw [coerce, if_neg refused, StateT.run_bind]
    split
    · rename_i more
      rcases denotes.rescaled scaled more with ⟨text, widened, all⟩
      rw [rescaleFor_run, Ty.places?, Option.bind_some, widened]
      exact ⟨_, _, rfl, rfl, all _⟩
    · rename_i less
      rw [rescaleFor_run, Ty.places?, Option.bind_some,
        Expr.rescaledText?_none scaled (Nat.lt_of_not_le less)]
      exact ⟨_, rfl⟩

/-! ## Operands -/

/-- Two operands of one type stand in place of those that are written. -/
structure Unites (left right : Expr) (pair : Expr × Expr) : Prop where
  same : pair.1.ty = pair.2.ty
  left : Keeps left pair.1
  right : Keeps right pair.2

/-- Next to a decimal, a numeral is never converted. -/
theorem convertRight_run {left right : Expr} (before : State)
    (numeric : left.ty.scale?.isSome = true) (beside : right.ty.scale?.isSome = true) :
    (convertRight op left right).run before = .ok (right, before) := by
  have none : implicitTarget? op left.ty right.ty = none := by
    generalize left.ty = one at numeric
    generalize right.ty = two at beside
    cases one <;> cases numeric <;> cases two <;> cases beside <;> cases op <;> rfl
  rw [convertRight, none]
  rfl

theorem unify_unites {left right : Expr} {line : Nat} {pair : Expr × Expr}
    (numeric : left.ty.scale?.isSome = true) (beside : right.ty.scale?.isSome = true)
    (unified : (unify op left right line).run before = .ok (pair, after)) :
    Unites left right pair := by
  rw [unify, StateT.run_bind, convertRight_run before numeric beside] at unified
  change (if left.ty = right.ty then _ else _ : Reading (Expr × Expr)).run before = _ at unified
  split at unified
  · cases unified
    exact ⟨‹_›, .refl _, .refl _⟩
  · rcases ok_of_bind unified with ⟨found, between, first, unified⟩
    cases found with
    | some literal =>
      cases unified
      rcases keeps_of_rescaleFor first with ⟨keeps, same⟩
      exact ⟨same.symm, .refl _, keeps⟩
    | none =>
      rcases ok_of_bind unified with ⟨found, last, second, unified⟩
      cases found with
      | some literal =>
        cases unified
        rcases keeps_of_rescaleFor second with ⟨keeps, same⟩
        exact ⟨same, keeps, .refl _⟩
      | none => cases unified

/-- A literal with few enough places can stand on either side of a decimal. -/
theorem exists_unify {other : Expr} {wanted : Ty.Places} (denotes : expr.Denotes value)
    (scaled : expr.ty.scale? = some places) (decimal : other.ty = .decimal wanted)
    (more : places ≤ wanted.val) (line : Nat) (before : State) :
    (∃ pair after, (unify op expr other line).run before = .ok (pair, after)) ∧
      ∃ pair after, (unify op other expr line).run before = .ok (pair, after) := by
  have numeric : expr.ty.scale?.isSome = true := by rw [scaled]; rfl
  have beside : other.ty.scale?.isSome = true := by rw [decimal]; rfl
  rcases denotes.rescaled scaled more with ⟨text, widened, -⟩
  have fits (before : State) : ∃ literal after,
      (rescaleFor other.ty expr).run before = .ok (some literal, after) := by
    rw [rescaleFor_run, decimal, Ty.places?, Option.bind_some, widened]
    exact ⟨_, _, rfl⟩
  constructor
  · rw [unify, bind_of_ok (convertRight_run before numeric beside)]
    split
    · exact ⟨_, _, rfl⟩
    · rcases rescaleFor_ok expr.ty other before with ⟨found, between, first⟩
      rw [bind_of_ok first]
      cases found with
      | some literal => exact ⟨_, _, rfl⟩
      | none =>
        rcases fits between with ⟨literal, last, second⟩
        simp only
        rw [bind_of_ok second]
        exact ⟨_, _, rfl⟩
  · rw [unify, bind_of_ok (convertRight_run before beside numeric)]
    split
    · exact ⟨_, _, rfl⟩
    · rcases fits before with ⟨literal, between, first⟩
      rw [bind_of_ok first]
      exact ⟨_, _, rfl⟩

/-! ## Reading numerals -/

section Operand

variable {context : Context} {scope : ScopeId} {nested : Reading Expr} {leading : Bool}
  {before : State} {sign token : Token} {rest : List Token}

theorem fetch_run (spelled : before.rest = token :: rest) :
    fetch.run before = .ok (token, { before with rest }) := by
  rcases before with ⟨tokens, lastLine, nodes, scopes⟩
  cases spelled
  rfl

theorem operand_literal (spelled : before.rest = token :: rest)
    (isLiteral : token.kind.isLiteral = true) :
    (operand context scope nested leading).run before =
      (literal "" token).run { before with rest } := by
  rw [operand, bind_of_ok (fetch_run spelled)]
  rcases token with ⟨kind, value, start, stop⟩
  cases kind
  case string | number | decimal | bool | address | hash | bytes => rfl
  all_goals cases isLiteral

/-- A minus in front of a numeral becomes a part of the literal. -/
theorem operand_minus (spelled : before.rest = sign :: token :: rest)
    (isMinus : sign.is .operator "-" = true)
    (numeric : token.kind = .number ∨ token.kind = .decimal) :
    (operand context scope nested leading).run before =
      (literal "-" token).run { before with rest } := by
  rcases sign with ⟨kind, value, start, stop⟩
  simp only [Token.is, Bool.and_eq_true, beq_iff_eq] at isMinus
  rcases isMinus with ⟨rfl, rfl⟩
  rw [operand, bind_of_ok (fetch_run spelled)]
  change (opposite nested start.line).run _ = _
  rw [opposite, StateT.run_bind]
  change (if token.kind = .number ∨ token.kind = .decimal then _ else _ : Reading Expr).run _ = _
  rw [if_pos numeric]
  rfl

/-- The expression is a literal for the number, and remains one wherever it is fitted. -/
structure Exact (expr : Expr) (value : ℚ) (places : Nat) : Prop where
  scaled : expr.ty.scale? = some places
  denotes : expr.Denotes value
  /-- A decimal with enough places takes it, and no other does. -/
  coerced : ∀ (wanted : Ty.Places) line before,
    if places ≤ wanted.val then
      ∃ fitted after, (coerce expr (.decimal wanted) line).run before = .ok (fitted, after) ∧
        fitted.ty = .decimal wanted ∧ fitted.Denotes value
    else ∃ error, (coerce expr (.decimal wanted) line).run before = .error (.error error)
  /-- It can stand on both sides of a decimal with enough places. -/
  beside : ∀ op other (wanted : Ty.Places) line before, other.ty = .decimal wanted →
    places ≤ wanted.val →
    (∃ pair after, (unify op expr other line).run before = .ok (pair, after)) ∧
      ∃ pair after, (unify op other expr line).run before = .ok (pair, after)
  /-- Whatever its places, both operands keep their values there. -/
  united : ∀ op other wanted line before pair after, other.ty = .decimal wanted →
    ((unify op expr other line).run before = .ok (pair, after) → Unites expr other pair) ∧
      ((unify op other expr line).run before = .ok (pair, after) → Unites other expr pair)

theorem exact_of_denotes (denotes : expr.Denotes value) (scaled : expr.ty.scale? = some places) :
    Exact expr value places := by
  refine ⟨scaled, denotes, coerce_decimal denotes scaled, ?_, ?_⟩
  · intro op other wanted line before decimal more
    exact exists_unify denotes scaled decimal more line before
  · intro op other wanted line before pair after decimal
    have numeric : expr.ty.scale?.isSome = true := by rw [scaled]; rfl
    have beside : other.ty.scale?.isSome = true := by rw [decimal]; rfl
    exact ⟨unify_unites numeric beside, unify_unites beside numeric⟩

/-- With or without a minus, the token is read as a literal for the number, if it has few places. -/
def ReadExactly (token : Token) (value : ℚ) (places : Nat) : Prop :=
  ∀ context scope nested leading before rest sign (negative : Bool),
    sign.is .operator "-" = true →
    before.rest = (if negative then [sign, token] else [token]) ++ rest →
    if places ≤ Ty.maxPlaces then
      ∃ expr, (operand context scope nested leading).run before =
          .ok (expr, { before with rest, nodes := before.nodes + 1 }) ∧
        Exact expr (if negative then -value else value) places
    else ∃ error, (operand context scope nested leading).run before = .error (.error error)

/--
A number or decimal of a source is read as a literal for the rational number
that it is written for, and the literal stands for this number wherever it is
fitted.
-/
theorem numerals_exact {source : String} (listed : token ∈ Token.scan source)
    (numeric : token.kind = .number ∨ token.kind = .decimal) :
    ∃ value places, token.Writes value places ∧ ReadExactly token value places := by
  rcases Token.exists_writes listed numeric with ⟨value, places, writes⟩
  refine ⟨value, places, writes, ?_⟩
  intro context scope nested leading before rest sign negative isMinus spelled
  have isLiteral : token.kind.isLiteral = true := by
    rcases numeric with isNumber | isDecimal
    · rw [isNumber]
      rfl
    · rw [isDecimal]
      rfl
  have read : (operand context scope nested leading).run before =
      (literal (signText negative) token).run { before with rest } := by
    cases negative with
    | false => exact operand_literal spelled isLiteral
    | true => exact operand_minus spelled isMinus numeric
  rw [read]
  split
  · rename_i few
    rcases literal_denotes writes few negative { before with rest } with
      ⟨expr, made, scaled, denotes⟩
    exact ⟨expr, made, exact_of_denotes denotes scaled⟩
  · rename_i many
    exact literal_refused (literalOf?_many writes (Nat.lt_of_not_le many)) _ _

/-- A decimal with zeros at both ends, behind a minus. -/
theorem numerals_exact_padded :
    (⟨.decimal, "0012.50", ⟨1, 1, 2⟩, 8⟩ : Token) ∈ Token.scan "-0012.50" ∧
      ∃ value places, Token.Writes ⟨.decimal, "0012.50", ⟨1, 1, 2⟩, 8⟩ value places ∧
        ReadExactly ⟨.decimal, "0012.50", ⟨1, 1, 2⟩, 8⟩ value places :=
  ⟨by decide +kernel, numerals_exact (show _ ∈ Token.scan "-0012.50" by decide +kernel) (.inr rfl)⟩

end Operand

end Reading

end Covenant
