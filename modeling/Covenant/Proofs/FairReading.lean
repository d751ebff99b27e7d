import Covenant.Proofs.SaneScopes
import Covenant.Proofs.TokenForms
import Covenant.Reading.WrittenType

/-!
# Readers that fail fairly

A reader that fails blames the source: it reports an error that is not an
internal one, on a line of the source, or the counter of an enum runs past its
limit.  It never spends the bound of a repetition, since every round uses up
tokens.

`Fair` says this of a reader and a state, together with what holds when the
reader succeeds.  Most readers do not care which tokens come next: `Reads`
judges them at all states of a place, that is with given scopes and a given
number of nodes, and with a bound on the weight of the tokens.  The readers
inside a repetition or a nesting are judged with a smaller bound.
-/

namespace Covenant.Reading

variable {token : Token} {rest : List Token}

/-! ## Enums that count too far -/

/-- What follows an entry of an enum; a comma may stand between two entries. -/
def afterComma : List Token → List Token
  | [] => []
  | token :: rest => if token.is .separator "," then rest else token :: rest

/-- The tokens do not go on with the value of an entry. -/
def Valueless (tokens : List Token) : Prop :=
  ∀ token ∈ tokens.head?, token.is .operator "=" = false

/--
The entries that the tokens spell, from one on whose value without a number
would be `next`, reach an entry without a number behind the largest value.
-/
inductive CountsPast : Nat → List Token → Prop
  | past {name : Token} {rest : List Token} (named : name.kind = .identifier)
      (bare : Valueless rest) : CountsPast Text.limit32 (name :: rest)
  | bare {next : Nat} {name : Token} {rest : List Token} (named : name.kind = .identifier)
      (bare : Valueless rest) (further : CountsPast (next + 1) (afterComma rest)) :
      CountsPast next (name :: rest)
  | given {next value : Nat} {name sign number : Token} {rest : List Token}
      (named : name.kind = .identifier) (signed : sign.is .operator "=" = true)
      (numeric : number.kind = .number)
      (valued : Text.readNat? Text.limit32 number.value = some value)
      (further : CountsPast (value + 1) (afterComma rest)) :
      CountsPast next (name :: sign :: number :: rest)

/-- Somewhere in the tokens stands an enum that counts past the largest value. -/
def Overruns (tokens : List Token) : Prop :=
  ∃ keyword name brace entries, keyword :: name :: brace :: entries <:+ tokens ∧
    keyword.is .keyword "enum" = true ∧ CountsPast 0 entries

theorem Overruns.of_suffix {tokens : List Token} (suffix : rest <:+ tokens)
    (overruns : Overruns rest) : Overruns tokens := by
  rcases overruns with ⟨keyword, name, brace, entries, within, isEnum, past⟩
  exact ⟨keyword, name, brace, entries, within.trans suffix, isEnum, past⟩

/-- An enum does not start with an angle bracket. -/
theorem Overruns.of_cons (other : token.kind ≠ .keyword) (overruns : Overruns (token :: rest)) :
    Overruns rest := by
  rcases overruns with ⟨keyword, name, brace, entries, within, isEnum, past⟩
  rcases List.suffix_cons_iff.mp within with same | inside
  · simp only [List.cons.injEq] at same
    rw [same.1] at isEnum
    simp [Token.is, other] at isEnum
  · exact ⟨keyword, name, brace, entries, inside, isEnum, past⟩

/-! ## The judgement -/

/-- What reading depends on apart from the tokens. -/
structure Place where
  scopes : ScopeTree
  /-- The number of nodes made so far. -/
  nodes : Nat

/-- The place that a state is at. -/
def State.place (state : State) : Place :=
  ⟨state.scopes, state.nodes⟩

/-- What reading starts with. -/
structure Ground where
  tokens : List Token
  scopes : ScopeTree := {}

/-- A token stands on the line; of a source without tokens any line will do. -/
def Shown (ground : Ground) (line : Nat) : Prop :=
  ground.tokens = [] ∨ ∃ token ∈ ground.tokens, token.line = line

/-- The values of the tokens look as their kinds ask for. -/
def Ground.Formed (ground : Ground) : Prop :=
  ∀ token ∈ ground.tokens, token.kind.Forms token.value.toList

/-- What holds of a state while tokens are read. -/
structure State.Sound (ground : Ground) (state : State) : Prop where
  formed : ground.Formed → ∀ token ∈ state.rest, token.kind.Forms token.value.toList
  overruns : Overruns state.rest → Overruns ground.tokens
  shown : ∀ token ∈ state.rest, Shown ground token.line
  last : Shown ground state.lastLine
  recorded : state.scopes.Recorded
  reached : ground.scopes.Reached ScopeTree.Operation.Regular state.scopes
  declared : ∀ declaration ∈ state.scopes.declarations,
    declaration ∈ ground.scopes.declarations ∨ Shown ground declaration.line

/-- What a reader does to the state; `eats` says that it uses up a token. -/
structure Moves (ground : Ground) (eats : Bool) (before after : State) : Prop where
  weight : after.weight + eats.toNat ≤ before.weight
  sound : after.Sound ground

/-- The source can be blamed for the error, on one of its lines. -/
def Blames (ground : Ground) (error : Error) : Prop :=
  error.isInternal = false ∧ error.line?.elim True (Shown ground)

/-- A failure that the source can be blamed for, if it is made of tokens as they are scanned. -/
def Fairly (ground : Ground) : Failure → Prop
  | .error error => ground.Formed → Blames ground error
  | .overflow => Overruns ground.tokens
  | .stalled => False

/-- The reader fails fairly, and `post` holds where it succeeds. -/
def Fair {Outcome : Type} (ground : Ground) (before : State) (eats : Bool)
    (code : Reading Outcome) (post : Outcome → State → Prop) : Prop :=
  before.Sound ground →
    (∀ failure, code.run before = .error failure → Fairly ground failure) ∧
      ∀ outcome after, code.run before = .ok (outcome, after) →
        Moves ground eats before after ∧ post outcome after

variable {Outcome Next Value : Type} {ground : Ground} {before between after : State}
  {eats : Bool}

namespace Moves

theorem refl (sound : before.Sound ground) : Moves ground false before before :=
  ⟨Nat.le_refl _, sound⟩

theorem loosen (moves : Moves ground true before after) : Moves ground eats before after := by
  refine ⟨Nat.le_trans ?_ moves.weight, moves.sound⟩
  cases eats <;> simp

theorem trans (first : Moves ground false before between)
    (second : Moves ground eats between after) : Moves ground eats before after :=
  ⟨Nat.le_trans second.weight first.weight, second.sound⟩

theorem transFirst (first : Moves ground true before between)
    (second : Moves ground false between after) : Moves ground eats before after := by
  refine ⟨?_, second.sound⟩
  have := first.weight
  have := second.weight
  cases eats <;> simp at * <;> omega

theorem le (moves : Moves ground eats before after) : after.weight ≤ before.weight :=
  Nat.le_of_add_right_le moves.weight

theorem lt (moves : Moves ground true before after) : after.weight < before.weight :=
  moves.weight

end Moves

namespace Fair

variable {post mid : Outcome → State → Prop} {code : Reading Outcome}
  {next : Outcome → Reading Next} {error : Error} {done : Reading Bool}

theorem mono {weaker : Outcome → State → Prop} (fair : Fair ground before eats code post)
    (implied : ∀ outcome after, Moves ground eats before after → post outcome after →
      weaker outcome after) :
    Fair ground before eats code weaker := by
  intro sound
  refine ⟨(fair sound).1, fun outcome after ran => ?_⟩
  rcases (fair sound).2 outcome after ran with ⟨moves, holds⟩
  exact ⟨moves, implied outcome after moves holds⟩

theorem loosen (fair : Fair ground before true code post) : Fair ground before eats code post := by
  intro sound
  refine ⟨(fair sound).1, fun outcome after ran => ?_⟩
  rcases (fair sound).2 outcome after ran with ⟨moves, holds⟩
  exact ⟨moves.loosen, holds⟩

/-- One reader behind the other; the whole uses up a token if one of them does. -/
theorem bind {one two : Bool} {post : Next → State → Prop}
    (first : Fair ground before one code mid)
    (second : ∀ outcome between, Moves ground one before between → mid outcome between →
      Fair ground between two (next outcome) post)
    (moving : ∀ between after, Moves ground one before between → Moves ground two between after →
      Moves ground eats before after) : Fair ground before eats (code >>= next) post := by
  intro sound
  rcases first sound with ⟨failing, succeeding⟩
  rw [StateT.run_bind]
  cases ran : code.run before with
  | error failure =>
    refine ⟨fun other failed => ?_, nofun⟩
    cases failed
    exact failing failure ran
  | ok pair =>
    rcases succeeding pair.1 pair.2 ran with ⟨moves, holds⟩
    rcases second pair.1 pair.2 moves holds moves.sound with ⟨failing, succeeding⟩
    refine ⟨failing, fun outcome after ended => ?_⟩
    rcases succeeding outcome after ended with ⟨more, goal⟩
    exact ⟨moving _ _ moves more, goal⟩

/-- The second reader uses up a token if the whole has to. -/
theorem keep {post : Next → State → Prop} (first : Fair ground before false code mid)
    (second : ∀ outcome between, Moves ground false before between → mid outcome between →
      Fair ground between eats (next outcome) post) :
    Fair ground before eats (code >>= next) post :=
  .bind first second fun _ _ => Moves.trans

/-- The first reader uses up a token. -/
theorem spend {post : Next → State → Prop} (first : Fair ground before true code mid)
    (second : ∀ outcome between, Moves ground true before between → mid outcome between →
      Fair ground between false (next outcome) post) :
    Fair ground before eats (code >>= next) post :=
  .bind first second fun _ _ => Moves.transFirst

theorem pure {outcome : Outcome} (holds : post outcome before) :
    Fair ground before false (Pure.pure outcome) post := by
  intro sound
  refine ⟨nofun, fun found after ran => ?_⟩
  cases ran
  exact ⟨.refl sound, holds⟩

theorem fail (blames : Blames ground error) :
    Fair ground before eats (Reading.fail error) post := by
  intro _
  refine ⟨fun failure failed => ?_, nofun⟩
  cases failed
  exact fun _ => blames

/-- What is known of the state may be used. -/
theorem knowing (fair : before.Sound ground → Fair ground before eats code post) :
    Fair ground before eats code post :=
  fun sound => fair sound sound

theorem get : Fair ground before false MonadState.get fun found after =>
    found = before ∧ after = before := by
  intro sound
  refine ⟨nofun, fun found after ran => ?_⟩
  cases ran
  exact ⟨.refl sound, rfl, rfl⟩

/-- A computation that does not read. -/
theorem lift {value : Except Failure Outcome}
    (fairly : ∀ failure, value = .error failure → Fairly ground failure)
    (holds : ∀ outcome, value = .ok outcome → post outcome before) :
    Fair ground before false (monadLift value) post := by
  intro sound
  cases value with
  | error failure =>
    refine ⟨fun other failed => ?_, nofun⟩
    cases failed
    exact fairly failure rfl
  | ok outcome =>
    refine ⟨nofun, fun found after ran => ?_⟩
    cases ran
    exact ⟨.refl sound, holds outcome rfl⟩

/-- The state is replaced by one that has moved on. -/
theorem set {next : State} {post : Unit → State → Prop}
    (moves : before.Sound ground → Moves ground eats before next) (holds : post () next) :
    Fair ground before eats (MonadStateOf.set next) post := by
  intro sound
  refine ⟨nofun, fun outcome after ran => ?_⟩
  cases ran
  exact ⟨moves sound, holds⟩

theorem map {change : Outcome → Next} {post : Next → State → Prop}
    (fair : Fair ground before eats code fun outcome after => post (change outcome) after) :
    Fair ground before eats (change <$> code) post := by
  rw [map_eq_pure_bind]
  refine .bind fair (fun _ _ _ holds => .pure holds) fun _ _ first second => ?_
  exact ⟨Nat.le_trans (Nat.add_le_add_right second.le _) first.weight, second.sound⟩

theorem discard {post : Unit → State → Prop}
    (fair : Fair ground before eats code fun _ after => post () after) :
    Fair ground before eats (Functor.discard code) post :=
  map fair

/-! ## Single tokens -/

/-- A token has been taken, and nothing else has happened. -/
structure Taken (ground : Ground) (before : State) (token : Token) (after : State) :
    Prop where
  spelled : before.rest = token :: after.rest
  formed : ground.Formed → token.kind.Forms token.value.toList
  shown : Shown ground token.line
  same : after.place = before.place

theorem moves_tail (spelled : before.rest = token :: rest) (sound : before.Sound ground) :
    Moves ground true before { before with rest } := by
  refine ⟨?_, { sound with
    formed := fun formed => ?_, overruns := fun overruns => sound.overruns ?_, shown := ?_ }⟩
  · have : 1 ≤ tokenWeight token := by
      unfold tokenWeight
      split <;> omega
    simp only [State.weight, spelled, tokensWeight, Bool.toNat_true]
    omega
  · intro other member
    exact sound.formed formed other (spelled ▸ List.mem_cons_of_mem _ member)
  · rw [spelled]
    exact overruns.of_suffix (List.suffix_cons _ _)
  · intro other member
    exact sound.shown other (spelled ▸ List.mem_cons_of_mem _ member)

theorem peek (distance : Nat) :
    Fair ground before false (Reading.peek distance) fun found after =>
      found = before.rest[distance]? ∧ after = before := by
  refine .keep .get fun state between _ same => .pure ?_
  rw [same.1, same.2]
  exact ⟨rfl, rfl⟩

theorem line_shown (sound : before.Sound ground) : Shown ground before.line := by
  unfold State.line
  cases ground : before.rest with
  | nil => exact sound.last
  | cons token rest => exact sound.shown token (by simp [ground])

theorem current : Fair ground before false Reading.current fun token after =>
    before.rest.head? = some token ∧ Shown ground token.line ∧ after = before := by
  refine .knowing fun sound => .keep .get fun state between _ same => ?_
  rcases same with ⟨rfl, rfl⟩
  split
  · rename_i token rest spelled
    exact .pure ⟨by rw [spelled]; rfl, sound.shown token (by simp [spelled]), rfl⟩
  · exact .fail ⟨rfl, line_shown sound⟩

/-- Passing over a token that is there. -/
theorem skip (present : before.rest.head? = some token) :
    Fair ground before true Reading.skip fun _ after => Taken ground before token after := by
  rcases List.head?_eq_some_iff.mp present with ⟨rest, spelled⟩
  refine .knowing fun sound => .keep .get fun state between _ same => ?_
  rcases same with ⟨rfl, rfl⟩
  split
  · rename_i first others same
    cases spelled.symm.trans same
    exact .set (moves_tail spelled) ⟨spelled,
      fun formed => sound.formed formed token (by simp [spelled]),
      sound.shown token (by simp [spelled]), rfl⟩
  · rename_i empty
    cases spelled.symm.trans empty

theorem fetch : Fair ground before true Reading.fetch (Taken ground before) := by
  refine .keep .current fun token between _ found => ?_
  rcases found with ⟨present, -, rfl⟩
  exact .spend (.skip present) fun _ _ _ taken => .pure taken

theorem check (kind : Token.Kind) (value : String) :
    Fair ground before false (Reading.check kind value) fun found after =>
      found = (before.rest.head?.map fun token => token.is kind value).getD false ∧
        after = before := by
  refine .keep (.peek 0) fun found between _ same => .pure ?_
  rw [same.1, same.2, List.head?_eq_getElem?]
  exact ⟨rfl, rfl⟩

/-- What is known where a token may have been taken. -/
theorem eat (kind : Token.Kind) (value : String) :
    Fair ground before false (Reading.eat kind value) fun found after =>
      (found = true ∧ ∃ token, token.is kind value = true ∧ Taken ground before token after) ∨
      (found = false ∧ after = before ∧ ∀ token ∈ before.rest.head?,
        token.is kind value = false) := by
  refine .keep (.check kind value) fun found between _ same => ?_
  rcases same with ⟨looked, rfl⟩
  cases found with
  | true =>
    simp only [if_true]
    cases present : between.rest.head? with
    | none => simp [present] at looked
    | some token =>
      have isToken : token.is kind value = true := by
        rw [present] at looked
        exact looked.symm
      exact .spend (.skip present) fun _ _ _ taken =>
        .pure (.inl ⟨rfl, token, isToken, taken⟩)
  | false =>
    simp only [Bool.false_eq_true, if_false]
    refine .pure (.inr ⟨rfl, rfl, fun token member => ?_⟩)
    rw [Option.mem_def.mp member] at looked
    exact looked.symm

theorem expect (kind : Token.Kind) (value : String) :
    Fair ground before true (Reading.expect kind value) fun token after =>
      token.is kind value = true ∧ Taken ground before token after := by
  refine .spend .fetch fun token between _ taken => ?_
  split
  · rename_i isToken
    exact .pure ⟨isToken, taken⟩
  · exact .fail ⟨rfl, taken.shown⟩

theorem separator (value : String) :
    Fair ground before true (Reading.separator value) fun _ after =>
      ∃ token, Taken ground before token after :=
  .discard ((expect _ value).mono fun token _ _ holds => ⟨token, holds.2⟩)

theorem identifier : Fair ground before true Reading.identifier fun token after =>
    token.kind = .identifier ∧ Taken ground before token after := by
  refine .spend .fetch fun token between _ taken => ?_
  split
  · rename_i named
    exact .pure ⟨named, taken⟩
  · exact .fail ⟨rfl, taken.shown⟩

/-! ## Repetition -/

/-- A reader with a bound that the weight of the state does not reach. -/
theorem bounded {run : Nat → Reading Outcome}
    (fair : ∀ bound, before.weight < bound → Fair ground before eats (run bound) post) :
    Fair ground before eats (Reading.bounded run) post := by
  refine .keep .get fun state between _ same => ?_
  rcases same with ⟨rfl, rfl⟩
  exact fair _ (Nat.lt_succ_self _)

theorem advancing {step : Reading Outcome} (fair : Fair ground before true step post) :
    Fair ground before true (Reading.advancing step) post := by
  refine .keep .get fun state between _ same => ?_
  rcases same with ⟨rfl, rfl⟩
  refine .spend fair fun outcome after moves holds => .keep .get fun state last _ same => ?_
  rcases same with ⟨rfl, rfl⟩
  rw [if_pos moves.lt]
  exact .pure holds

/-- Every round uses up a token, so the rounds do not spend the bound. -/
theorem iterate {round : Value → Reading Value} {post : Value → State → Prop}
    (invariant : Value → State → Prop)
    (asking : ∀ value state, invariant value state → Fair ground state false done
      fun found later => if found then post value later else invariant value later)
    (advancing : ∀ value state, state.weight ≤ before.weight → invariant value state →
      Fair ground state true (round value) invariant) {value : Value}
    (start : invariant value before) :
    Fair ground before false (Reading.iterate done round value) post := by
  refine .bounded fun bound enough => ?_
  -- The states of later rounds weigh less than the first one, and less than their bound.
  have within : ∀ bound value state, state.weight < bound → state.weight ≤ before.weight →
      invariant value state →
      Fair ground state false (iterateWithin done round bound value) post := by
    intro bound
    induction bound with
    | zero => exact fun _ _ few => absurd few (Nat.not_lt_zero _)
    | succ bound ih =>
      intro value state few light holds
      refine .keep (asking value state holds) fun found asked moves answer => ?_
      cases found with
      | true => exact .pure answer
      | false =>
        have lighter : asked.weight ≤ before.weight := Nat.le_trans moves.le light
        refine .spend (.advancing (advancing value asked lighter answer)) ?_
        intro next later eaten kept
        have := moves.le
        have := eaten.lt
        exact ih next later (by omega) (by omega) kept
  exact within bound value before enough (Nat.le_refl _) start

end Fair

/-! ## Readers at a place -/

/-- The reader passes over tokens, and leaves the place. -/
def Passes (ground : Ground) (eats : Bool) (code : Reading Outcome) (post : Outcome → Prop) :
    Prop :=
  ∀ before, Fair ground before eats code fun outcome after =>
    after.place = before.place ∧ post outcome

/-- At the states of a place, with tokens of at most a weight, the reader fails fairly. -/
def Reads (ground : Ground) (bound : Nat) (place : Place) (eats : Bool)
    (code : Reading Outcome) (post : Outcome → Place → Prop) : Prop :=
  ∀ before, before.place = place → before.weight ≤ bound →
    Fair ground before eats code fun outcome after => post outcome after.place

variable {bound : Nat} {place : Place} {tree : ScopeTree} {nodes : Nat} {code : Reading Outcome}
  {next : Outcome → Reading Next} {error : Error}

namespace Reads

variable {post : Outcome → Place → Prop} {goal : Next → Place → Prop} {fact : Outcome → Prop}

theorem mono {weaker : Outcome → Place → Prop} (reads : Reads ground bound place eats code post)
    (implied : ∀ outcome after, post outcome after → weaker outcome after) :
    Reads ground bound place eats code weaker :=
  fun before here light => (reads before here light).mono fun outcome after _ holds =>
    implied outcome after.place holds

theorem both {more : Outcome → Place → Prop} (reads : Reads ground bound place eats code post)
    (also : Reads ground bound place eats code more) :
    Reads ground bound place eats code fun outcome after =>
      post outcome after ∧ more outcome after := by
  intro before here light sound
  rcases reads before here light sound with ⟨failing, succeeding⟩
  refine ⟨failing, fun outcome after ran => ?_⟩
  rcases succeeding outcome after ran with ⟨moves, holds⟩
  exact ⟨moves, holds, ((also before here light sound).2 outcome after ran).2⟩

theorem loosen (reads : Reads ground bound place true code post) :
    Reads ground bound place eats code post :=
  fun before here light => (reads before here light).loosen

theorem lighter {more : Nat} (reads : Reads ground more place eats code post)
    (less : bound ≤ more) : Reads ground bound place eats code post :=
  fun before here light => reads before here (Nat.le_trans light less)

/-- What is known of the scopes may be used. -/
theorem knowing (reads : place.scopes.Recorded → Reads ground bound place eats code post) :
    Reads ground bound place eats code post := by
  rintro before rfl light
  exact .knowing fun sound => reads sound.recorded before rfl light

/-- A reader that may move on to another place. -/
theorem keep (first : Reads ground bound place false code post)
    (second : ∀ outcome later, post outcome later →
      Reads ground bound later eats (next outcome) goal) :
    Reads ground bound place eats (code >>= next) goal := by
  intro before here light
  refine .keep (first before here light) fun outcome between moves holds => ?_
  exact second outcome _ holds between rfl (Nat.le_trans moves.le light)

/-- A reader that may move on to another place, and uses up a token. -/
theorem spend (first : Reads ground bound place true code post)
    (second : ∀ outcome later, post outcome later →
      Reads ground bound later false (next outcome) goal) :
    Reads ground bound place eats (code >>= next) goal := by
  intro before here light
  refine .spend (first before here light) fun outcome between moves holds => ?_
  exact second outcome _ holds between rfl (Nat.le_trans moves.le light)

theorem pass (first : Passes ground false code fact)
    (second : ∀ outcome, fact outcome → Reads ground bound place eats (next outcome) goal) :
    Reads ground bound place eats (code >>= next) goal := by
  rintro before rfl light
  refine .keep (first before) fun outcome between moves holds => ?_
  exact second outcome holds.2 between holds.1 (Nat.le_trans moves.le light)

/-- What follows a token is read with less weight. -/
theorem descend (first : Passes ground true code fact)
    (second : ∀ outcome, fact outcome → ∀ less < bound,
      Reads ground less place false (next outcome) goal) :
    Reads ground bound place eats (code >>= next) goal := by
  rintro before rfl light
  refine .spend (first before) fun outcome between moves holds => ?_
  exact second outcome holds.2 between.weight (Nat.lt_of_lt_of_le moves.lt light) between holds.1
    (Nat.le_refl _)

theorem take (first : Passes ground true code fact)
    (second : ∀ outcome, fact outcome → Reads ground bound place false (next outcome) goal) :
    Reads ground bound place eats (code >>= next) goal :=
  .descend first fun outcome holds _ less => (second outcome holds).lighter (Nat.le_of_lt less)

theorem pure {outcome : Outcome} (holds : post outcome place) :
    Reads ground bound place false (Pure.pure outcome) post := by
  rintro before rfl light
  exact .pure holds

theorem fail (blames : Blames ground error) :
    Reads ground bound place eats (Reading.fail error) post :=
  fun _ _ _ => .fail blames

/-- Nothing is read behind a failure. -/
theorem failFirst (blames : Blames ground error) :
    Reads ground bound place eats (Reading.fail error >>= next) goal := by
  have failed : Reads ground bound place false (Reading.fail error : Reading Outcome)
      fun _ _ => False := .fail blames
  exact failed.keep fun _ _ never => never.elim

theorem discard {post : Unit → Place → Prop}
    (reads : Reads ground bound place eats code fun _ => post ()) :
    Reads ground bound place eats (Functor.discard code) post :=
  fun before here light => .discard (reads before here light)

theorem scopes {next : ScopeTree → Reading Next}
    (second : Reads ground bound place eats (next place.scopes) goal) :
    Reads ground bound place eats (Reading.scopes >>= next) goal := by
  rintro before rfl light
  have looked : Fair ground before false Reading.scopes fun tree after =>
      tree = before.scopes ∧ after = before :=
    .keep .get fun _ _ _ same => .pure ⟨by rw [same.1], same.2⟩
  refine looked.keep fun tree between _ same => ?_
  rw [same.1, same.2]
  exact second before rfl light

theorem node {line : Nat} {build : Mark → Outcome}
    (holds : post (build ⟨place.nodes + 1, line⟩) ⟨place.scopes, place.nodes + 1⟩) :
    Reads ground bound place false (Reading.node line build) post := by
  rintro before rfl light sound
  refine ⟨nofun, fun outcome after ran => ?_⟩
  cases ran
  exact ⟨⟨Nat.le_refl _, { sound with }⟩, holds⟩

/-- A node that more is made of. -/
theorem nodeThen {line : Nat} {build : Mark → Outcome}
    (second : Reads ground bound ⟨place.scopes, place.nodes + 1⟩ eats
      (next (build ⟨place.nodes + 1, line⟩)) goal) :
    Reads ground bound place eats (Reading.node line build >>= next) goal := by
  have made : Reads ground bound place false (Reading.node line build) fun outcome later =>
      outcome = build ⟨place.nodes + 1, line⟩ ∧ later = ⟨place.scopes, place.nodes + 1⟩ :=
    .node ⟨rfl, rfl⟩
  refine made.keep fun outcome later same => ?_
  rw [same.1, same.2]
  exact second

/-- The scopes are changed by an operation. -/
theorem setScopes {post : Unit → Place → Prop} (operation : ScopeTree.Operation)
    (performed : ScopeTree.perform operation place.scopes = .ok () tree)
    (applies : operation.Applies place.scopes) (regular : operation.Regular place.scopes)
    (shown : ∀ line ∈ operation.line?, Shown ground line)
    (holds : place.scopes.Effect operation tree → post () ⟨tree, place.nodes⟩) :
    Reads ground bound place false (Reading.setScopes tree) post := by
  rintro before rfl light sound
  refine ⟨nofun, fun outcome after ran => ?_⟩
  cases ran
  have made := ScopeTree.effect_of_perform performed applies
  refine ⟨⟨Nat.le_refl _, { sound with
    recorded := sound.recorded.effect made regular
    reached := sound.reached.next applies regular performed
    declared := fun declaration member => ?_ }⟩, holds made⟩
  rcases made.mem_declarations member with old | ⟨requested, -⟩
  · exact sound.declared declaration old
  · exact .inr (shown _ (by rw [requested]; rfl))

/-- The weight at the start is known to what follows. -/
theorem get {next : State → Reading Next}
    (second : ∀ start : State, start.weight ≤ bound →
      Reads ground start.weight place eats (next start) goal) :
    Reads ground bound place eats (MonadState.get >>= next) goal := by
  intro before here light
  refine .keep .get fun start _ _ same => ?_
  rw [same.1, same.2]
  exact second before light before here (Nat.le_refl _)

/-- The next token is known to what follows. -/
theorem current {next : Token → Reading Next}
    (second : ∀ token before, Shown ground token.line → before.rest.head? = some token →
      before.place = place → before.weight ≤ bound →
        Fair ground before eats (next token) fun outcome after => goal outcome after.place) :
    Reads ground bound place eats (Reading.current >>= next) goal := by
  intro before here light
  refine .keep .current fun token looked _ found => ?_
  rcases found with ⟨present, shown, rfl⟩
  exact second token looked shown present here light

/-- What follows the next token is read with less weight. -/
theorem skip (present : before.rest.head? = some token) (here : before.place = place)
    (light : before.weight ≤ bound)
    (second : ∀ less < bound, Reads ground less place false code post) :
    Fair ground before eats (Reading.skip >>= fun _ => code) fun outcome after =>
      post outcome after.place := by
  refine .spend (.skip present) fun _ after moves taken => ?_
  exact second after.weight (Nat.lt_of_lt_of_le moves.lt light) after (taken.same.trans here)
    (Nat.le_refl _)

theorem bounded {run : Nat → Reading Outcome}
    (reads : ∀ weight, Reads ground weight place eats (run (weight + 1)) post) :
    Reads ground bound place eats (Reading.bounded run) post :=
  .get fun start _ => reads start.weight

theorem below {weight : Nat} (light : bound < weight)
    (reads : Reads ground bound place eats code post) :
    Reads ground bound place eats (Reading.below weight code) post := by
  refine .get fun start less => ?_
  rw [if_pos (Nat.lt_of_le_of_lt less light)]
  exact reads.lighter less

/-- What every round keeps holds at the end. -/
theorem iterate {done : Reading Bool} {round : Value → Reading Value}
    {post : Value → Place → Prop} (asking : Passes ground false done fun _ => True)
    (advancing : ∀ value later, post value later →
      Reads ground bound later true (round value) post)
    {value : Value} (start : post value place) :
    Reads ground bound place false (Reading.iterate done round value) post := by
  rintro before rfl light
  refine .iterate (fun value state => post value state.place)
    (fun value state holds => (asking state).mono fun found later _ same => ?_)
    (fun value state lighter holds => ?_) start
  · rw [same.1]
    cases found <;> exact holds
  · exact advancing value _ holds state rfl (Nat.le_trans lighter light)

theorem collect {done : Reading Bool} {item : Reading Value} {post : List Value → Place → Prop}
    (asking : Passes ground false done fun _ => True)
    (advancing : ∀ items later, post items later →
      Reads ground bound later true item fun value => post (items ++ [value]))
    (start : post [] place) :
    Reads ground bound place false (Reading.collect done item) post :=
  .iterate asking (fun items later holds =>
    .spend (advancing items later holds) fun _ _ more => .pure more) start

end Reads

/-! ## Passing over tokens -/

namespace Passes

/-- A reader that stays at every place. -/
theorem of_reads {post : Outcome → Prop}
    (reads : ∀ bound place, Reads ground bound place eats code fun outcome later =>
      later = place ∧ post outcome) : Passes ground eats code post :=
  fun before => reads before.weight before.place before rfl (Nat.le_refl _)

theorem discard {post : Outcome → Prop} (passes : Passes ground eats code post) :
    Passes ground eats (Functor.discard code) fun _ => True :=
  fun before => .discard ((passes before).mono fun _ _ _ holds => ⟨holds.1, trivial⟩)

theorem require {value : Option Outcome} (blames : Blames ground error) :
    Passes ground false (Reading.require value error) fun outcome => value = some outcome := by
  intro before
  cases value with
  | none => exact .fail blames
  | some outcome => exact .pure ⟨rfl, rfl⟩

/-- An error may be excluded by the form of the tokens. -/
theorem resultOfFormed {value : Except Error Outcome}
    (blames : ground.Formed → ∀ error, value = .error error → Blames ground error) :
    Passes ground false (Reading.result value) fun outcome => value = .ok outcome := by
  intro before
  cases value with
  | error error =>
    refine fun _ => ⟨fun failure failed => ?_, nofun⟩
    cases failed
    exact fun formed => blames formed error rfl
  | ok outcome => exact .pure ⟨rfl, rfl⟩

theorem resultOf {value : Except Error Outcome} {outcome : Outcome} (built : value = .ok outcome) :
    Passes ground false (Reading.result value) (· = outcome) := by
  rw [built]
  exact fun _ => .pure ⟨rfl, rfl⟩

theorem result {value : Except Error Outcome}
    (blames : ∀ error, value = .error error → Blames ground error) :
    Passes ground false (Reading.result value) fun outcome => value = .ok outcome :=
  resultOfFormed fun _ => blames

theorem peek (distance : Nat) : Passes ground false (Reading.peek distance) fun _ => True :=
  fun _ => (Fair.peek distance).mono fun _ _ _ same => ⟨by rw [same.2], trivial⟩

theorem line : Passes ground false Reading.line (Shown ground) := by
  refine fun before => .knowing fun sound => .keep .get fun state between _ same => .pure ?_
  rw [same.1, same.2]
  exact ⟨rfl, Fair.line_shown sound⟩

theorem current : Passes ground false Reading.current fun token => Shown ground token.line :=
  fun _ => Fair.current.mono fun _ _ _ found => ⟨by rw [found.2.2], found.2.1⟩

theorem fetch : Passes ground true Reading.fetch fun token => Shown ground token.line :=
  fun _ => Fair.fetch.mono fun _ _ _ taken => ⟨taken.same, taken.shown⟩

theorem fetchFormed : Passes ground true Reading.fetch fun token =>
    Shown ground token.line ∧ (ground.Formed → token.kind.Forms token.value.toList) :=
  fun _ => Fair.fetch.mono fun _ _ _ taken => ⟨taken.same, taken.shown, taken.formed⟩

theorem check (kind : Token.Kind) (value : String) :
    Passes ground false (Reading.check kind value) fun _ => True :=
  fun _ => (Fair.check kind value).mono fun _ _ _ same => ⟨by rw [same.2], trivial⟩

theorem eat (kind : Token.Kind) (value : String) :
    Passes ground false (Reading.eat kind value) fun _ => True := by
  refine fun _ => (Fair.eat kind value).mono fun _ _ _ found => ⟨?_, trivial⟩
  rcases found with ⟨-, _, -, taken⟩ | ⟨-, same, -⟩
  · exact taken.same
  · rw [same]

theorem expect (kind : Token.Kind) (value : String) :
    Passes ground true (Reading.expect kind value) fun token => Shown ground token.line :=
  fun _ => (Fair.expect kind value).mono fun _ _ _ taken => ⟨taken.2.same, taken.2.shown⟩

theorem separator (value : String) :
    Passes ground true (Reading.separator value) fun _ => True :=
  .discard (expect _ value)

theorem operator (value : String) :
    Passes ground true (Reading.operator value) fun _ => True :=
  .discard (expect _ value)

theorem identifier : Passes ground true Reading.identifier fun token => Shown ground token.line :=
  fun _ => Fair.identifier.mono fun _ _ _ taken => ⟨taken.2.same, taken.2.shown⟩

theorem member : Passes ground true Reading.member fun token => Shown ground token.line := by
  refine .of_reads fun bound place => .take .fetch fun token shown => ?_
  split
  · exact .pure ⟨rfl, shown⟩
  · exact .pure ⟨rfl, shown⟩
  · exact .pure ⟨rfl, shown⟩
  · exact .fail ⟨rfl, shown⟩

/-- Half of a double bracket weighs less than the whole. -/
theorem closeAngle : Passes ground true Reading.closeAngle fun _ => True := by
  refine fun before => .keep .get fun state between _ same => ?_
  rcases same with ⟨rfl, rfl⟩
  split
  · rename_i token rest spelled
    split
    · rename_i isDouble
      refine .set (fun sound => ⟨?_, { sound with
        formed := fun formed => ?_, overruns := fun overruns => sound.overruns ?_
        shown := ?_ }⟩) ⟨rfl, trivial⟩
      · have double : tokenWeight token = 2 := by simp [tokenWeight, isDouble]
        have single : tokenWeight { token with value := ">" } = 1 := by
          simp [tokenWeight, Token.is]
        simp only [State.weight, spelled, tokensWeight, double, single, Bool.toNat_true]
        omega
      · have values := sound.formed formed
        rw [spelled] at values
        refine List.forall_mem_cons.mpr ⟨?_, (List.forall_mem_cons.mp values).2⟩
        have kind : token.kind = .operator := by simp_all [Token.is]
        rw [kind]
        trivial
      · rw [spelled]
        refine .of_suffix (List.suffix_cons _ _) (overruns.of_cons ?_)
        have kind : token.kind = .operator := by simp_all [Token.is]
        simp [kind]
      · have shown := sound.shown
        rw [spelled] at shown
        exact List.forall_mem_cons.mpr (List.forall_mem_cons.mp shown)
    · exact operator ">" _
  · exact operator ">" _

end Passes

/-- What a change does to the scopes is an operation. -/
theorem Reads.alter {Outcome : Type} {bound : Nat} {place : Place}
    {change : Change ScopeTree Outcome} {post : Outcome → Place → Prop}
    (operation : ScopeTree.Operation)
    (blames : ∀ error tree, change place.scopes = .error error tree → Blames ground error)
    (performs : ∀ outcome tree, change place.scopes = .ok outcome tree →
      ScopeTree.perform operation place.scopes = .ok () tree)
    (applies : operation.Applies place.scopes) (regular : operation.Regular place.scopes)
    (shown : ∀ line ∈ operation.line?, Shown ground line)
    (holds : ∀ outcome tree, change place.scopes = .ok outcome tree →
      place.scopes.Effect operation tree → post outcome ⟨tree, place.nodes⟩) :
    Reads ground bound place false (Reading.alter change) post := by
  refine .scopes (.pass (.result fun error failed => ?_) ?_)
  · rcases Change.failed_of_outcome failed with ⟨tree, run⟩
    exact blames error tree run
  · rintro ⟨outcome, tree⟩ found
    have run := Change.run_of_outcome found
    have stored : Reads ground bound place false (Reading.setScopes tree) fun _ later =>
        post outcome later :=
      .setScopes operation (performs outcome tree run) applies regular shown
        (holds outcome tree run)
    exact stored.keep fun _ _ holds => .pure holds

/-- Passing over tokens is all that is left to do. -/
theorem Reads.of_passes {fact : Outcome → Prop} {post : Outcome → Place → Prop}
    (passes : Passes ground eats code fact) (holds : ∀ outcome, fact outcome → post outcome place) :
    Reads ground bound place eats code post := by
  rintro before rfl light
  refine (passes before).mono fun outcome after _ found => ?_
  rw [found.1]
  exact holds outcome found.2

/-- What every item adds holds of all items. -/
theorem Reads.commaSeparated {item : Reading Value} {post : List Value → Place → Prop}
    (reading : ∀ items later, post items later →
      Reads ground bound later true item fun value => post (items ++ [value]))
    (start : post [] place) :
    Reads ground bound place false (Reading.commaSeparated item) post := by
  have within : ∀ rounds weight items later, weight < rounds → weight ≤ bound →
      post items later → Reads ground weight later false (commaSeparatedWithin item rounds)
        fun others => post (items ++ others) := by
    intro rounds
    induction rounds with
    | zero => exact fun _ _ _ few => absurd few (Nat.not_lt_zero _)
    | succ rounds ih =>
      intro weight items later few light holds before here lighter
      have first := (reading items later holds).lighter light before here lighter
      refine .spend (.advancing first) fun value read eaten more => ?_
      have goal : Reads ground read.weight read.place false (do
          if ← Reading.eat .separator ")" then
            return [value]
          else
            Reading.separator ","
            return value :: (← commaSeparatedWithin item rounds))
          fun others => post (items ++ others) := by
        refine .pass (.eat _ _) fun closed _ => ?_
        cases closed with
        | true => exact .pure more
        | false =>
          refine .take (.separator _) fun _ _ => ?_
          have := eaten.lt
          refine .keep (ih read.weight _ _ (by omega) (by omega) more) fun others _ last =>
            .pure ?_
          simpa using last
      exact goal read rfl (Nat.le_refl _)
  refine .pass (.eat _ _) fun closed _ => ?_
  cases closed with
  | true => exact .pure start
  | false =>
    refine .get fun origin less => ?_
    exact within _ _ [] _ (Nat.lt_succ_self _) less start

end Covenant.Reading
