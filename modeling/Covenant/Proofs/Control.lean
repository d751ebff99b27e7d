import Covenant.Proofs.EmittedFlow

/-!
# What a flow does

The meaning of the control constructs, said without jumps.  What a condition
turns out to be is not known here: a list of outcomes answers the tests one
after the other, and a flow that needs more outcomes than there are waits.  So
the meaning of a flow is, for each list of outcomes, what happens and how it
ends.

A loop needs an outcome for each of its rounds, and the list is a bound for
their number.
-/

namespace Covenant

variable {outcomes : List Bool}

/-- How a flow ends. -/
inductive Ending where
  /-- It comes to its end. -/
  | through
  /-- It leaves the innermost loop around it. -/
  | left
  /-- It goes on with the next round of the innermost loop around it. -/
  | again
  | returned
  | threw
  /-- There is no outcome for a test. -/
  | waiting
deriving DecidableEq

/-- Something that happens in a flow. -/
inductive Happening (Note Value : Type) where
  | deed (note : Note) (deed : Deed)
  /-- A value is computed. -/
  | value (value : Value)
  /-- A value is computed and compared with the subject of a switch. -/
  | compared (value : Value)
  | tested (value : Value) (holds : Bool)
  | raised (value : Value)

/-- Replace what the happening knows of its parts. -/
def Happening.map {Note Value OtherNote OtherValue : Type} (note : Note → OtherNote)
    (value : Value → OtherValue) : Happening Note Value → Happening OtherNote OtherValue
  | .deed span task => .deed (note span) task
  | .value computed => .value (value computed)
  | .compared computed => .compared (value computed)
  | .tested computed holds => .tested (value computed) holds
  | .raised thrown => .raised (value thrown)

/-- What happens, how it ends, and the outcomes that have not been used. -/
structure Performance (Note Value Last : Type) where
  happenings : List (Happening Note Value)
  last : Last
  rest : List Bool

/-- What comes after a round of a loop. -/
inductive Turnover where
  | another
  | done (ending : Ending)

namespace Performance

variable {Note Value Last : Type}

/-- Something has happened before. -/
def after (happenings : List (Happening Note Value)) (performance : Performance Note Value Last) :
    Performance Note Value Last :=
  { performance with happenings := happenings ++ performance.happenings }

/-- Compute a value, by the happening `computed`, and go on as its outcome says. -/
def test (computed : Happening Note Value) (value : Value) (waiting : Last)
    (next : Bool → List Bool → Performance Note Value Last) :
    List Bool → Performance Note Value Last
  | [] => ⟨[computed], waiting, []⟩
  | holds :: rest => (next holds rest).after [computed, .tested value holds]

/-- Go on if the end has been reached. -/
def andThen (performance : Performance Note Value Ending)
    (next : List Bool → Performance Note Value Ending) : Performance Note Value Ending :=
  match performance.last with
  | .through => (next performance.rest).after performance.happenings
  | _ => performance

/-- What the body of a loop has done; what follows it in the round comes next. -/
def inRound (performance : Performance Note Value Ending)
    (next : List Bool → Performance Note Value Turnover) : Performance Note Value Turnover :=
  match performance.last with
  | .through | .again => (next performance.rest).after performance.happenings
  | .left => { performance with last := .done .through }
  | ending => { performance with last := .done ending }

/-- The last part of a round. -/
def lastInRound (performance : Performance Note Value Ending) :
    Performance Note Value Turnover :=
  match performance.last with
  | .through => { performance with last := .another }
  | ending => { performance with last := .done ending }

/-- One round after the other, at most as many as the bound. -/
def rounds (round : List Bool → Performance Note Value Turnover) :
    Nat → List Bool → Performance Note Value Ending
  | 0, outcomes => ⟨[], .waiting, outcomes⟩
  | bound + 1, outcomes =>
    match (round outcomes).last with
    | .another => (rounds round bound (round outcomes).rest).after (round outcomes).happenings
    | .done ending => { round outcomes with last := ending }

end Performance

namespace Flow

variable {Note Value : Type}

open Performance

/-- What a flow does if the tests turn out as the outcomes say. -/
def perform : Flow Note Value → List Bool → Performance Note Value Ending
  | .skip, outcomes => ⟨[], .through, outcomes⟩
  | .simple note deed, outcomes => ⟨[.deed note deed], .through, outcomes⟩
  | .seq first second, outcomes => (first.perform outcomes).andThen second.perform
  | .within _ _ _ body, outcomes => body.perform outcomes
  | .expect _ condition message, outcomes =>
    test (.value condition) condition .waiting (fun holds rest =>
      if holds then ⟨[], .through, rest⟩
      else ⟨[.value message, .raised message], .threw, rest⟩) outcomes
  | .branch _ condition body other, outcomes =>
    test (.value condition) condition .waiting (fun holds rest =>
      if holds then body.perform rest else other.perform rest) outcomes
  | .whileLoop _ _ condition body, outcomes =>
    rounds (test (.value condition) condition (.done .waiting) fun holds rest =>
      if holds then (body.perform rest).inRound fun rest => ⟨[], .another, rest⟩
      else ⟨[], .done .through, rest⟩) (outcomes.length + 1) outcomes
  | .doLoop _ _ body condition, outcomes =>
    rounds (fun outcomes => (body.perform outcomes).inRound
      (test (.value condition) condition (.done .waiting) fun holds rest =>
        ⟨[], if holds then .another else .done .through, rest⟩)) (outcomes.length + 1) outcomes
  | .forLoop _ _ condition body step, outcomes =>
    rounds (test (.value condition) condition (.done .waiting) fun holds rest =>
      if holds then (body.perform rest).inRound fun rest => (step.perform rest).lastInRound
      else ⟨[], .done .through, rest⟩) (outcomes.length + 1) outcomes
  | .switch _ subject arms, outcomes => (arms.perform outcomes).after [.value subject]
  | .arm _ _ value body others, outcomes =>
    test (.compared value) value .waiting (fun holds rest =>
      if holds then body.perform rest else others.perform rest) outcomes
  | .giveBack note deed, outcomes => ⟨[.deed note deed], .returned, outcomes⟩
  | .throw _ value, outcomes => ⟨[.value value, .raised value], .threw, outcomes⟩
  | .leave _, outcomes => ⟨[], .left, outcomes⟩
  | .next _, outcomes => ⟨[], .again, outcomes⟩

end Flow

/-! ## Outcomes are used up -/

namespace Performance

variable {Note Value Last : Type} {performance : Performance Note Value Ending}

@[simp]
theorem last_after (happenings : List (Happening Note Value))
    (performance : Performance Note Value Last) :
    (performance.after happenings).last = performance.last :=
  rfl

@[simp]
theorem rest_after (happenings : List (Happening Note Value))
    (performance : Performance Note Value Last) :
    (performance.after happenings).rest = performance.rest :=
  rfl

@[simp]
theorem happenings_after (happenings : List (Happening Note Value))
    (performance : Performance Note Value Last) :
    (performance.after happenings).happenings = happenings ++ performance.happenings :=
  rfl

/-- No outcome is used that was not there. -/
def Within (outcomes : List Bool) (performance : Performance Note Value Last) : Prop :=
  performance.rest.length ≤ outcomes.length

theorem Within.test {computed : Happening Note Value} {value : Value} {waiting : Last}
    {next : Bool → List Bool → Performance Note Value Last}
    (within : ∀ holds rest, (next holds rest).Within rest) (outcomes : List Bool) :
    (Performance.test computed value waiting next outcomes).Within outcomes := by
  cases outcomes with
  | nil => exact Nat.le_refl 0
  | cons holds rest => exact Nat.le_succ_of_le (within holds rest)

theorem Within.andThen {next : List Bool → Performance Note Value Ending}
    (first : performance.Within outcomes) (second : ∀ rest, (next rest).Within rest) :
    (performance.andThen next).Within outcomes := by
  rcases performance with ⟨_, ending, rest⟩
  cases ending with
  | through => exact Nat.le_trans (second rest) first
  | _ => exact first

theorem Within.inRound {next : List Bool → Performance Note Value Turnover}
    (first : performance.Within outcomes) (second : ∀ rest, (next rest).Within rest) :
    (performance.inRound next).Within outcomes := by
  rcases performance with ⟨_, ending, rest⟩
  cases ending with
  | through | again => exact Nat.le_trans (second rest) first
  | _ => exact first

theorem Within.lastInRound (within : performance.Within outcomes) :
    performance.lastInRound.Within outcomes := by
  rcases performance with ⟨_, ending, rest⟩
  cases ending <;> exact within

theorem Within.rounds {round : List Bool → Performance Note Value Turnover}
    (within : ∀ outcomes, (round outcomes).Within outcomes) (bound : Nat)
    (outcomes : List Bool) :
    (Performance.rounds round bound outcomes).Within outcomes := by
  induction bound generalizing outcomes with
  | zero => exact Nat.le_refl _
  | succ bound ih =>
    unfold Performance.rounds
    split
    · exact Nat.le_trans (ih (round outcomes).rest) (within outcomes)
    · exact within outcomes

end Performance

open Performance in
theorem Flow.perform_within {Note Value : Type} (flow : Flow Note Value)
    (outcomes : List Bool) : (flow.perform outcomes).Within outcomes := by
  have still : ∀ (rest : List Bool) (happenings : List (Happening Note Value)) (last : Turnover),
      Performance.Within rest ⟨happenings, last, rest⟩ := fun rest _ _ => Nat.le_refl rest.length
  induction flow generalizing outcomes with
  | seq first second firstIh secondIh => exact (firstIh outcomes).andThen secondIh
  | within note scope line body ih | switch mark subject arms ih => exact ih outcomes
  | expect mark condition message =>
    refine Within.test (fun holds rest => ?_) outcomes
    cases holds <;> exact Nat.le_refl rest.length
  | branch mark condition body other bodyIh otherIh =>
    refine Within.test (fun holds rest => ?_) outcomes
    cases holds with
    | false => exact otherIh rest
    | true => exact bodyIh rest
  | whileLoop note mark condition body ih =>
    refine Within.rounds (Within.test fun holds rest => ?_) _ outcomes
    cases holds with
    | false => exact still rest _ _
    | true => exact (ih rest).inRound fun rest => still rest _ _
  | doLoop note mark body condition ih =>
    refine Within.rounds (fun outcomes => (ih outcomes).inRound ?_) _ outcomes
    exact Within.test fun holds rest => still rest _ _
  | forLoop note mark condition body step bodyIh stepIh =>
    refine Within.rounds (Within.test fun holds rest => ?_) _ outcomes
    cases holds with
    | false => exact still rest _ _
    | true => exact (bodyIh rest).inRound fun rest => (stepIh rest).lastInRound
  | arm mark index value body others bodyIh othersIh =>
    refine Within.test (fun holds rest => ?_) outcomes
    cases holds with
    | false => exact othersIh rest
    | true => exact bodyIh rest
  | _ => exact Nat.le_refl outcomes.length

/-! ## What does not depend on the code -/

namespace Performance

variable {Note Value OtherNote OtherValue Last : Type}

/-- Replace what the happenings know of their parts. -/
def map (note : Note → OtherNote) (value : Value → OtherValue)
    (performance : Performance Note Value Last) : Performance OtherNote OtherValue Last :=
  ⟨performance.happenings.map (Happening.map note value), performance.last, performance.rest⟩

variable (note : Note → OtherNote) (value : Value → OtherValue)

@[simp]
theorem last_map (performance : Performance Note Value Last) :
    (performance.map note value).last = performance.last :=
  rfl

theorem map_after (happenings : List (Happening Note Value))
    (performance : Performance Note Value Last) :
    (performance.after happenings).map note value =
      (performance.map note value).after (happenings.map (Happening.map note value)) := by
  simp [map, after]

theorem map_test (computed : Happening Note Value) (asked : Value) (waiting : Last)
    (next : Bool → List Bool → Performance Note Value Last) (outcomes : List Bool) :
    (test computed asked waiting next outcomes).map note value =
      test (computed.map note value) (value asked) waiting
        (fun holds rest => (next holds rest).map note value) outcomes := by
  cases outcomes with
  | nil => rfl
  | cons holds rest => exact map_after note value _ _

theorem map_andThen (performance : Performance Note Value Ending)
    (next : List Bool → Performance Note Value Ending) :
    (performance.andThen next).map note value =
      (performance.map note value).andThen fun rest => (next rest).map note value := by
  rcases performance with ⟨_, ending, rest⟩
  cases ending with
  | through => exact map_after note value _ _
  | _ => rfl

theorem map_inRound (performance : Performance Note Value Ending)
    (next : List Bool → Performance Note Value Turnover) :
    (performance.inRound next).map note value =
      (performance.map note value).inRound fun rest => (next rest).map note value := by
  rcases performance with ⟨_, ending, rest⟩
  cases ending with
  | through | again => exact map_after note value _ _
  | _ => rfl

theorem map_lastInRound (performance : Performance Note Value Ending) :
    performance.lastInRound.map note value = (performance.map note value).lastInRound := by
  rcases performance with ⟨_, ending, rest⟩
  cases ending <;> rfl

theorem map_rounds (round : List Bool → Performance Note Value Turnover) (bound : Nat)
    (outcomes : List Bool) :
    (rounds round bound outcomes).map note value =
      rounds (fun outcomes => (round outcomes).map note value) bound outcomes := by
  induction bound generalizing outcomes with
  | zero => rfl
  | succ bound ih =>
    unfold rounds
    cases turnover : (round outcomes).last with
    | another =>
      simp only [last_map, turnover, map_after, ih]
      rfl
    | done ending => simp [turnover, map]

end Performance

open Performance in
/-- Whatever is known of the parts of a flow, it does the same. -/
theorem Flow.perform_map {Note Value OtherNote OtherValue : Type} (note : Note → OtherNote)
    (value : Value → OtherValue) (flow : Flow Note Value) (outcomes : List Bool) :
    (flow.map note value).perform outcomes = (flow.perform outcomes).map note value := by
  induction flow generalizing outcomes with
  | seq first second firstIh secondIh =>
    simp only [Flow.map, perform, map_andThen, firstIh]
    congr
    funext rest
    exact secondIh rest
  | within span scope line body ih => exact ih outcomes
  | expect mark condition message =>
    simp only [Flow.map, perform, map_test]
    congr
    funext holds rest
    cases holds <;> rfl
  | branch mark condition body other bodyIh otherIh =>
    simp only [Flow.map, perform, map_test]
    congr
    funext holds rest
    cases holds with
    | false => exact otherIh rest
    | true => exact bodyIh rest
  | whileLoop span mark condition body ih =>
    simp only [Flow.map, perform, map_rounds, map_test]
    congr
    funext holds rest
    cases holds with
    | false => rfl
    | true =>
      simp only [if_true, ih, map_inRound]
      rfl
  | doLoop span mark body condition ih =>
    simp only [Flow.map, perform, map_rounds, map_inRound, map_test, ih]
    rfl
  | forLoop span mark condition body step bodyIh stepIh =>
    simp only [Flow.map, perform, map_rounds, map_test]
    congr
    funext holds rest
    cases holds with
    | false => rfl
    | true => simp [bodyIh, stepIh, map_inRound, map_lastInRound]
  | switch mark subject arms ih =>
    simp only [Flow.map, perform, map_after, ih]
    rfl
  | arm mark index compared body others bodyIh othersIh =>
    simp only [Flow.map, perform, map_test]
    congr
    funext holds rest
    cases holds with
    | false => exact othersIh rest
    | true => exact bodyIh rest
  | _ => rfl

end Covenant
