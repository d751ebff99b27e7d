import Covenant.Proofs.Layout
import Covenant.Proofs.Nesting

/-!
# Jumps do what the constructs say

The machine that steps through the code of a flow does what the flow performs.
A flow that comes to its end leads the machine behind its code; one that leaves
a loop, or goes on with the next round, leads it to a jump to the label of that
loop; in all other cases the run ends there.  This is proved construct by
construct, and for loops round by round.
-/

namespace Covenant

open Emission

/-- What can be seen of a happening when the code is run. -/
def Happening.sights : Happening Span Figure → List Sight
  | .deed span _ => span.places.map .ran
  | .value figure => figure.span.places.map .ran
  | .compared figure => figure.span.places.map .ran
  | .tested figure holds => [.asked figure.span.after.lines.length figure.register holds]
  | .raised figure => [.threw figure.span.after.lines.length figure.register]

/-- What can be seen of a performance. -/
def Performance.sights {Last : Type} (performance : Performance Span Figure Last) : List Sight :=
  performance.happenings.flatMap Happening.sights

@[simp]
theorem Performance.sights_after {Last : Type} (happenings : List (Happening Span Figure))
    (performance : Performance Span Figure Last) :
    (performance.after happenings).sights =
      happenings.flatMap Happening.sights ++ performance.sights := by
  simp [sights]

namespace Region

variable {region : Region} {exit : Label} {loops : LoopStack}

/-- The machine comes to a jump to the label. -/
def LeadsToJump (region : Region) (exit : Label) (place : Nat) (outcomes : List Bool)
    (sights : List Sight) (target? : Option Label) (rest : List Bool) : Prop :=
  ∃ target there, target? = some target ∧
    region.line? there = some (.instruction .jmp [.label target]) ∧
    region.Leads exit place outcomes sights there rest

/-- The machine does what is performed, and comes to where the performance ends. -/
def Follows (region : Region) (exit : Label) (loops : LoopStack) (after place : Nat)
    (outcomes : List Bool) (performance : Performance Span Figure Ending) : Prop :=
  match performance.last with
  | .through => region.Leads exit place outcomes performance.sights after performance.rest
  | .left =>
    region.LeadsToJump exit place outcomes performance.sights loops.breakLabel?
      performance.rest
  | .again =>
    region.LeadsToJump exit place outcomes performance.sights loops.continueLabel?
      performance.rest
  | ending => region.Runs exit place outcomes performance.sights ending performance.rest

/--
The machine does what is performed in a round, and comes back to the start of
the loop with less than `bound` outcomes, or to where the loop ends.
-/
def FollowsRound (region : Region) (exit : Label) (loops : LoopStack)
    (start bound after place : Nat)
    (outcomes : List Bool) (performance : Performance Span Figure Turnover) : Prop :=
  match performance.last with
  | .another =>
    region.Leads exit place outcomes performance.sights start performance.rest ∧
      performance.rest.length < bound
  | .done ending =>
    region.Follows exit loops after place outcomes { performance with last := ending }

variable {after place : Nat} {outcomes : List Bool}

variable {performance : Performance Span Figure Ending} {there start bound between : Nat}
  {rest : List Bool}

theorem LeadsToJump.before {last : List Bool} {sights later : List Sight} {target? : Option Label}
    (first : region.Leads exit place outcomes sights there rest)
    (second : region.LeadsToJump exit there rest later target? last) :
    region.LeadsToJump exit place outcomes (sights ++ later) target? last := by
  rcases second with ⟨target, jumping, found, stands, leads⟩
  exact ⟨target, jumping, found, stands, first.trans leads⟩

/-- Something has happened before. -/
theorem Follows.before {happenings : List (Happening Span Figure)}
    (first : region.Leads exit place outcomes (happenings.flatMap Happening.sights) there rest)
    (second : region.Follows exit loops after there rest performance) :
    region.Follows exit loops after place outcomes (performance.after happenings) := by
  unfold Follows at second ⊢
  rw [Performance.last_after, Performance.sights_after, Performance.rest_after]
  cases ending : performance.last with
  | through =>
    rw [ending] at second
    exact first.trans second
  | left | again =>
    rw [ending] at second
    exact LeadsToJump.before first second
  | returned | threw | waiting =>
    rw [ending] at second
    exact first _ _ _ second

/-- The machine has moved without anything to be seen. -/
theorem Follows.silently (first : region.Leads exit place outcomes [] there outcomes)
    (second : region.Follows exit loops after there outcomes performance) :
    region.Follows exit loops after place outcomes performance := by
  have nothing : ([] : List (Happening Span Figure)).flatMap Happening.sights = [] := rfl
  rw [← nothing] at first
  exact Follows.before first second

theorem FollowsRound.before {happenings : List (Happening Span Figure)}
    {performance : Performance Span Figure Turnover}
    (first : region.Leads exit place outcomes (happenings.flatMap Happening.sights) there rest)
    (second : region.FollowsRound exit loops start bound after there rest performance) :
    region.FollowsRound exit loops start bound after place outcomes
      (performance.after happenings) := by
  unfold FollowsRound at second ⊢
  rw [Performance.last_after, Performance.sights_after, Performance.rest_after]
  cases turnover : performance.last with
  | another =>
    rw [turnover] at second
    exact ⟨first.trans second.1, second.2⟩
  | done ending =>
    rw [turnover] at second
    exact Follows.before first second

theorem FollowsRound.silently {performance : Performance Span Figure Turnover}
    (first : region.Leads exit place outcomes [] there outcomes)
    (second : region.FollowsRound exit loops start bound after there outcomes performance) :
    region.FollowsRound exit loops start bound after place outcomes performance := by
  have nothing : ([] : List (Happening Span Figure)).flatMap Happening.sights = [] := rfl
  rw [← nothing] at first
  exact FollowsRound.before first second

/-- What follows the code is reached as well. -/
theorem Follows.onward {later : Nat}
    (follows : region.Follows exit loops after place outcomes performance)
    (leads : ∀ rest, region.Leads exit after rest [] later rest) :
    region.Follows exit loops later place outcomes performance := by
  unfold Follows at follows ⊢
  cases ending : performance.last with
  | through =>
    rw [ending] at follows
    have beyond := follows.trans (leads performance.rest)
    rwa [List.append_nil] at beyond
  | _ =>
    rw [ending] at follows
    exact follows

/-- One thing after the other. -/
theorem Follows.andThen {next : List Bool → Performance Span Figure Ending}
    (first : region.Follows exit loops between place outcomes performance)
    (second : ∀ rest, region.Follows exit loops after between rest (next rest)) :
    region.Follows exit loops after place outcomes (performance.andThen next) := by
  unfold Performance.andThen
  cases ending : performance.last with
  | through =>
    unfold Follows at first
    rw [ending] at first
    exact Follows.before first (second performance.rest)
  | _ =>
    unfold Follows at first ⊢
    rw [ending] at first ⊢
    exact first

/-! ## Rounds -/

/-- Round by round, a loop does what its rounds do. -/
theorem Follows.rounds {round : List Bool → Performance Span Figure Turnover}
    (follows : ∀ outcomes, region.FollowsRound exit loops start outcomes.length after start
      outcomes (round outcomes)) (enough : outcomes.length < bound) :
    region.Follows exit loops after start outcomes (Performance.rounds round bound outcomes) := by
  induction bound generalizing outcomes with
  | zero => omega
  | succ bound ih =>
    have first := follows outcomes
    unfold FollowsRound at first
    unfold Performance.rounds
    cases turnover : (round outcomes).last with
    | another =>
      rw [turnover] at first
      exact Follows.before first.1 (ih (by omega))
    | done ending =>
      rw [turnover] at first
      exact first

/-- The body of a loop, and what follows it in the round. -/
theorem Follows.inRound {breaking continuing : Label} {ended turning : Nat}
    {next : List Bool → Performance Span Figure Turnover}
    (body : region.Follows exit (loops.enter breaking continuing) between place outcomes
      performance)
    (labelled : region.Labelled) (breaks : region.line? ended = some (.label breaking))
    (continues : region.line? turning = some (.label continuing))
    (through : ∀ rest, region.Leads exit between rest [] turning rest)
    (further : region.FollowsRound exit loops start bound (ended + 1) turning performance.rest
      (next performance.rest)) :
    region.FollowsRound exit loops start bound (ended + 1) place outcomes
      (performance.inRound next) := by
  unfold Follows at body
  unfold Performance.inRound
  cases ending : performance.last with
  | through =>
    rw [ending] at body
    refine FollowsRound.before ?_ further
    have arrived := body.trans (through performance.rest)
    rwa [List.append_nil] at arrived
  | again =>
    rw [ending] at body
    rcases body with ⟨target, there, found, stands, leads⟩
    cases found
    refine FollowsRound.before ?_ further
    have arrived := leads.trans (Leads.jump labelled stands continues performance.rest)
    rwa [List.append_nil] at arrived
  | left =>
    rw [ending] at body
    rcases body with ⟨target, there, found, stands, leads⟩
    cases found
    have arrived := (leads.trans (Leads.jump labelled stands breaks performance.rest)).trans
      (Leads.label breaks performance.rest)
    rwa [List.append_nil, List.append_nil] at arrived
  | _ =>
    rw [ending] at body
    exact body

/-- The last part of a round. -/
theorem Follows.lastInRound (step : region.Follows exit loops between place outcomes performance)
    (back : ∀ rest, region.Leads exit between rest [] start rest)
    (fewer : performance.rest.length < bound) :
    region.FollowsRound exit loops start bound after place outcomes performance.lastInRound := by
  unfold Follows at step
  unfold Performance.lastInRound
  cases ending : performance.last with
  | through =>
    rw [ending] at step
    have arrived := step.trans (back performance.rest)
    rw [List.append_nil] at arrived
    exact ⟨arrived, fewer⟩
  | _ =>
    rw [ending] at step
    exact step

/-! ## Decisions -/

/--
The machine computes a value and asks for its outcome; from there it goes one
way if the outcome is `holds` and another way if it is not.
-/
structure Decides (region : Region) (exit : Label) (computed : Happening Span Figure)
    (figure : Figure) (holds : Bool) (place taken onward : Nat) : Prop where
  waits : region.Runs exit place [] computed.sights .waiting []
  turns : ∀ outcome rest, region.Leads exit place (outcome :: rest)
    (computed.sights ++ (Happening.tested figure outcome).sights)
    (if outcome = holds then taken else onward) rest

theorem decides_of_laid (labelled : region.Labelled) (exit : Label) {subject : Option Register}
    {holds : Bool} {target : Label} {line taken onward : Nat} {figure : Figure}
    (computed : Happening Span Figure) (seen : computed.sights = figure.span.places.map .ran)
    (laid : Laid region (tested subject holds target line figure) place onward)
    (lands : region.line? taken = some (.label target)) :
    region.Decides exit computed figure holds place taken onward := by
  rcases laid with ⟨middle, span, next, ⟨stands, rfl⟩, _, rfl, rfl⟩
  have asks : ∀ outcomes, region.step exit middle outcomes =
      region.decision exit middle holds figure.register target outcomes := by
    intro outcomes
    rw [step_of_line stands]
    cases holds <;> rfl
  constructor
  · rw [seen, ← List.append_nil (List.map _ _)]
    exact span.leads exit [] _ _ _ (.stop (asks []))
  · intro outcome rest
    rw [seen]
    refine (span.leads exit (outcome :: rest)).trans (Leads.of_step ?_)
    rw [asks, decision, jump, place?_of_line labelled lands, Happening.sights, span.ends]
    split <;> rfl

namespace Decides

variable {computed : Happening Span Figure} {figure : Figure} {holds : Bool} {taken onward : Nat}

theorem follows (decides : region.Decides exit computed figure holds place taken onward)
    {next : Bool → List Bool → Performance Span Figure Ending}
    (further : ∀ outcome rest, region.Follows exit loops after
      (if outcome = holds then taken else onward) rest (next outcome rest))
    (outcomes : List Bool) :
    region.Follows exit loops after place outcomes
      (Performance.test computed figure .waiting next outcomes) := by
  cases outcomes with
  | nil =>
    show region.Runs exit place [] ([computed].flatMap Happening.sights) .waiting []
    simpa using decides.waits
  | cons outcome rest =>
    refine Follows.before ?_ (further outcome rest)
    simpa using decides.turns outcome rest

theorem followsRound (decides : region.Decides exit computed figure holds place taken onward)
    {next : Bool → List Bool → Performance Span Figure Turnover}
    (further : ∀ outcome rest, rest.length < outcomes.length →
      region.FollowsRound exit loops start bound after
        (if outcome = holds then taken else onward) rest (next outcome rest)) :
    region.FollowsRound exit loops start bound after place outcomes
      (Performance.test computed figure (.done .waiting) next outcomes) := by
  cases outcomes with
  | nil =>
    show region.Runs exit place [] ([computed].flatMap Happening.sights) .waiting []
    simpa using decides.waits
  | cons outcome rest =>
    refine FollowsRound.before ?_ (further outcome rest (Nat.lt_succ_self _))
    simpa using decides.turns outcome rest

end Decides

/-- The machine computes a value and throws it. -/
theorem runs_throw {thrown : Nat} {figure : Figure}
    (computes : figure.span.Laid region place thrown)
    (throws : region.line? thrown = some (Turn.throw figure.register).line)
    (outcomes : List Bool) :
    region.Runs exit place outcomes
      ([Happening.value figure, .raised figure].flatMap Happening.sights) .threw outcomes := by
  have stops : region.step exit thrown outcomes =
      some (.stop [.threw thrown figure.register] .threw) := by
    rw [step_of_line throws]
    rfl
  simpa [Happening.sights, computes.ends] using computes.leads exit outcomes _ _ _ (.stop stops)

end Region

/-! ## Flows -/

open Region

/--
The machine that steps through the code of a flow does what the flow performs.
If the flow is the cases of a switch, the end of the switch stands behind it.
-/
theorem Flow.follows {region : Region} {exit : Label} (labelled : region.Labelled)
    (outside : region.place? exit = none) (emitted : EmittedFlow) {loops : LoopStack}
    {subject : Register} {switch? : Option Nat} {place after : Nat}
    (laid : Laid region (emitted.steps exit loops subject) place after)
    (enclosed : emitted.Enclosed (!loops.isEmpty)) (wired : emitted.Wired switch?)
    (ended : ∀ id, switch? = some id → region.line? after = some (.label (.caseEnd id)))
    (outcomes : List Bool) :
    region.Follows exit loops after place outcomes (emitted.perform outcomes) := by
  induction emitted generalizing loops subject switch? place after outcomes with
  | skip =>
    cases laid
    exact Leads.refl place outcomes
  | simple span deed =>
    rcases laid with ⟨_, stands, rfl⟩
    show region.Leads exit place outcomes ([Happening.deed span deed].flatMap Happening.sights) _
      outcomes
    simpa [Happening.sights] using stands.leads exit outcomes
  | seq first second firstIh secondIh =>
    rcases laid.split with ⟨between, left, right⟩
    refine (firstIh left enclosed.1 wired.1 nofun outcomes).andThen fun rest => ?_
    exact secondIh right enclosed.2 wired.2 nofun rest
  | within span scope line body ih =>
    rcases laid.split with ⟨_, front, _, rfl, _, rfl, rfl⟩
    rcases front.split with ⟨_, ⟨_, rfl, _, rfl, rfl⟩, inner⟩
    exact ih inner enclosed wired nofun outcomes
  | expect mark condition message =>
    rcases laid with ⟨asked, computes, _, ⟨asks, rfl⟩, thrown, words, _, ⟨throws, rfl⟩, _, rfl,
      _, ⟨lands, rfl⟩, _, rfl, rfl⟩
    have test : Laid region (tested none true (.expectation mark.id) mark.line condition) place
        (asked + 1) := ⟨asked, computes, asked + 1, ⟨asks, rfl⟩, asked + 1, rfl, rfl⟩
    have decides := decides_of_laid labelled exit (.value condition) rfl test lands
    refine decides.follows (fun outcome rest => ?_) outcomes
    cases outcome with
    | true => exact Leads.label lands rest
    | false => exact runs_throw words throws rest
  | branch mark condition body other bodyIh otherIh =>
    rcases laid.split with ⟨joined, untilJoined, _, ⟨joins, rfl⟩, rfl⟩
    rcases untilJoined.split with ⟨_, untilOther, second⟩
    rcases untilOther.split with ⟨jumping, untilJump, _, ⟨jumps, rfl⟩, _, ⟨lands, rfl⟩, rfl⟩
    rcases untilJump.split with ⟨decided, test, first⟩
    have decides := decides_of_laid labelled exit (.value condition) rfl test lands
    refine decides.follows (fun outcome rest => ?_) outcomes
    cases outcome with
    | true =>
      refine (bodyIh first enclosed.1 wired.1 nofun rest).onward fun rest => ?_
      exact (Leads.jump labelled jumps joins rest).trans (Leads.label joins rest)
    | false =>
      refine Follows.silently (Leads.label lands rest) ?_
      refine (otherIh second enclosed.2 wired.2 nofun rest).onward fun rest => ?_
      exact Leads.label joins rest
  | whileLoop span mark condition body ih =>
    rcases laid.split with ⟨jumping, untilJump, _, ⟨jumps, rfl⟩, _, ⟨ends, rfl⟩, _, rfl, rfl⟩
    rcases untilJump.split with ⟨decided, untilDecided, inner⟩
    rcases untilDecided.split with ⟨_, ⟨_, rfl, _, ⟨starts, rfl⟩, rfl⟩, test⟩
    have decides := decides_of_laid labelled exit (.value condition) rfl test ends
    refine Follows.rounds (fun outcomes => ?_) (Nat.lt_succ_self outcomes.length)
    refine FollowsRound.silently (Leads.label starts outcomes) ?_
    refine decides.followsRound fun outcome rest fewer => ?_
    cases outcome with
    | true =>
      refine (ih inner enclosed wired nofun rest).inRound labelled ends starts
        (Leads.jump labelled jumps starts) ?_
      exact ⟨Leads.refl _ _, Nat.lt_of_le_of_lt (body.perform_within rest) fewer⟩
    | false => exact Leads.label ends rest
  | doLoop span mark body condition ih =>
    rcases laid.split with ⟨ending, untilEnd, _, ⟨ends, rfl⟩, _, rfl, rfl⟩
    rcases untilEnd.split with ⟨_, untilTest, test⟩
    rcases untilTest.split with ⟨continued, untilContinued, _, ⟨continues, rfl⟩, rfl⟩
    rcases untilContinued.split with ⟨_, ⟨_, rfl, _, ⟨starts, rfl⟩, rfl⟩, inner⟩
    have decides := decides_of_laid labelled exit (.value condition) rfl test starts
    refine Follows.rounds (fun outcomes => ?_) (Nat.lt_succ_self outcomes.length)
    refine FollowsRound.silently (Leads.label starts outcomes) ?_
    refine (ih inner enclosed wired nofun outcomes).inRound labelled ends continues
      (Leads.refl continued) ?_
    refine FollowsRound.silently (Leads.label continues _) ?_
    refine decides.followsRound fun outcome rest fewer => ?_
    cases outcome with
    | true =>
      exact ⟨Leads.refl _ _, Nat.lt_of_lt_of_le fewer (body.perform_within outcomes)⟩
    | false => exact Leads.label ends rest
  | forLoop span mark condition body step bodyIh stepIh =>
    rcases laid.split with ⟨jumping, untilJump, _, ⟨jumps, rfl⟩, _, ⟨ends, rfl⟩, _, rfl, rfl⟩
    rcases untilJump.split with ⟨_, untilStep, stepping⟩
    rcases untilStep.split with ⟨continued, untilContinued, _, ⟨continues, rfl⟩, rfl⟩
    rcases untilContinued.split with ⟨decided, untilDecided, inner⟩
    rcases untilDecided.split with ⟨_, ⟨_, rfl, _, ⟨starts, rfl⟩, rfl⟩, test⟩
    have decides := decides_of_laid labelled exit (.value condition) rfl test ends
    refine Follows.rounds (fun outcomes => ?_) (Nat.lt_succ_self outcomes.length)
    refine FollowsRound.silently (Leads.label starts outcomes) ?_
    refine decides.followsRound fun outcome rest fewer => ?_
    cases outcome with
    | true =>
      rw [if_neg Bool.noConfusion, if_pos rfl]
      refine (bodyIh inner enclosed.1 wired.1 nofun rest).inRound labelled ends continues
        (Leads.refl continued) ?_
      refine FollowsRound.silently (Leads.label continues _) ?_
      refine (stepIh stepping enclosed.2 wired.2 nofun _).lastInRound ?_ ?_
      · intro rest
        exact Leads.jump labelled jumps starts rest
      · have stepped := step.perform_within (body.perform rest).rest
        exact Nat.lt_of_le_of_lt (Nat.le_trans stepped (body.perform_within rest)) fewer
    | false => exact Leads.label ends rest
  | switch mark value arms ih =>
    rcases laid.split with ⟨ending, untilEnd, _, ⟨ends, rfl⟩, _, rfl, rfl⟩
    rcases untilEnd.split with ⟨_, ⟨_, computes, rfl⟩, inner⟩
    refine Follows.before (by simpa [Happening.sights] using computes.leads exit outcomes) ?_
    refine (ih inner enclosed wired ?_ outcomes).onward (Leads.label ends)
    rintro id same
    cases same
    exact ends
  | arm mark index value body others bodyIh othersIh =>
    rcases laid.split with ⟨_, untilOthers, second⟩
    rcases untilOthers.split with ⟨jumping, untilJump, _, ⟨jumps, rfl⟩, _, ⟨lands, rfl⟩, rfl⟩
    rcases untilJump.split with ⟨decided, test, first⟩
    have decides := decides_of_laid labelled exit (.compared value) rfl test lands
    refine decides.follows (fun outcome rest => ?_) outcomes
    cases outcome with
    | true =>
      refine (bodyIh first enclosed.1 wired.2.1 nofun rest).onward fun rest => ?_
      exact Leads.jump labelled jumps (ended mark.id wired.1) rest
    | false =>
      refine Follows.silently (Leads.label lands rest) ?_
      exact othersIh second enclosed.2 wired.2.2 ended rest
  | giveBack span deed =>
    rcases laid with ⟨returning, stands, _, ⟨jumps, rfl⟩, rfl⟩
    have stops : region.step exit returning outcomes = some (.stop [] .returned) := by
      rw [step_of_line jumps]
      show region.jump exit exit [] outcomes = _
      rw [Region.jump, outside, if_pos rfl]
    show region.Runs exit place outcomes ([Happening.deed span deed].flatMap Happening.sights)
      .returned outcomes
    simpa [Happening.sights] using stands.leads exit outcomes _ _ _ (.stop stops)
  | throw line value =>
    rcases laid with ⟨thrown, computes, _, ⟨throws, rfl⟩, _, rfl, rfl⟩
    exact runs_throw computes throws outcomes
  | leave line =>
    cases loops with
    | nil => cases enclosed
    | cons inner outer =>
      rcases laid with ⟨_, ⟨stands, rfl⟩, rfl⟩
      exact ⟨inner.breakLabel, place, rfl, stands, Leads.refl place outcomes⟩
  | next line =>
    cases loops with
    | nil => cases enclosed
    | cons inner outer =>
      rcases laid with ⟨_, ⟨stands, rfl⟩, rfl⟩
      exact ⟨inner.continueLabel, place, rfl, stands, Leads.refl place outcomes⟩

end Covenant
