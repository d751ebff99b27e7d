import Covenant.Error

/-!
# Requests

Scopes, types and registers are kept in states that are changed by requests
only.  A request may fail; the next one then meets the state that it has left.
What every request keeps holds of all states that requests lead to.
-/

namespace Covenant

variable {State Request : Type}

/-- Where a mapped outcome is a value, so was the outcome. -/
theorem exists_of_map {Value Next : Type} {computed : Except Error Value} {next : Value → Next}
    {outcome : Next} (mapped : computed.map next = .ok outcome) :
    ∃ value, computed = .ok value ∧ next value = outcome := by
  cases computed with
  | error error => cases mapped
  | ok value => exact ⟨value, rfl, Except.ok.inj mapped⟩

/-! ## Steps of a change -/

namespace Change

variable {Outcome : Type} {change : Change State Outcome} {before after : State}
  {outcome : Outcome} {error : Error}

@[simp]
theorem get_bind (next : State → Change State Outcome) :
    (get >>= next : Change State Outcome) before = next before before :=
  rfl

theorem bind_run {First : Type} (first : Change State First) (next : First → Change State Outcome) :
    (first >>= next) before =
      match first before with
      | .ok outcome after => next outcome after
      | .error error after => .error error after := by
  simp only [bind, EStateM.bind]
  cases first before <;> rfl

/-! ## How a change ends -/

theorem outcome_of_run (run : change before = .ok outcome after) :
    change.outcome before = .ok (outcome, after) := by
  rw [Change.outcome, run]

theorem run_of_outcome (found : change.outcome before = .ok (outcome, after)) :
    change before = .ok outcome after := by
  unfold Change.outcome at found
  split at found
  · rename_i run
    cases found
    exact run
  · cases found

theorem failed_of_outcome (failed : change.outcome before = .error error) :
    ∃ after, change before = .error error after := by
  unfold Change.outcome at failed
  split at failed
  · cases failed
  · rename_i after run
    cases failed
    exact ⟨after, run⟩

/-- A change leaves every state in which it fails as it is. -/
def Cautious (change : Change State Outcome) : Prop :=
  ∀ before error after, change before = .error error after → after = before

/-- A cautious change keeps what it keeps where it succeeds. -/
theorem Cautious.state (cautious : change.Cautious) (property : State → Prop)
    (start : property before)
    (kept : ∀ outcome after, change before = .ok outcome after → property after) :
    property (change.state before) := by
  unfold Change.state
  split
  · rename_i outcome after run
    exact kept outcome after run
  · rename_i error after run
    exact cautious before error after run ▸ start

end Change

/-! ## Sequences of requests -/

/-- Requests that obey a rule lead from one state to the other. -/
inductive Reached (after : State → Request → State) (rule : State → Request → Prop)
    (origin : State) : State → Prop
  | start : Reached after rule origin origin
  | step {state : State} (request : Request) (reached : Reached after rule origin state)
      (obeys : rule state request) : Reached after rule origin (after state request)

end Covenant
