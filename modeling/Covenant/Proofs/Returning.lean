import Covenant.Proofs.BalancedBodies

/-!
# Bodies that give back a value

Whether every way through a body ends in a return or a throw is told from its
statements, where no loop counts and a jump out of a loop ends the search.  A
jump that has no loop around it is not found then, but only when the code is
emitted.  `body_returns` says that both checks together are enough.

How a flow ends fits what happened last in it.  This is kept by every construct,
and a loop takes the jumps that belong to it.
-/

namespace Covenant

/-- The ending fits what happened last; a jump to a loop needs one around it. -/
def Ending.Closes (inLoop : Bool) (happenings : List (Happening Unit Expr)) : Ending → Prop
  | .through | .waiting => True
  | .left | .again => inLoop = true
  | .returned => ∃ line value, happenings.getLast? = some (.deed () (.result line (some value)))
  | .threw => ∃ value, happenings.getLast? = some (.raised value)

/-- If a round is the last one of its loop, the ending fits what happened last. -/
def Turnover.Closes (inLoop : Bool) (happenings : List (Happening Unit Expr)) : Turnover → Prop
  | .another => True
  | .done ending => ending.Closes inLoop happenings

variable {inLoop : Bool} {performance : Performance Unit Expr Ending}

theorem Ending.Closes.after {ending : Ending} {happenings : List (Happening Unit Expr)}
    (closes : ending.Closes inLoop happenings) (earlier : List (Happening Unit Expr)) :
    ending.Closes inLoop (earlier ++ happenings) := by
  cases ending with
  | returned =>
    rcases closes with ⟨line, value, last⟩
    exact ⟨line, value, by simp [last]⟩
  | threw =>
    rcases closes with ⟨value, last⟩
    exact ⟨value, by simp [last]⟩
  | _ => exact closes

theorem Turnover.Closes.after {turnover : Turnover} {happenings : List (Happening Unit Expr)}
    (closes : turnover.Closes inLoop happenings) (earlier : List (Happening Unit Expr)) :
    turnover.Closes inLoop (earlier ++ happenings) := by
  cases turnover with
  | another => trivial
  | done ending => exact Ending.Closes.after closes earlier

namespace Performance

/-- How the flow ended fits what happened last. -/
def Closes (inLoop : Bool) (performance : Performance Unit Expr Ending) : Prop :=
  performance.last.Closes inLoop performance.happenings

/-- What follows the round fits what happened last. -/
def RoundCloses (inLoop : Bool) (performance : Performance Unit Expr Turnover) : Prop :=
  performance.last.Closes inLoop performance.happenings

theorem Closes.test {computed : Happening Unit Expr} {value : Expr}
    {next : Bool → List Bool → Performance Unit Expr Ending}
    (closes : ∀ holds rest, (next holds rest).Closes inLoop) (outcomes : List Bool) :
    (Performance.test computed value .waiting next outcomes).Closes inLoop := by
  cases outcomes with
  | nil => trivial
  | cons holds rest => exact (closes holds rest).after _

theorem RoundCloses.test {computed : Happening Unit Expr} {value : Expr}
    {next : Bool → List Bool → Performance Unit Expr Turnover}
    (closes : ∀ holds rest, (next holds rest).RoundCloses inLoop) (outcomes : List Bool) :
    (Performance.test computed value (.done .waiting) next outcomes).RoundCloses inLoop := by
  cases outcomes with
  | nil => trivial
  | cons holds rest => exact (closes holds rest).after _

theorem Closes.andThen {next : List Bool → Performance Unit Expr Ending}
    (first : performance.Closes inLoop) (second : ∀ rest, (next rest).Closes inLoop) :
    (performance.andThen next).Closes inLoop := by
  unfold Performance.andThen
  split
  · exact (second performance.rest).after _
  · exact first

/-- The jumps to a loop end in it. -/
theorem Closes.inRound {next : List Bool → Performance Unit Expr Turnover}
    (first : performance.Closes true) (second : ∀ rest, (next rest).RoundCloses inLoop) :
    (performance.inRound next).RoundCloses inLoop := by
  unfold Closes at first
  unfold Performance.inRound
  cases ending : performance.last with
  | through | again => exact (second performance.rest).after _
  | left | waiting => trivial
  | returned | threw =>
    rw [ending] at first
    exact first

theorem Closes.lastInRound (closes : performance.Closes inLoop) :
    performance.lastInRound.RoundCloses inLoop := by
  unfold Performance.lastInRound
  split
  · trivial
  · exact closes

theorem RoundCloses.rounds {round : List Bool → Performance Unit Expr Turnover}
    (closes : ∀ outcomes, (round outcomes).RoundCloses inLoop) (bound : Nat)
    (outcomes : List Bool) : (Performance.rounds round bound outcomes).Closes inLoop := by
  induction bound generalizing outcomes with
  | zero => trivial
  | succ bound ih =>
    have once := closes outcomes
    unfold RoundCloses at once
    unfold Performance.rounds
    cases turnover : (round outcomes).last with
    | another => exact (ih (round outcomes).rest).after _
    | done ending =>
      rw [turnover] at once
      exact once

end Performance

open Performance in
/-- A flow whose results are values ends in a value or a throw where it ends early. -/
theorem Flow.perform_closes (flow : Plan) (enclosed : flow.Enclosed inLoop)
    (answers : flow.Answers 1) (outcomes : List Bool) :
    (flow.perform outcomes).Closes inLoop := by
  induction flow generalizing inLoop outcomes with
  | seq first second firstIh secondIh =>
    exact (firstIh enclosed.1 answers.1 outcomes).andThen (secondIh enclosed.2 answers.2)
  | within _ scope line body ih => exact ih enclosed answers outcomes
  | expect mark condition message =>
    refine Closes.test (fun holds rest => ?_) outcomes
    cases holds with
    | false => exact ⟨message, rfl⟩
    | true => trivial
  | branch mark condition body other bodyIh otherIh =>
    refine Closes.test (fun holds rest => ?_) outcomes
    cases holds with
    | false => exact otherIh enclosed.2 answers.2 rest
    | true => exact bodyIh enclosed.1 answers.1 rest
  | whileLoop _ mark condition body ih =>
    refine RoundCloses.rounds (RoundCloses.test fun holds rest => ?_) _ outcomes
    cases holds with
    | false => trivial
    | true => exact (ih enclosed answers rest).inRound fun _ => trivial
  | doLoop _ mark body condition ih =>
    refine RoundCloses.rounds (fun outcomes => (ih enclosed answers outcomes).inRound ?_) _ outcomes
    refine RoundCloses.test fun holds rest => ?_
    cases holds <;> trivial
  | forLoop _ mark condition body step bodyIh stepIh =>
    refine RoundCloses.rounds (RoundCloses.test fun holds rest => ?_) _ outcomes
    cases holds with
    | false => trivial
    | true =>
      exact (bodyIh enclosed.1 answers.1 rest).inRound fun rest =>
        (stepIh enclosed.2 answers.2 rest).lastInRound
  | switch mark subject arms ih => exact (ih enclosed answers outcomes).after [.value subject]
  | arm mark index value body others bodyIh othersIh =>
    refine Closes.test (fun holds rest => ?_) outcomes
    cases holds with
    | false => exact othersIh enclosed.2 answers.2 rest
    | true => exact bodyIh enclosed.1 answers.1 rest
  | giveBack _ task =>
    cases task with
    | result line value =>
      cases value with
      | some value => exact ⟨line, value, rfl⟩
      | none => cases answers
    | _ => cases answers
  | throw line value => exact ⟨value, rfl⟩
  | leave line => exact enclosed
  | next line => exact enclosed
  | _ => trivial

namespace Performance

/-- The last thing done is to give back a value. -/
def GivesValue (performance : Performance Unit Expr Ending) : Prop :=
  performance.last = .returned ∧ ∃ line value,
    performance.happenings.getLast? = some (.deed () (.result line (some value)))

/-- The last thing done is to throw a value. -/
def ThrowsValue (performance : Performance Unit Expr Ending) : Prop :=
  performance.last = .threw ∧ ∃ value, performance.happenings.getLast? = some (.raised value)

theorem Closes.gives_or_throws (closes : performance.Closes false)
    (turns : performance.last ≠ .through) (ends : performance.last ≠ .waiting) :
    performance.GivesValue ∨ performance.ThrowsValue := by
  unfold Closes at closes
  cases ending : performance.last with
  | through => exact absurd ending turns
  | waiting => exact absurd ending ends
  | left | again =>
    rw [ending] at closes
    cases closes
  | returned =>
    rw [ending] at closes
    exact .inl ⟨ending, closes⟩
  | threw =>
    rw [ending] at closes
    exact .inr ⟨ending, closes⟩

end Performance

namespace Emission

/--
A body with a type does not come to its end, however its tests turn out and
however often its loops run.  If it ends, it gives back a value or throws one.
-/
theorem body_returns {interface? : String → Option Interface} {source : String}
    {program : Program} {env : Env} {module : Module} {body : Body} {returns : Ty}
    {start finish : Generator} (accepted : Program.read interface? source = .ok program)
    (emits : program.Emits env module body start finish)
    (promised : (body, returns) ∈ module.promises) (typed : returns ≠ .none)
    (outcomes : List Bool) :
    (body.block.flow.perform outcomes).last ≠ .through ∧
      ((body.block.flow.perform outcomes).last ≠ .waiting →
        (body.block.flow.perform outcomes).GivesValue ∨
          (body.block.flow.perform outcomes).ThrowsValue) := by
  rcases emits.listed with ⟨top, among, listed⟩
  rcases Module.fulfilled (read_typed accepted top among module listed)
    ((read_composed accepted).1 top among module listed) promised with ⟨fits, complete⟩
  have turns := Stmt.turns_flow.2.2 body.block.statements (complete typed) outcomes
  have unanswered : Unanswered returns body.block := fun none => absurd none typed
  have answers := Stmt.answers_flow.2.2 body.block.statements (unanswered.answers fits)
  rw [decide_eq_true typed] at answers
  have ends := emits.ends
  rw [inMethod_eq env (.exit body.name) body.block noSubject] at ends
  have closes := Flow.perform_closes body.block.flow (Flow.enclosed_of_ends _ ends) answers outcomes
  exact ⟨turns, closes.gives_or_throws turns⟩

/-- If the loop has no rounds, the method gives back a value. -/
theorem body_returns_everyTurn :
    ∃ program env module body start finish,
      Program.read (fun _ => none) (String.join everyTurn) = .ok program ∧
      program.Emits env module body start finish ∧ (body, .number) ∈ module.promises ∧
      (body.block.flow.perform [true, false]).GivesValue := by
  have holds : hasPromise (fun _ returns block => returns = .number &&
      (block.flow.perform [true, false]).last = .returned) everyTurn = true := by
    decide +kernel
  rcases exists_promise holds with
    ⟨program, env, module, body, returns, start, finish, accepted, emits, promised, -, passes⟩
  rw [Bool.and_eq_true, decide_eq_true_eq, decide_eq_true_eq] at passes
  rcases passes with ⟨rfl, last⟩
  refine ⟨program, env, module, body, start, finish, accepted, emits, promised, ?_⟩
  have closes := (body_returns accepted emits promised nofun [true, false]).2
  rw [last] at closes
  refine (closes nofun).resolve_right fun throws => ?_
  cases last.symm.trans throws.1

end Emission

end Covenant
