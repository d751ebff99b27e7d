import Covenant.Proofs.Control

/-!
# Acts

What a flow performs depends on the outcomes of its tests.  An `Act` is this
dependence, and the constructs of a flow are ways to put acts together: one act
goes on where the other ends, a test chooses between two, and a loop is one
round and what it leads to.  An act that has ended is fixed by the outcomes it
has used, so outcomes for two acts give outcomes for both, one after the other.
-/

namespace Covenant

/-- What is done if the tests turn out as the outcomes say. -/
abbrev Act (Note Value Last : Type) := List Bool → Performance Note Value Last

namespace Act

variable {Note Value Last Other : Type} {round : Act Note Value Turnover}

/-- Do nothing more. -/
def ended (happenings : List (Happening Note Value)) (last : Last) : Act Note Value Last :=
  fun outcomes => ⟨happenings, last, outcomes⟩

/-- Go on as the end of the first act says. -/
def bind (act : Act Note Value Last) (next : Last → Act Note Value Other) :
    Act Note Value Other :=
  fun outcomes => (next (act outcomes).last (act outcomes).rest).after (act outcomes).happenings

/-- Go on with another act only behind the end of a flow. -/
def afterThrough (next : Act Note Value Ending) : Ending → Act Note Value Ending
  | .through => next
  | ending => ended [] ending

/-- Go on with another act in the round of a loop. -/
def afterBody (next : Act Note Value Turnover) : Ending → Act Note Value Turnover
  | .through | .again => next
  | .left => ended [] (.done .through)
  | ending => ended [] (.done ending)

/-- Start another round behind the end of a flow. -/
def afterStep : Ending → Act Note Value Turnover
  | .through => ended [] .another
  | ending => ended [] (.done ending)

/-- The rounds of a loop, as many as there can be. -/
def loop (round : Act Note Value Turnover) : Act Note Value Ending :=
  fun outcomes => Performance.rounds round (outcomes.length + 1) outcomes

theorem andThen_eq (act next : Act Note Value Ending) :
    (fun outcomes => (act outcomes).andThen next) = act.bind (afterThrough next) := by
  funext outcomes
  unfold Performance.andThen bind
  rcases act outcomes with ⟨happenings, ending, rest⟩
  cases ending <;> simp [afterThrough, ended, Performance.after]

theorem inRound_eq (act : Act Note Value Ending) (next : Act Note Value Turnover) :
    (fun outcomes => (act outcomes).inRound next) = act.bind (afterBody next) := by
  funext outcomes
  unfold Performance.inRound bind
  cases (act outcomes).last <;> simp [afterBody, ended, Performance.after]

theorem lastInRound_eq (act : Act Note Value Ending) :
    (fun outcomes => (act outcomes).lastInRound) = act.bind afterStep := by
  funext outcomes
  unfold Performance.lastInRound bind
  cases (act outcomes).last <;> simp [afterStep, ended, Performance.after]

/-! ## Outcomes that are not used -/

/-- What is done does not depend on the outcomes that have not been used. -/
def Fixed (act : Act Note Value Last) (outcomes : List Bool) : Prop :=
  ∃ used, outcomes = used ++ (act outcomes).rest ∧
    ∀ more, act (used ++ more) = ⟨(act outcomes).happenings, (act outcomes).last, more⟩

/-- An act that does not wait for an outcome is fixed by those it has used. -/
def Thrifty (waiting : Last) (act : Act Note Value Last) : Prop :=
  ∀ outcomes, (act outcomes).last ≠ waiting → act.Fixed outcomes

theorem Thrifty.ended (happenings : List (Happening Note Value)) (waiting last : Last) :
    Thrifty waiting (ended happenings last) :=
  fun _ _ => ⟨[], rfl, fun _ => rfl⟩

theorem Thrifty.test {computed : Happening Note Value} {value : Value} {waiting : Last}
    {next : Bool → Act Note Value Last} (thrifty : ∀ holds, Thrifty waiting (next holds)) :
    Thrifty waiting (Performance.test computed value waiting next) := by
  intro outcomes ends
  cases outcomes with
  | nil => exact absurd rfl ends
  | cons holds rest =>
    rcases thrifty holds rest ends with ⟨used, split, same⟩
    refine ⟨holds :: used, congrArg (holds :: ·) split, fun more => ?_⟩
    rw [List.cons_append, Performance.test, same]
    rfl

theorem Fixed.bind {act : Act Note Value Last} {next : Last → Act Note Value Other}
    {outcomes : List Bool} (first : act.Fixed outcomes)
    (second : (next (act outcomes).last).Fixed (act outcomes).rest) :
    (act.bind next).Fixed outcomes := by
  rcases first with ⟨used, split, same⟩
  rcases second with ⟨later, splitLater, sameLater⟩
  refine ⟨used ++ later, ?_, fun more => ?_⟩
  · rw [List.append_assoc]
    exact split.trans (congrArg (used ++ ·) splitLater)
  · simp only [List.append_assoc, Act.bind, same, sameLater]
    rfl

theorem Thrifty.bind {waiting : Last} {stuck : Other} {act : Act Note Value Last}
    {next : Last → Act Note Value Other} (first : Thrifty waiting act)
    (second : ∀ last, Thrifty stuck (next last)) (waits : next waiting = Act.ended [] stuck) :
    Thrifty stuck (act.bind next) := by
  intro outcomes ends
  refine (first outcomes ?_).bind (second _ _ ends)
  intro last
  apply ends
  simp only [Act.bind, last, waits]
  rfl

/-- A round that leads to another one uses an outcome. -/
def Eager (round : Act Note Value Turnover) : Prop :=
  ∀ outcomes, (round outcomes).last = .another → (round outcomes).rest.length < outcomes.length

/-- More rounds than there are outcomes make no difference. -/
theorem rounds_eq (eager : Eager round) {bound other : Nat} {outcomes : List Bool}
    (enough : outcomes.length < bound) (alsoEnough : outcomes.length < other) :
    Performance.rounds round bound outcomes = Performance.rounds round other outcomes := by
  induction bound generalizing other outcomes with
  | zero => exact absurd enough (Nat.not_lt_zero _)
  | succ bound ih =>
    cases other with
    | zero => exact absurd alsoEnough (Nat.not_lt_zero _)
    | succ other =>
      unfold Performance.rounds
      cases turnover : (round outcomes).last with
      | done ending => rfl
      | another =>
        have fewer := eager outcomes turnover
        have later := ih (Nat.lt_of_lt_of_le fewer (Nat.le_of_lt_succ enough))
          (Nat.lt_of_lt_of_le fewer (Nat.le_of_lt_succ alsoEnough))
        simp only [later]

/-- What comes after a round of a loop. -/
def afterRound (round : Act Note Value Turnover) : Turnover → Act Note Value Ending
  | .another => loop round
  | .done ending => ended [] ending

/-- The rounds of a loop are one round, and what it leads to. -/
theorem loop_eq (eager : Eager round) : loop round = round.bind (afterRound round) := by
  funext outcomes
  rw [loop, Performance.rounds]
  unfold bind
  cases turnover : (round outcomes).last with
  | done ending => simp [afterRound, ended, Performance.after]
  | another =>
    simp only [rounds_eq eager (eager outcomes turnover) (Nat.lt_succ_self _)]
    rfl

theorem Thrifty.loop (eager : Eager round) (thrifty : Thrifty (.done .waiting) round) :
    Thrifty .waiting (loop round) := by
  intro outcomes ends
  induction length : outcomes.length using Nat.strongRecOn generalizing outcomes with
  | _ bound ih =>
    rw [loop_eq eager] at ends ⊢
    cases turnover : (round outcomes).last with
    | done ending =>
      simp only [Act.bind, turnover] at ends
      refine (thrifty outcomes ?_).bind ?_
      · rw [turnover]
        intro waits
        cases waits
        exact ends rfl
      · rw [turnover]
        exact ⟨[], rfl, fun _ => rfl⟩
    | another =>
      simp only [Act.bind, turnover] at ends
      refine (thrifty outcomes (by simp [turnover])).bind ?_
      rw [turnover]
      exact ih _ (length ▸ eager outcomes turnover) _ ends rfl

end Act

/-! ## The acts of a flow -/

namespace Act

variable {Note Value : Type} {next : Act Note Value Turnover}

/-- A round that starts with a test, and is the last one if it fails. -/
def asked (condition : Value) (next : Act Note Value Turnover) : Act Note Value Turnover :=
  Performance.test (.value condition) condition (.done .waiting) fun holds =>
    if holds then next else ended [] (.done .through)

/-- A round that ends with a test, and is the last one if it fails. -/
def askedLast (condition : Value) : Act Note Value Turnover :=
  Performance.test (.value condition) condition (.done .waiting) fun holds =>
    ended [] (if holds then .another else .done .through)

theorem Thrifty.asked {condition : Value} (thrifty : Thrifty (.done .waiting) next) :
    Thrifty (.done .waiting) (asked condition next) := by
  refine Thrifty.test fun holds => ?_
  cases holds with
  | false => exact Thrifty.ended _ _ _
  | true => exact thrifty

theorem Thrifty.askedLast {condition : Value} :
    Thrifty (.done .waiting) (askedLast condition : Act Note Value Turnover) :=
  Thrifty.test fun _ => Thrifty.ended _ _ _

theorem Thrifty.inRound {act : Act Note Value Ending} (first : Thrifty .waiting act)
    (second : Thrifty (.done .waiting) next) :
    Thrifty (.done .waiting) (act.bind (afterBody next)) := by
  refine first.bind (fun ending => ?_) rfl
  cases ending with
  | through => exact second
  | again => exact second
  | _ => exact Thrifty.ended _ _ _

theorem Thrifty.afterStep (ending : Ending) :
    Thrifty (.done .waiting) (afterStep ending : Act Note Value Turnover) := by
  cases ending with
  | _ => exact Thrifty.ended _ _ _

/-- A test uses an outcome. -/
theorem Eager.test {computed : Happening Note Value} {value : Value} {ending : Ending}
    {next : Bool → Act Note Value Turnover}
    (within : ∀ holds rest, (next holds rest).Within rest) :
    Eager (Performance.test computed value (.done ending) next) := by
  intro outcomes another
  cases outcomes with
  | nil => cases another
  | cons holds rest => exact Nat.lt_succ_of_le (within holds rest)

theorem Eager.inRound {act : Act Note Value Ending}
    (within : ∀ outcomes, (act outcomes).Within outcomes) (eager : Eager next) :
    Eager (act.bind (afterBody next)) := by
  intro outcomes another
  have used := within outcomes
  simp only [Act.bind] at another ⊢
  cases ending : (act outcomes).last with
  | through | again =>
    rw [ending] at another
    exact Nat.lt_of_lt_of_le (eager _ another) used
  | _ =>
    rw [ending] at another
    cases another

end Act

namespace Flow

variable {Note Value : Type}

open Act

theorem perform_seq (first second : Flow Note Value) :
    (seq first second).perform = Act.bind first.perform (afterThrough second.perform) :=
  andThen_eq first.perform second.perform

theorem perform_branch (mark : Mark) (condition : Value) (body other : Flow Note Value) :
    (branch mark condition body other).perform =
      Performance.test (.value condition) condition .waiting fun holds =>
        if holds then body.perform else other.perform := by
  funext outcomes
  rcases outcomes with _ | ⟨_ | _, rest⟩ <;> rfl

theorem perform_arm (mark : Mark) (index : Nat) (value : Value) (body others : Flow Note Value) :
    (arm mark index value body others).perform =
      Performance.test (.compared value) value .waiting fun holds =>
        if holds then body.perform else others.perform := by
  funext outcomes
  rcases outcomes with _ | ⟨_ | _, rest⟩ <;> rfl

theorem perform_expect (mark : Mark) (condition message : Value) :
    (expect mark condition message : Flow Note Value).perform =
      Performance.test (.value condition) condition .waiting fun holds =>
        if holds then ended [] .through else ended [.value message, .raised message] .threw := by
  funext outcomes
  rcases outcomes with _ | ⟨_ | _, rest⟩ <;> rfl

theorem perform_whileLoop (note : Note) (mark : Mark) (condition : Value)
    (body : Flow Note Value) :
    (whileLoop note mark condition body).perform =
      loop (asked condition (Act.bind body.perform (afterBody (ended [] .another)))) := by
  funext outcomes
  change Performance.rounds _ _ _ = _
  rw [loop, asked, ← inRound_eq]
  congr
  funext holds rest
  cases holds <;> rfl

theorem perform_doLoop (note : Note) (mark : Mark) (body : Flow Note Value) (condition : Value) :
    (doLoop note mark body condition).perform =
      loop (Act.bind body.perform (afterBody (askedLast condition))) := by
  funext outcomes
  change Performance.rounds _ _ _ = _
  rw [loop, ← inRound_eq]
  rfl

theorem perform_forLoop (note : Note) (mark : Mark) (condition : Value)
    (body step : Flow Note Value) :
    (forLoop note mark condition body step).perform =
      loop (asked condition (Act.bind body.perform
        (afterBody (Act.bind step.perform afterStep)))) := by
  funext outcomes
  change Performance.rounds _ _ _ = _
  rw [loop, asked, ← inRound_eq, ← lastInRound_eq]
  congr
  funext holds rest
  cases holds <;> rfl

theorem eager_whileRound (condition : Value) (body : Flow Note Value) :
    Eager (asked condition (Act.bind body.perform (afterBody (ended [] .another)))) := by
  refine Eager.test fun holds rest => ?_
  cases holds with
  | false => exact Nat.le_refl rest.length
  | true =>
    rw [← inRound_eq]
    exact (body.perform_within rest).inRound fun rest => Nat.le_refl rest.length

theorem eager_doRound (condition : Value) (body : Flow Note Value) :
    Eager (Act.bind body.perform (afterBody (askedLast condition))) :=
  Eager.inRound body.perform_within (Eager.test fun _ rest => Nat.le_refl rest.length)

theorem eager_forRound (condition : Value) (body step : Flow Note Value) :
    Eager (asked condition (Act.bind body.perform
      (afterBody (Act.bind step.perform afterStep)))) := by
  refine Eager.test fun holds rest => ?_
  cases holds with
  | false => exact Nat.le_refl rest.length
  | true =>
    rw [← inRound_eq, ← lastInRound_eq]
    exact (body.perform_within rest).inRound fun rest => (step.perform_within rest).lastInRound

/-- What a flow does is fixed by the outcomes it has used. -/
theorem perform_thrifty (flow : Flow Note Value) : Thrifty .waiting flow.perform := by
  induction flow with
  | seq first second firstIh secondIh =>
    rw [perform_seq]
    refine firstIh.bind (fun ending => ?_) rfl
    cases ending with
    | through => exact secondIh
    | _ => exact Thrifty.ended _ _ _
  | within note scope line body ih => exact ih
  | expect mark condition message =>
    rw [perform_expect]
    refine Thrifty.test fun holds => ?_
    cases holds <;> exact Thrifty.ended _ _ _
  | branch mark condition body other bodyIh otherIh =>
    rw [perform_branch]
    exact Thrifty.test (Bool.rec otherIh bodyIh)
  | whileLoop note mark condition body ih =>
    rw [perform_whileLoop]
    exact Thrifty.loop (eager_whileRound condition body)
      (Thrifty.asked (ih.inRound (Thrifty.ended _ _ _)))
  | doLoop note mark body condition ih =>
    rw [perform_doLoop]
    exact Thrifty.loop (eager_doRound condition body) (ih.inRound Thrifty.askedLast)
  | forLoop note mark condition body step bodyIh stepIh =>
    rw [perform_forLoop]
    exact Thrifty.loop (eager_forRound condition body step)
      (Thrifty.asked (bodyIh.inRound (stepIh.bind Thrifty.afterStep rfl)))
  | switch mark subject arms ih =>
    intro outcomes ends
    rcases ih outcomes ends with ⟨used, split, same⟩
    exact ⟨used, split, fun more => by simp only [perform, same]; rfl⟩
  | arm mark index value body others bodyIh othersIh =>
    rw [perform_arm]
    exact Thrifty.test (Bool.rec othersIh bodyIh)
  | _ => exact Thrifty.ended _ _ _

end Flow

end Covenant
