import Covenant.Proofs.Labels
import Covenant.Proofs.Stepping

/-!
# Where the parts of a flow stand

The steps of an emitted flow add lines, so in the code of the flow each simple
statement, each value and each jump has its place.  `Laid` tells these places
from the steps alone, and a walk from a generator to another one lays its steps
between the numbers of lines that the two have.

Each label of the flow is placed once.
-/

namespace Covenant

open Emission

namespace Span

def places (span : Span) : List Nat :=
  List.range' span.before.lines.length (span.after.lines.length - span.before.lines.length)

/-- The span reaches from one place to another, and its lines are straight. -/
structure Laid (region : Region) (place after : Nat) (span : Span) : Prop where
  starts : span.before.lines.length = place
  ends : span.after.lines.length = after
  order : place ≤ after
  straight : ∀ between, place ≤ between → between < after →
    ∃ line, region.line? between = some line ∧ line.isStraight = true

/-- The machine runs all the lines of a span. -/
theorem Laid.leads {region : Region} {place after : Nat} {span : Span}
    (laid : span.Laid region place after) (exit : Label) (outcomes : List Bool) :
    region.Leads exit place outcomes (span.places.map .ran) after outcomes := by
  rw [places, laid.starts, laid.ends]
  exact Region.Leads.straight laid.order laid.straight outcomes

end Span

namespace Emission

variable {env : Env} {region : Region}

/-- The step takes the code from one place to another. -/
def Step.Laid (region : Region) (place after : Nat) : Step → Prop
  | .turn written => region.line? place = some written.line ∧ after = place + 1
  | .deed span _ => span.Laid region place after
  | .figure _ value => value.span.Laid region place after
  | _ => after = place

/-- The steps take the code from one place to another. -/
def Laid (region : Region) : List Step → Nat → Nat → Prop
  | [], place, after => after = place
  | step :: rest, place, after =>
    ∃ between, step.Laid region place between ∧ Laid region rest between after

theorem Laid.split {first second : List Step} {place after : Nat}
    (laid : Laid region (first ++ second) place after) :
    ∃ between, Laid region first place between ∧ Laid region second between after := by
  induction first generalizing place with
  | nil => exact ⟨place, rfl, laid⟩
  | cons step rest ih =>
    rcases laid with ⟨later, stands, further⟩
    rcases ih further with ⟨between, left, right⟩
    exact ⟨between, ⟨later, stands, left⟩, right⟩

/-! ## Straight lines -/

/-- The lines of the step are straight, unless it is a label or a jump. -/
def Step.Even : Step → Prop
  | .turn _ => True
  | step => ∀ line ∈ step.lines, line.isStraight = true

theorem Step.Happens.even {step : Step} {before after : Generator} {held : List Register}
    (happens : step.Happens env before after) (owned : Owned before held)
    (runs : ∀ task, step.deed? = some task → task.turns = false) : step.Even := by
  have leaf : ∀ {leaf}, step.leaf? = some leaf → step.turns = false →
      ∀ line ∈ leaf.span.lines, line.isStraight = true := by
    intro leaf isLeaf straight line member
    have covers : Covers before held [] := by simp [Covers]
    rcases Step.appends owned happens isLeaf straight covers (by simp) with ⟨added, lines, spare⟩
    rw [happens.leaf_span isLeaf] at member
    simp only [Span.lines, lines, List.drop_left] at member
    exact (spare line member).straight
  cases step with
  | turn written => trivial
  | deed span task => exact leaf rfl (runs task rfl)
  | figure subject value => exact leaf rfl rfl
  | _ =>
    intro line member
    cases member

namespace Walk

variable {steps : List Step} {before after : Generator} {held later : List Register}

theorem even (walk : Walk env steps before held after later)
    (runs : ∀ step ∈ steps, ∀ task, step.deed? = some task → task.turns = false) :
    ∀ step ∈ steps, step.Even := by
  induction steps generalizing before held with
  | nil => exact nofun
  | cons first rest ih =>
    rcases walk.cons with ⟨between, middle, happens, -, -, further⟩
    intro step member
    rcases List.mem_cons.mp member with rfl | among
    · exact happens.even walk.owned (runs step List.mem_cons_self)
    · exact ih further (fun step member => runs step (List.mem_cons_of_mem first member)) step
        among

/-- A walk lays its steps where its lines stand. -/
theorem laid (walk : Walk env steps before held after later) (even : ∀ step ∈ steps, step.Even)
    (holds : region.Holds before.lines.length (steps.flatMap Step.lines)) :
    Laid region steps before.lines.length after.lines.length := by
  induction steps generalizing before held with
  | nil =>
    cases walk.path
    rfl
  | cons step rest ih =>
    rcases walk.cons with ⟨between, middle, happens, lines, -, further⟩
    rw [List.flatMap_cons] at holds
    have width : between.lines.length = before.lines.length + step.lines.length := by
      rw [lines, List.length_append]
    have remainder := holds.right
    rw [← width] at remainder
    refine ⟨between.lines.length, ?_, ih further
      (fun step member => even step (List.mem_cons_of_mem _ member)) remainder⟩
    have span : ∀ {span : Span}, span = ⟨before, between⟩ → step.lines = span.lines →
        (∀ line ∈ span.lines, line.isStraight = true) →
        span.Laid region before.lines.length between.lines.length := by
      rintro _ rfl same straight
      refine ⟨rfl, rfl, by omega, ?_⟩
      intro place first last
      have inside : place - before.lines.length < step.lines.length := by omega
      have stands := holds.left.line (List.getElem?_eq_getElem inside)
      rw [show before.lines.length + (place - before.lines.length) = place by omega] at stands
      exact ⟨_, stands, straight _ (same ▸ List.getElem_mem inside)⟩
    have even := even step List.mem_cons_self
    cases step with
    | turn written => exact ⟨holds.left.head, width⟩
    | deed place task | figure subject value => exact span happens.1 rfl even
    | _ => exact width

end Walk

end Emission

/-! ## Labels -/

def Line.label? : Line → Option Label
  | .label place => some place
  | _ => none

namespace Emission

variable {region : Region}

def Step.label? : Step → Option Label
  | .turn (.place label) => some label
  | _ => none

/-- The labels of a flow are those of its steps. -/
theorem labels_of_steps (emitted : EmittedFlow) (exit : Label) (loops : LoopStack)
    (subject : Register) :
    (emitted.steps exit loops subject).filterMap Step.label? = emitted.labels := by
  induction emitted generalizing loops subject with
  | _ => simp_all [Flow.steps, Flow.labels, Step.label?, tested, List.filterMap_cons]

/-- Straight lines place no label. -/
theorem Step.Even.labels {step : Step} (even : step.Even) :
    step.lines.filterMap Line.label? = step.label?.toList := by
  have none : (∀ line ∈ step.lines, line.isStraight = true) →
      step.lines.filterMap Line.label? = [] := by
    intro straight
    refine List.filterMap_eq_nil_iff.mpr fun line member => ?_
    cases line with
    | label place => cases straight _ member
    | _ => rfl
  cases step with
  | turn written =>
    cases written with
    | test holds register target => cases holds <;> rfl
    | _ => rfl
  | _ => exact none even

/-- The labels in the lines of the steps are the labels of the steps. -/
theorem labels_of_lines {steps : List Step} (even : ∀ step ∈ steps, step.Even) :
    (steps.flatMap Step.lines).filterMap Line.label? = steps.filterMap Step.label? := by
  induction steps with
  | nil => rfl
  | cons step rest ih =>
    rw [List.flatMap_cons, List.filterMap_append, (even step List.mem_cons_self).labels,
      ih fun step member => even step (List.mem_cons_of_mem _ member)]
    cases found : step.label? with
    | none => rw [List.filterMap_cons_none found]; rfl
    | some label => rw [List.filterMap_cons_some found]; rfl

end Emission

/-- The labels of a region have one place each if none is placed twice. -/
theorem Region.labelled_of_nodup {region : Region}
    (distinct : (region.lines.filterMap Line.label?).Nodup) : region.Labelled := by
  have once := List.pairwise_iff_getElem.mp (List.pairwise_filterMap.mp distinct)
  have apart : ∀ (first second : Nat) (label : Label),
      region.lines[first]? = some (Line.label label) →
      region.lines[second]? = some (Line.label label) → ¬ first < second := by
    intro first second label early late order
    rcases List.getElem?_eq_some_iff.mp early with ⟨firstInside, atFirst⟩
    rcases List.getElem?_eq_some_iff.mp late with ⟨secondInside, atSecond⟩
    refine once first second firstInside secondInside order label ?_ label ?_ rfl
    · rw [atFirst]
      rfl
    · rw [atSecond]
      rfl
  intro place other label stands again
  unfold line? at stands again
  split at stands
  · split at again
    · have forward := apart _ _ label stands again
      have backward := apart _ _ label again stands
      omega
    · cases again
  · cases stands

end Covenant
