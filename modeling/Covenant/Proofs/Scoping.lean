import Covenant.Proofs.ScopeGrowth
import Covenant.Proofs.Timeline

/-!
# Variables and scopes along the code

`Flow.Scoped` is what name resolution guarantees: a statement assigns a
variable of one of the scopes around it, and a scope inside others is none of
them.  Under this condition every variable that has a register is declared in
a scope that is open at that moment, since a scope takes the registers of its
variables along when it ends.

`Flow.parts` lists the parts of a flow with the scopes and loops around each of them.
What holds of a walk holds of the walk through any part of it.
-/

namespace Covenant

variable {scope : ScopeId} {steps : List Step} {held : List Register}
  {tree : ScopeTree}

open Emission

namespace ScopeTree

/-- The variables that lose their registers at the end of a scope are declared there. -/
theorem Coherent.mem_of_mem_locals (coherent : tree.Coherent) {id : VarId}
    (member : id ∈ locals (tree.declaredIn scope)) : id ∈ (tree.scope scope).variableIds := by
  simp only [locals, declaredIn, List.mem_map, List.mem_filter] at member
  rcases member with ⟨declaration, ⟨⟨other, listed, rfl⟩, -⟩, rfl⟩
  rwa [(coherent scope other listed).1]

end ScopeTree

/-- The scopes and the loops around a part of a flow, the innermost first. -/
structure Surroundings where
  scopes : List ScopeId
  loops : LoopStack

namespace Surroundings

/-- Inside one more scope. -/
def within (around : Surroundings) (scope : ScopeId) : Surroundings :=
  { around with scopes := scope :: around.scopes }

/-- Inside one more loop. -/
def loop (around : Surroundings) (breakLabel continueLabel : Label) : Surroundings :=
  { around with loops := around.loops.enter breakLabel continueLabel }

end Surroundings

/-! ## What name resolution guarantees -/

namespace Flow

variable {Note Value : Type}

/-- Assigned variables are in scope, and scopes inside each other are different. -/
def Scoped (tree : ScopeTree) : List ScopeId → Flow Note Value → Prop
  | _, .skip => True
  | enclosing, .simple _ deed => ∀ id, deed.target? = some id → tree.Declares enclosing id
  | enclosing, .seq first second => first.Scoped tree enclosing ∧ second.Scoped tree enclosing
  | enclosing, .within _ scope _ body =>
    scope ∉ enclosing ∧ tree.IsLocal scope ∧ body.Scoped tree (scope :: enclosing)
  | _, .expect _ _ _ => True
  | enclosing, .branch _ _ body other => body.Scoped tree enclosing ∧ other.Scoped tree enclosing
  | enclosing, .whileLoop _ _ _ body => body.Scoped tree enclosing
  | enclosing, .doLoop _ _ body _ => body.Scoped tree enclosing
  | enclosing, .forLoop _ _ _ body step =>
    body.Scoped tree enclosing ∧ step.Scoped tree enclosing
  | enclosing, .switch _ _ arms => arms.Scoped tree enclosing
  | enclosing, .arm _ _ _ body others =>
    body.Scoped tree enclosing ∧ others.Scoped tree enclosing
  | enclosing, .giveBack _ deed => ∀ id, deed.target? = some id → tree.Declares enclosing id
  | _, .throw _ _ => True
  | _, .leave _ => True
  | _, .next _ => True

/-- The scopes that a flow opens. -/
def scopes : Flow Note Value → List ScopeId
  | .seq first second => first.scopes ++ second.scopes
  | .within _ scope _ body => scope :: body.scopes
  | .branch _ _ body other => body.scopes ++ other.scopes
  | .whileLoop _ _ _ body => body.scopes
  | .doLoop _ _ body _ => body.scopes
  | .forLoop _ _ _ body step => body.scopes ++ step.scopes
  | .switch _ _ arms => arms.scopes
  | .arm _ _ _ body others => body.scopes ++ others.scopes
  | _ => []

/-- The variables that a flow assigns. -/
def assigned : Flow Note Value → List VarId
  | .simple _ deed => deed.target?.toList
  | .seq first second => first.assigned ++ second.assigned
  | .within _ _ _ body => body.assigned
  | .branch _ _ body other => body.assigned ++ other.assigned
  | .whileLoop _ _ _ body => body.assigned
  | .doLoop _ _ body _ => body.assigned
  | .forLoop _ _ _ body step => body.assigned ++ step.assigned
  | .switch _ _ arms => arms.assigned
  | .arm _ _ _ body others => body.assigned ++ others.assigned
  | .giveBack _ deed => deed.target?.toList
  | _ => []

/-- The parts of a flow, itself first, with what is around each of them. -/
def parts (around : Surroundings) (flow : Flow Note Value) :
    List (Surroundings × Flow Note Value) :=
  (around, flow) :: match flow with
    | .seq first second => first.parts around ++ second.parts around
    | .within _ scope _ body => body.parts (around.within scope)
    | .branch _ _ body other => body.parts around ++ other.parts around
    | .whileLoop _ mark _ body =>
      body.parts (around.loop (.loopEnd mark.id) (.loopStart mark.id))
    | .doLoop _ mark body _ =>
      body.parts (around.loop (.loopEnd mark.id) (.loopContinue mark.id))
    | .forLoop _ mark _ body step =>
      body.parts (around.loop (.loopEnd mark.id) (.loopContinue mark.id)) ++
        step.parts around
    | .switch _ _ arms => arms.parts around
    | .arm _ _ _ body others => body.parts around ++ others.parts around
    | _ => []

/-- The scopes inside a flow are none of those around it. -/
theorem Scoped.disjoint {flow : Flow Note Value} {enclosing : List ScopeId}
    (resolved : flow.Scoped tree enclosing) (inside : scope ∈ flow.scopes) : scope ∉ enclosing := by
  induction flow generalizing enclosing with
  | within note opened line body ih =>
    rcases resolved with ⟨fresh, -, inner⟩
    rcases List.mem_cons.mp inside with rfl | deeper
    · exact fresh
    · have outside := ih inner deeper
      exact fun listed => outside (List.mem_cons_of_mem _ listed)
  | seq first second firstIh secondIh =>
    rcases List.mem_append.mp inside with left | right
    · exact firstIh resolved.1 left
    · exact secondIh resolved.2 right
  | branch mark condition body other bodyIh otherIh =>
    rcases List.mem_append.mp inside with left | right
    · exact bodyIh resolved.1 left
    · exact otherIh resolved.2 right
  | whileLoop note mark condition body ih | doLoop note mark body condition ih
  | switch mark value arms ih => exact ih resolved inside
  | forLoop note mark condition body step bodyIh stepIh =>
    rcases List.mem_append.mp inside with left | right
    · exact bodyIh resolved.1 left
    · exact stepIh resolved.2 right
  | arm mark index value body others bodyIh othersIh =>
    rcases List.mem_append.mp inside with left | right
    · exact bodyIh resolved.1 left
    · exact othersIh resolved.2 right
  | skip | simple note deed | expect mark condition message | giveBack note deed
  | throw line value | leave line | next line => cases inside

end Flow

namespace Emission

/-! ## Scopes along a walk -/

/-- The scopes that are open after a step, if it keeps to them. -/
def Step.confine (tree : ScopeTree) : Step → List ScopeId → Option (List ScopeId)
  | .deed _ task, enclosing =>
    if ∀ id ∈ task.target?.toList, tree.Declares enclosing id then some enclosing else none
  | .enter scope, enclosing => some (scope :: enclosing)
  | .leave scope _, top :: rest =>
    if top = scope ∧ tree.IsLocal scope then some rest else none
  | .leave _ _, [] => none
  | _, enclosing => some enclosing

variable {tree : ScopeTree} {emitted : EmittedFlow} {enclosing : List ScopeId}
  {inner around : Surroundings} {env : Env} {before after : Generator} {exit : Label}

/-- The steps of a resolved flow keep to the scopes around it. -/
theorem steps_confined (resolved : emitted.Scoped tree enclosing) (exit : Label) (loops : LoopStack)
    (subject : Register) :
    follow (Step.confine tree) (emitted.steps exit loops subject) enclosing =
      some enclosing := by
  induction emitted generalizing enclosing loops subject with
  | simple span deed | giveBack span deed =>
    have declared : ∀ id ∈ deed.target?.toList, tree.Declares enclosing id := by
      simpa [Flow.Scoped] using resolved
    simp [Flow.steps, follow, Step.confine, -Option.mem_toList, if_pos declared]
  | leave line | next line => exact follow_jumpSteps (fun _ _ => rfl) _ _
  | _ => simp_all [Flow.steps, Flow.Scoped, tested, follow, Step.confine]

/-- A step that keeps to its scopes keeps the variables that have a register within them. -/
theorem Step.Changes.boundWithin {step : Step} {later : List ScopeId}
    (coherent : env.scopes.Coherent) (changes : step.Changes env before after)
    (confined : step.confine env.scopes enclosing = some later)
    (bound : BoundWithin env.scopes enclosing before) : BoundWithin env.scopes later after := by
  have still : after.bindings = before.bindings → later = enclosing →
      BoundWithin env.scopes later after := by
    rintro same rfl id binds
    refine bound id ?_
    unfold Generator.Binds at *
    rwa [same] at binds
  cases step with
  | deed span task =>
    simp only [Step.confine] at confined
    split at confined
    · rename_i declared
      cases confined
      intro id binds
      rcases (Rebinds.binds_iff changes id).mp binds with before | assigned
      · exact bound id before
      · exact declared id (by simp [assigned])
    · cases confined
  | enter scope =>
    cases confined
    intro id binds
    have same : after.bindings = before.bindings := changes
    have earlier : before.Binds id := by
      unfold Generator.Binds at *
      rwa [same] at binds
    rcases bound id earlier with ⟨outer, listed, member⟩
    exact ⟨outer, List.mem_cons_of_mem _ listed, member⟩
  | leave scope line =>
    cases enclosing with
    | nil => cases confined
    | cons top rest =>
      simp only [Step.confine] at confined
      split at confined
      · rename_i leaves
        rcases leaves with ⟨rfl, isLocal⟩
        cases confined
        intro id binds
        have bindings : after.bindings =
          without (locals (env.scopes.declaredIn top)) before.bindings := changes
        unfold Generator.Binds at binds
        rw [bindings, lookup_without] at binds
        by_cases listed : id ∈ locals (env.scopes.declaredIn top)
        · simp [listed] at binds
        · simp only [listed, if_false] at binds
          rcases bound id binds with ⟨scope, open_, member⟩
          rcases List.mem_cons.mp open_ with rfl | outer
          · exact absurd (mem_locals coherent isLocal member) listed
          · exact ⟨scope, outer, member⟩
      · cases confined
  | turn written | figure subject value | free register line | opens span | closes span =>
    exact still changes (by cases confined; rfl)

/-- Along a walk that keeps to its scopes, only variables in scope have a register. -/
theorem Walk.boundWithin {heldLater : List Register} {later : List ScopeId}
    (coherent : env.scopes.Coherent) (walk : Walk env steps before held after heldLater)
    (confined : follow (Step.confine env.scopes) steps enclosing = some later)
    (bound : BoundWithin env.scopes enclosing before) : BoundWithin env.scopes later after := by
  induction steps generalizing before held enclosing with
  | nil =>
    cases walk.path
    cases confined
    exact bound
  | cons step rest ih =>
    rcases walk.cons with ⟨between, middle, -, -, changes, further⟩
    simp only [follow] at confined
    rcases Option.bind_eq_some_iff.mp confined with ⟨scopes, confinedStep, confinedRest⟩
    exact ih further confinedRest (changes.boundWithin coherent confinedStep bound)

/-! ## Scopes and assignments of a flow -/

/-- The scopes that the code of a flow leaves are those that the flow opens. -/
theorem mem_scopes_of_leave {loops : LoopStack} {subject : Register} {line : Nat}
    (member : Step.leave scope line ∈ emitted.steps exit loops subject) :
    scope ∈ emitted.scopes := by
  induction emitted generalizing loops subject with
  | _ => (simp [Flow.steps, Flow.scopes, tested] at member ⊢) <;> grind

/-- The steps that assign a variable are those of the assignments in the flow. -/
theorem exists_target_iff (emitted : EmittedFlow) (exit : Label) (loops : LoopStack)
    (subject : Register) (id : VarId) :
    (∃ step ∈ emitted.steps exit loops subject, step.target? = some id) ↔
      id ∈ emitted.assigned := by
  have targets : (emitted.steps exit loops subject).filterMap Step.target? = emitted.assigned := by
    induction emitted generalizing loops subject with
    | simple note deed | giveBack note deed =>
      cases found : deed.target? <;> simp [Flow.steps, Flow.assigned, Step.target?, found]
    | _ => simp_all [Flow.steps, Flow.assigned, Step.target?, tested, List.filterMap_cons]
  rw [← targets, List.mem_filterMap]

section Flows

variable {env : Env} {emitted : EmittedFlow} {exit : Label} {loops : LoopStack}
  {subject : Register} {enclosing : List ScopeId} {id : VarId}

/-- A variable that no scope of a flow declares is left alone by the ends of its scopes. -/
theorem outer_of_not_declares (coherent : env.scopes.Coherent)
    (outside : ¬ env.scopes.Declares emitted.scopes id) :
    Outer env (emitted.steps exit loops subject) id := by
  intro scope line member listed
  exact outside ⟨scope, mem_scopes_of_leave member, coherent.mem_of_mem_locals listed⟩

/-- A variable of a scope around a flow is declared in none of its own scopes. -/
theorem not_declares_scopes (coherent : env.scopes.Coherent)
    (resolved : emitted.Scoped env.scopes enclosing)
    (declared : env.scopes.Declares enclosing id) :
    ¬ env.scopes.Declares emitted.scopes id := by
  rintro ⟨inner, inside, member⟩
  rcases declared with ⟨scope, around, listed⟩
  rw [coherent.scope_unique member listed] at inside
  exact resolved.disjoint inside around

/--
After a resolved flow, the variables that have a register are those that had
one before, and those that it assigns and does not declare.
-/
theorem Walk.binds_after (coherent : env.scopes.Coherent)
    (resolved : emitted.Scoped env.scopes enclosing) {later : List Register}
    (walk : Walk env (emitted.steps exit loops subject) before held after later)
    (bound : BoundWithin env.scopes enclosing before) (id : VarId) :
    after.Binds id ↔ before.Binds id ∨
      id ∈ emitted.assigned ∧ ¬ env.scopes.Declares emitted.scopes id := by
  have confined := steps_confined resolved exit loops subject
  constructor
  · intro binds
    have declared := walk.boundWithin coherent confined bound id binds
    have outside := not_declares_scopes coherent resolved declared
    rw [walk.binds_iff (outer_of_not_declares coherent outside), exists_target_iff] at binds
    rcases binds with earlier | assigned
    · exact Or.inl earlier
    · exact Or.inr ⟨assigned, outside⟩
  · rintro (earlier | ⟨assigned, outside⟩)
    · have outside := not_declares_scopes coherent resolved (bound id earlier)
      rw [walk.binds_iff (outer_of_not_declares coherent outside)]
      exact Or.inl earlier
    · rw [walk.binds_iff (outer_of_not_declares coherent outside), exists_target_iff]
      exact Or.inr assigned

/-- A resolved flow leaves the registers of the variables alone that have one before. -/
theorem Walk.keeps_bound (coherent : env.scopes.Coherent)
    (resolved : emitted.Scoped env.scopes enclosing) {later : List Register}
    (walk : Walk env (emitted.steps exit loops subject) before held after later)
    (bound : BoundWithin env.scopes enclosing before) {register : Register}
    (found : before.bindings.lookup id = some register) :
    after.bindings.lookup id = some register := by
  have declared := bound id (by simp [Generator.Binds, found])
  have outside := not_declares_scopes coherent resolved declared
  exact walk.keeps (outer_of_not_declares coherent outside) found

end Flows

/-! ## Parts of a flow -/

/-- The steps of a part stand among others, with the scopes around it open. -/
def Inside (tree : ScopeTree) (exit : Label) (steps : List Step) (enclosing : List ScopeId)
    (inner : Surroundings) (part : EmittedFlow) : Prop :=
  ∃ subject first last, steps = first ++ part.steps exit inner.loops subject ++ last ∧
    follow (Step.confine tree) first enclosing = some inner.scopes ∧
    part.Scoped tree inner.scopes

/-- More steps may stand around. -/
theorem Inside.widen {part : EmittedFlow} {outer : List ScopeId}
    (inside : Inside tree exit steps enclosing inner part)
    (first last : List Step) (confined : follow (Step.confine tree) first outer = some enclosing) :
    Inside tree exit (first ++ steps ++ last) outer inner part := by
  rcases inside with ⟨subject, before, after, rfl, further, resolved⟩
  refine ⟨subject, first ++ before, after ++ last, by simp, ?_, resolved⟩
  rw [follow_append, confined]
  exact further

theorem Inside.followed {part : EmittedFlow} {last : List Step}
    (inside : Inside tree exit steps enclosing inner part) :
    Inside tree exit (steps ++ last) enclosing inner part :=
  inside.widen [] last rfl

theorem Inside.preceded {part : EmittedFlow} {first : List Step} {outer : List ScopeId}
    (inside : Inside tree exit steps enclosing inner part)
    (confined : follow (Step.confine tree) first outer = some enclosing) :
    Inside tree exit (first ++ steps) outer inner part := by
  simpa using inside.widen first [] confined

/-- A part of a flow is the flow itself, or it stands deeper. -/
theorem Inside.part {part : EmittedFlow} {flow : EmittedFlow}
    {others : List (Surroundings × EmittedFlow)}
    (resolved : flow.Scoped tree around.scopes)
    (member : (inner, part) ∈ (around, flow) :: others) (exit : Label) (subject : Register)
    (deeper : (inner, part) ∈ others →
      Inside tree exit (flow.steps exit around.loops subject) around.scopes inner part) :
    Inside tree exit (flow.steps exit around.loops subject) around.scopes inner part := by
  rcases List.mem_cons.mp member with same | further
  · cases same
    exact ⟨subject, [], [], by simp, rfl, resolved⟩
  · exact deeper further

/-- Every part of a resolved flow stands among its steps. -/
theorem inside_of_mem_parts {part : EmittedFlow} (member : (inner, part) ∈ emitted.parts around)
    (resolved : emitted.Scoped tree around.scopes) (exit : Label) (subject : Register) :
    Inside tree exit (emitted.steps exit around.loops subject) around.scopes inner part := by
  induction emitted generalizing around subject with
  | skip | simple span deed | expect mark condition message | giveBack span deed
  | throw line value | leave line | next line =>
    exact Inside.part resolved member exit subject nofun
  | seq first second firstIh secondIh =>
    refine Inside.part resolved member exit subject fun deeper => ?_
    rcases List.mem_append.mp deeper with left | right
    · exact (firstIh left resolved.1 subject).followed
    · exact (secondIh right resolved.2 subject).preceded (steps_confined resolved.1 exit _ subject)
  | within span scope line body ih =>
    refine Inside.part resolved member exit subject fun deeper => ?_
    exact (ih deeper resolved.2.2 subject).widen _ _ rfl
  | branch mark condition body other bodyIh otherIh =>
    refine Inside.part resolved member exit subject fun deeper => ?_
    rcases List.mem_append.mp deeper with left | right
    · exact ((bodyIh left resolved.1 subject).widen _ _ rfl).followed.followed
    · refine (otherIh right resolved.2 subject).widen _ _ ?_
      simp [tested, follow, Step.confine, steps_confined resolved.1]
  | whileLoop span mark condition body ih =>
    refine Inside.part resolved member exit subject fun deeper => ?_
    exact (ih deeper resolved subject).widen _ _ rfl
  | doLoop span mark body condition ih =>
    refine Inside.part resolved member exit subject fun deeper => ?_
    exact ((ih deeper resolved subject).widen _ _ rfl).followed.followed
  | forLoop span mark condition body step bodyIh stepIh =>
    refine Inside.part resolved member exit subject fun deeper => ?_
    rcases List.mem_append.mp deeper with left | right
    · exact ((bodyIh left resolved.1 subject).widen _ _ rfl).followed.followed
    · refine (stepIh right resolved.2 subject).widen _ _ ?_
      simp [tested, follow, Step.confine, steps_confined resolved.1]
  | switch mark value arms ih =>
    refine Inside.part resolved member exit subject fun deeper => ?_
    exact (ih deeper resolved value.register).widen _ _ rfl
  | arm mark index value body others bodyIh othersIh =>
    refine Inside.part resolved member exit subject fun deeper => ?_
    rcases List.mem_append.mp deeper with left | right
    · exact ((bodyIh left resolved.1 subject).widen _ _ rfl).followed
    · refine (othersIh right resolved.2 subject).preceded ?_
      simp [tested, follow, Step.confine, steps_confined resolved.1]

/-- The walk through a flow leads through each of its parts. -/
theorem Walk.part {part : EmittedFlow} {subject : Register} {later : List Register}
    (coherent : env.scopes.Coherent)
    (resolved : emitted.Scoped env.scopes around.scopes)
    (bound : BoundWithin env.scopes around.scopes before)
    (walk : Walk env (emitted.steps exit around.loops subject) before held after later)
    (member : (inner, part) ∈ emitted.parts around) :
    ∃ subjectInside first heldFirst last heldLast,
      Walk env (part.steps exit inner.loops subjectInside) first heldFirst last heldLast ∧
      part.Scoped env.scopes inner.scopes ∧ BoundWithin env.scopes inner.scopes first := by
  rcases inside_of_mem_parts member resolved exit subject with
    ⟨subjectInside, earlier, rest, steps, confined, resolvedPart⟩
  rw [steps] at walk
  rcases walk.split with ⟨last, heldLast, front, -⟩
  rcases front.split with ⟨first, heldFirst, start, middle⟩
  exact ⟨subjectInside, first, heldFirst, last, heldLast, middle, resolvedPart,
    start.boundWithin coherent confined bound⟩

end Emission

end Covenant
