import Covenant.Proofs.Acts
import Mathlib.Data.Fintype.Option
import Mathlib.Data.List.Dedup
import Mathlib.Logic.Relation

/-!
# Watching a flow

A watcher has one of finitely many states, and every happening moves it.  Which
states it can have when a flow ends, and how the flow ends then, does not need
any outcomes: `Flow.ways` follows both sides of every test, and the rounds of a
loop up to the point where they lead to no new state.  `Flow.ways_exact` says
that this is neither too much nor too little: a way is listed if and only if
some outcomes lead along it.

A `Watcher` takes some happenings for wrong, depending on what has happened
before.  Whether it can find anything wrong in a flow is told by `Flow.passes`.
-/

namespace Covenant

deriving instance DecidableEq for Turnover

/-! ## Closures of finite relations -/

section Closure

variable {State : Type} [DecidableEq State] (next : State → List State)

/-- What is known after a number of steps, each from everything that is known. -/
def reach : Nat → List State → List State
  | 0, known => known
  | bound + 1, known => reach bound (known ++ known.flatMap next).dedup

variable {next}

theorem subset_reach (bound : Nat) (known : List State) : known ⊆ reach next bound known := by
  induction bound generalizing known with
  | zero => exact List.Subset.refl known
  | succ bound ih =>
    refine List.Subset.trans ?_ (ih _)
    intro state member
    exact List.mem_dedup.mpr (List.mem_append_left _ member)

/-- Nothing leads out of what is known. -/
def Closed (next : State → List State) (known : List State) : Prop :=
  ∀ state ∈ known, next state ⊆ known

/-- Once nothing new is found, nothing new will be found. -/
theorem Closed.reach {known : List State} (closed : Closed next known) (bound : Nat) :
    Closed next (reach next bound known) := by
  induction bound generalizing known with
  | zero => exact closed
  | succ bound ih =>
    refine ih fun state member other step => ?_
    have old : state ∈ known := by
      rcases List.mem_append.mp (List.mem_dedup.mp member) with old | new
      · exact old
      · rcases List.mem_flatMap.mp new with ⟨origin, from_, step⟩
        exact closed origin from_ step
    exact List.mem_dedup.mpr (List.mem_append_left _ (closed state old step))

/-- With a step for each state that is not known, all is found. -/
theorem reach_closed [Fintype State] (bound : Nat) (known : List State)
    (enough : known.toFinsetᶜ.card ≤ bound) : Closed next (reach next bound known) := by
  induction bound generalizing known with
  | zero =>
    have all : known.toFinset = Finset.univ := by
      rw [← Finset.compl_eq_empty_iff]
      exact Finset.card_eq_zero.mp (Nat.le_zero.mp enough)
    intro state _ other _
    exact List.mem_toFinset.mp (all ▸ Finset.mem_univ other)
  | succ bound ih =>
    by_cases closed : Closed next known
    · exact closed.reach (bound + 1)
    · refine ih _ (Nat.le_of_lt_succ (Nat.lt_of_lt_of_le (Finset.card_lt_card ?_) enough))
      rw [Finset.compl_ssubset_compl, Finset.ssubset_iff_subset_ne]
      constructor
      · intro state member
        simp only [List.mem_toFinset, List.mem_dedup, List.mem_append] at member ⊢
        exact .inl member
      · intro same
        apply closed
        intro state member other step
        rw [← List.mem_toFinset, same, List.mem_toFinset, List.mem_dedup]
        exact List.mem_append_right _ (List.mem_flatMap.mpr ⟨state, member, step⟩)

theorem exists_origin {bound : Nat} {known : List State} {state : State}
    (found : state ∈ reach next bound known) :
    ∃ origin ∈ known,
      Relation.ReflTransGen (fun before after => after ∈ next before) origin state := by
  induction bound generalizing known with
  | zero => exact ⟨state, found, .refl⟩
  | succ bound ih =>
    rcases ih found with ⟨middle, member, onward⟩
    rcases List.mem_append.mp (List.mem_dedup.mp member) with old | new
    · exact ⟨middle, old, onward⟩
    · rcases List.mem_flatMap.mp new with ⟨origin, old, step⟩
      exact ⟨origin, old, .head step onward⟩

/-- As many steps as there are states lead everywhere. -/
theorem mem_reach_iff [Fintype State] {origin state : State} :
    state ∈ reach next (Fintype.card State) [origin] ↔
      Relation.ReflTransGen (fun before after => after ∈ next before) origin state := by
  constructor
  · intro found
    rcases exists_origin found with ⟨start, member, onward⟩
    rwa [List.mem_singleton.mp member] at onward
  · intro onward
    have closed : Closed next (reach next (Fintype.card State) [origin]) :=
      reach_closed _ _ (Finset.card_le_univ _)
    induction onward with
    | refl => exact subset_reach _ _ (List.mem_singleton_self origin)
    | tail _ step ih => exact closed _ ih step

end Closure

/-! ## What a watcher can have seen -/

namespace Act

variable {Note Value Last Other State : Type} (see : State → Happening Note Value → State)
  {first final : State}

/-- Some outcomes lead a watcher from one state to another one, and to this end. -/
def Attains (act : Act Note Value Last) (first : State) (last : Last) (final : State) : Prop :=
  ∃ outcomes, (act outcomes).last = last ∧ (act outcomes).happenings.foldl see first = final

variable {see}

theorem attains_ended {happenings : List (Happening Note Value)} {last other : Last} :
    Attains see (ended happenings last) first other final ↔
      last = other ∧ happenings.foldl see first = final :=
  ⟨fun ⟨_, attained⟩ => attained, fun attained => ⟨[], attained⟩⟩

theorem attains_test {computed : Happening Note Value} {value : Value} {waiting last : Last}
    {next : Bool → Act Note Value Last} :
    Attains see (Performance.test computed value waiting next) first last final ↔
      waiting = last ∧ see first computed = final ∨
        ∃ holds, Attains see (next holds) (see (see first computed) (.tested value holds)) last
          final := by
  constructor
  · rintro ⟨outcomes, ends, seen⟩
    cases outcomes with
    | nil => exact .inl ⟨ends, seen⟩
    | cons holds rest => exact .inr ⟨holds, rest, ends, seen⟩
  · rintro (⟨ends, seen⟩ | ⟨holds, rest, ends, seen⟩)
    · exact ⟨[], ends, seen⟩
    · exact ⟨holds :: rest, ends, seen⟩

theorem attains_bind {waiting : Last} {stuck : Other} {act : Act Note Value Last}
    {next : Last → Act Note Value Other} (thrifty : Thrifty waiting act)
    (waits : next waiting = ended [] stuck) {last : Other} :
    Attains see (act.bind next) first last final ↔
      ∃ middle between, Attains see act first middle between ∧
        Attains see (next middle) between last final := by
  constructor
  · rintro ⟨outcomes, ends, seen⟩
    refine ⟨_, _, ⟨outcomes, rfl, rfl⟩, (act outcomes).rest, ends, ?_⟩
    rw [← seen, Act.bind, Performance.happenings_after, List.foldl_append]
  · rintro ⟨middle, between, ⟨outcomes, rfl, rfl⟩, later, ends, seen⟩
    by_cases stops : (act outcomes).last = waiting
    · rw [stops, waits] at ends seen
      refine ⟨outcomes, ?_, ?_⟩
      · simp only [Act.bind, stops, waits]
        exact ends
      · simp only [Act.bind, stops, waits]
        rw [← seen, Performance.happenings_after, List.foldl_append]
        rfl
    · rcases thrifty outcomes stops with ⟨used, -, same⟩
      refine ⟨used ++ later, ?_, ?_⟩
      · simp only [Act.bind, same]
        exact ends
      · simp only [Act.bind, same]
        rw [← seen, Performance.happenings_after, List.foldl_append]

/-- The rounds of a loop lead from state to state until one of them is the last. -/
theorem attains_loop {round : Act Note Value Turnover} (eager : Eager round)
    (thrifty : Thrifty (.done .waiting) round) {last : Ending} :
    Attains see (loop round) first last final ↔
      ∃ head, Relation.ReflTransGen (fun before after => Attains see round before .another after)
          first head ∧ Attains see round head (.done last) final := by
  constructor
  · rintro ⟨outcomes, ends, seen⟩
    induction length : outcomes.length using Nat.strongRecOn
      generalizing outcomes first with
    | _ bound ih =>
      rw [loop_eq eager] at ends seen
      cases turnover : (round outcomes).last with
      | another =>
        simp only [Act.bind, turnover, Performance.happenings_after,
          List.foldl_append] at ends seen
        rcases ih _ (length ▸ eager outcomes turnover) _ ends seen rfl with
          ⟨head, onward, attained⟩
        exact ⟨head, .head ⟨outcomes, turnover, rfl⟩ onward, attained⟩
      | done ending =>
        simp only [Act.bind, turnover, Performance.happenings_after,
          List.foldl_append] at ends seen
        cases ends
        exact ⟨first, .refl, outcomes, turnover, seen⟩
  · rintro ⟨head, onward, attained⟩
    have waits : afterRound round (.done .waiting) = ended [] .waiting := rfl
    induction onward using Relation.ReflTransGen.head_induction_on with
    | refl =>
      rw [loop_eq eager]
      exact (attains_bind thrifty waits).mpr ⟨_, _, attained, attains_ended.mpr ⟨rfl, rfl⟩⟩
    | head step _ ih =>
      rw [loop_eq eager]
      exact (attains_bind thrifty waits).mpr ⟨_, _, step, ih⟩

end Act

/-! ## Ways -/

/-- From a state of a watcher, how an act can end and in which states. -/
abbrev Ways (State Last : Type) := State → List (Last × State)

namespace Ways

variable {Note Value State Last Other : Type} (see : State → Happening Note Value → State)

/-- There is nothing more to see. -/
def ended (happenings : List (Happening Note Value)) (last : Last) : Ways State Last :=
  fun state => [(last, happenings.foldl see state)]

/-- Wait for the outcome of a test, or go on with one of the two. -/
def test (computed : Happening Note Value) (value : Value) (waiting : Last)
    (next : Bool → Ways State Last) : Ways State Last :=
  fun state =>
    let asked := see state computed
    (waiting, asked) :: (next true (see asked (.tested value true)) ++
      next false (see asked (.tested value false)))

/-- A round that starts with a test, and is the last one if it fails. -/
def asked (condition : Value) (next : Ways State Turnover) : Ways State Turnover :=
  test see (.value condition) condition (.done .waiting) fun holds =>
    if holds then next else ended see [] (.done .through)

/-- A round that ends with a test, and is the last one if it fails. -/
def askedLast (condition : Value) : Ways State Turnover :=
  test see (.value condition) condition (.done .waiting) fun holds =>
    ended see [] (if holds then .another else .done .through)

/-- Go on as the end of the first act says. -/
def bind [DecidableEq State] [DecidableEq Other] (ways : Ways State Last)
    (next : Last → Ways State Other) : Ways State Other :=
  fun state => ((ways state).flatMap fun way => next way.1 way.2).dedup

/-- Go on with another act only behind the end of a flow. -/
def afterThrough (next : Ways State Ending) : Ending → Ways State Ending
  | .through => next
  | ending => ended see [] ending

/-- Go on with another act in the round of a loop. -/
def afterBody (next : Ways State Turnover) : Ending → Ways State Turnover
  | .through | .again => next
  | .left => ended see [] (.done .through)
  | ending => ended see [] (.done ending)

/-- Start another round behind the end of a flow. -/
def afterStep : Ending → Ways State Turnover
  | .through => ended see [] .another
  | ending => ended see [] (.done ending)

/-- The states in which a round can lead to another one. -/
def again (round : Ways State Turnover) : State → List State :=
  fun state => ((round state).filter fun way => way.1 = .another).map Prod.snd

/-- The ends of a loop after a round, if it is the last one. -/
def lastRound : Turnover → Ways State Ending
  | .another => fun _ => []
  | .done ending => ended see [] ending

/-- The rounds of a loop, up to where they lead to no new state. -/
def loop [DecidableEq State] [Fintype State] (round : Ways State Turnover) : Ways State Ending :=
  fun state => ((reach (again round) (Fintype.card State) [state]).flatMap
    (round.bind (lastRound see))).dedup

/-- The ways are those along which some outcomes lead. -/
def Exact (act : Act Note Value Last) (ways : Ways State Last) : Prop :=
  ∀ first last final, (last, final) ∈ ways first ↔ Act.Attains see act first last final

variable {see}

theorem Exact.ended (happenings : List (Happening Note Value)) (last : Last) :
    Exact see (Act.ended happenings last) (ended see happenings last) := by
  intro first other final
  rw [Act.attains_ended, Ways.ended, List.mem_singleton, Prod.mk.injEq]
  exact and_congr eq_comm eq_comm

theorem Exact.test {computed : Happening Note Value} {value : Value} {waiting : Last}
    {next : Bool → Act Note Value Last} {ways : Bool → Ways State Last}
    (exact : ∀ holds, Exact see (next holds) (ways holds)) :
    Exact see (Performance.test computed value waiting next)
      (test see computed value waiting ways) := by
  intro first last final
  rw [Act.attains_test, Ways.test, List.mem_cons, List.mem_append, exact true, exact false,
    Prod.mk.injEq, Bool.exists_bool]
  exact or_congr (and_congr eq_comm eq_comm) or_comm

theorem Exact.asked {condition : Value} {next : Act Note Value Turnover}
    {ways : Ways State Turnover} (exact : Exact see next ways) :
    Exact see (Act.asked condition next) (asked see condition ways) :=
  Exact.test (Bool.rec (Exact.ended _ _) exact)

theorem Exact.askedLast (condition : Value) :
    Exact see (Act.askedLast condition) (askedLast see condition) :=
  Exact.test fun _ => Exact.ended _ _

theorem Exact.afterStep (ending : Ending) :
    Exact see (Act.afterStep ending) (afterStep see ending) := by
  cases ending with
  | _ => exact Exact.ended _ _

variable [DecidableEq State]

theorem Exact.bind [DecidableEq Other] {waiting : Last} {stuck : Other}
    {act : Act Note Value Last} {next : Last → Act Note Value Other} {ways : Ways State Last}
    {later : Last → Ways State Other} (thrifty : Act.Thrifty waiting act)
    (waits : next waiting = Act.ended [] stuck) (first : Exact see act ways)
    (second : ∀ last, Exact see (next last) (later last)) :
    Exact see (act.bind next) (ways.bind later) := by
  intro start last final
  rw [Act.attains_bind thrifty waits, Ways.bind, List.mem_dedup, List.mem_flatMap, Prod.exists]
  exact exists_congr fun middle => exists_congr fun between =>
    and_congr (first start middle between) (second middle between last final)

theorem Exact.inRound {act : Act Note Value Ending} {next : Act Note Value Turnover}
    {ways : Ways State Ending} {later : Ways State Turnover} (thrifty : act.Thrifty .waiting)
    (first : Exact see act ways) (second : Exact see next later) :
    Exact see (act.bind (Act.afterBody next)) (ways.bind (afterBody see later)) := by
  refine Exact.bind thrifty rfl first fun ending => ?_
  cases ending with
  | through => exact second
  | again => exact second
  | _ => exact Exact.ended _ _

theorem Exact.loop [Fintype State] {round : Act Note Value Turnover} {ways : Ways State Turnover}
    (eager : round.Eager) (thrifty : Act.Thrifty (.done .waiting) round)
    (exact : Exact see round ways) : Exact see (Act.loop round) (loop see ways) := by
  intro first last final
  rw [Act.attains_loop eager thrifty, Ways.loop, List.mem_dedup, List.mem_flatMap]
  refine exists_congr fun head => and_congr ?_ ?_
  · have same : (fun before after => after ∈ again ways before) =
        fun before after => Act.Attains see round before .another after := by
      funext before after
      refine propext (Iff.trans ?_ (exact before .another after))
      simp [again]
    rw [mem_reach_iff, same]
  · rw [← exact head (.done last) final, Ways.bind, List.mem_dedup, List.mem_flatMap]
    constructor
    · rintro ⟨⟨turnover, between⟩, listed, follows⟩
      cases turnover with
      | another => cases follows
      | done ending =>
        cases List.mem_singleton.mp follows
        exact listed
    · intro listed
      exact ⟨_, listed, List.mem_singleton_self _⟩

end Ways

/-! ## The ways of a flow -/

namespace Flow

variable {Note Value State : Type} [DecidableEq State] [Fintype State]
  (see : State → Happening Note Value → State)

open Ways

/-- How a flow can end, and in which states of a watcher. -/
def ways : Flow Note Value → Ways State Ending
  | .skip => ended see [] .through
  | .simple note deed => ended see [.deed note deed] .through
  | .seq first second => first.ways.bind (afterThrough see second.ways)
  | .within _ _ _ body => body.ways
  | .expect _ condition message =>
    test see (.value condition) condition .waiting fun holds =>
      if holds then ended see [] .through
      else ended see [.value message, .raised message] .threw
  | .branch _ condition body other =>
    test see (.value condition) condition .waiting fun holds =>
      if holds then body.ways else other.ways
  | .whileLoop _ _ condition body =>
    loop see (asked see condition (body.ways.bind (afterBody see (ended see [] .another))))
  | .doLoop _ _ body condition =>
    loop see (body.ways.bind (afterBody see (askedLast see condition)))
  | .forLoop _ _ condition body step =>
    loop see (asked see condition
      (body.ways.bind (afterBody see (step.ways.bind (afterStep see)))))
  | .switch _ subject arms => fun state => arms.ways (see state (.value subject))
  | .arm _ _ value body others =>
    test see (.compared value) value .waiting fun holds =>
      if holds then body.ways else others.ways
  | .giveBack note deed => ended see [.deed note deed] .returned
  | .throw _ value => ended see [.value value, .raised value] .threw
  | .leave _ => ended see [] .left
  | .next _ => ended see [] .again

variable {see}

/-- The ways of a flow are those along which some outcomes lead. -/
theorem ways_exact (flow : Flow Note Value) : Exact see flow.perform (flow.ways see) := by
  induction flow with
  | seq first second firstIh secondIh =>
    rw [perform_seq]
    refine Exact.bind first.perform_thrifty rfl firstIh fun ending => ?_
    cases ending with
    | through => exact secondIh
    | _ => exact Exact.ended _ _
  | within note scope line body ih => exact ih
  | expect mark condition message =>
    rw [perform_expect]
    exact Exact.test (Bool.rec (Exact.ended _ _) (Exact.ended _ _))
  | branch mark condition body other bodyIh otherIh =>
    rw [perform_branch]
    exact Exact.test (Bool.rec otherIh bodyIh)
  | whileLoop note mark condition body ih =>
    rw [perform_whileLoop]
    exact Exact.loop (eager_whileRound condition body)
      (Act.Thrifty.asked (body.perform_thrifty.inRound (Act.Thrifty.ended _ _ _)))
      (Exact.asked (Exact.inRound body.perform_thrifty ih (Exact.ended _ _)))
  | doLoop note mark body condition ih =>
    rw [perform_doLoop]
    exact Exact.loop (eager_doRound condition body)
      (body.perform_thrifty.inRound Act.Thrifty.askedLast)
      (Exact.inRound body.perform_thrifty ih (Exact.askedLast condition))
  | forLoop note mark condition body step bodyIh stepIh =>
    rw [perform_forLoop]
    exact Exact.loop (eager_forRound condition body step)
      (Act.Thrifty.asked (body.perform_thrifty.inRound
        (step.perform_thrifty.bind Act.Thrifty.afterStep rfl)))
      (Exact.asked (Exact.inRound body.perform_thrifty bodyIh
        (Exact.bind step.perform_thrifty rfl stepIh Exact.afterStep)))
  | switch mark subject arms ih =>
    intro first last final
    exact ih (see first (.value subject)) last final
  | arm mark index value body others bodyIh othersIh =>
    rw [perform_arm]
    exact Exact.test (Bool.rec othersIh bodyIh)
  | _ => exact Exact.ended _ _

end Flow

/-! ## Flows in which nothing is wrong -/

/-- What is known of the happenings so far, and which happening is wrong then. -/
structure Watcher (State Item : Type) where
  entry : State
  move : State → Item → State
  wrong : State → Item → Bool

namespace Watcher

variable {State Item : Type} (watcher : Watcher State Item)

/-- What is known after all the happenings. -/
def known (items : List Item) : State :=
  items.foldl watcher.move watcher.entry

@[simp]
theorem known_concat (items : List Item) (last : Item) :
    watcher.known (items ++ [last]) = watcher.move (watcher.known items) last := by
  simp [known]

/-- None of the happenings is wrong where it stands. -/
def Right (items : List Item) : Prop :=
  ∀ earlier item later, items = earlier ++ item :: later →
    watcher.wrong (watcher.known earlier) item = false

/-- What is known after one more happening, as long as nothing has been wrong. -/
def see (state? : Option State) (item : Item) : Option State :=
  state?.bind fun state =>
    if watcher.wrong state item then none else some (watcher.move state item)

theorem right_concat_iff {items : List Item} {last : Item} :
    watcher.Right (items ++ [last]) ↔
      watcher.Right items ∧ watcher.wrong (watcher.known items) last = false := by
  constructor
  · intro right
    refine ⟨fun earlier item later split => ?_, right items last [] rfl⟩
    exact right earlier item (later ++ [last]) (by simp [split])
  · rintro ⟨right, final⟩ earlier item later split
    rcases List.eq_nil_or_concat later with rfl | ⟨front, other, rfl⟩
    · rcases List.append_inj' split rfl with ⟨rfl, same⟩
      cases same
      exact final
    · rw [List.concat_eq_append, ← List.cons_append, ← List.append_assoc] at split
      exact right earlier item front (List.append_inj' split rfl).1

theorem foldl_see (items : List Item) :
    watcher.Right items ∧
        items.foldl watcher.see (some watcher.entry) = some (watcher.known items) ∨
      ¬ watcher.Right items ∧ items.foldl watcher.see (some watcher.entry) = none := by
  induction items using List.reverseRecOn with
  | nil =>
    refine .inl ⟨fun earlier item later split => ?_, rfl⟩
    cases earlier <;> cases split
  | append_singleton items last ih =>
    rw [right_concat_iff, List.foldl_append]
    rcases ih with ⟨right, seen⟩ | ⟨wrong, seen⟩
    · cases judged : watcher.wrong (watcher.known items) last with
      | true => exact .inr ⟨by simp, by simp [seen, see, judged]⟩
      | false => exact .inl ⟨⟨right, rfl⟩, by simp [seen, see, judged]⟩
    · exact .inr ⟨fun both => wrong both.1, by simp [seen, see]⟩

theorem foldl_see_ne_none_iff {items : List Item} :
    items.foldl watcher.see (some watcher.entry) ≠ none ↔ watcher.Right items := by
  rcases watcher.foldl_see items with ⟨right, seen⟩ | ⟨wrong, seen⟩
  · simp [seen, right]
  · simp [seen, wrong]

end Watcher

section Passing

variable {Note Value State : Type} [DecidableEq State] [Fintype State]

/-- On no way through the flow is anything wrong. -/
def Flow.passes (flow : Flow Note Value) (watcher : Watcher State (Happening Note Value)) : Bool :=
  decide (∀ way ∈ flow.ways watcher.see (some watcher.entry), way.2 ≠ none)

/-- What can be told from a flow holds for all outcomes. -/
theorem Flow.passes_iff {flow : Flow Note Value}
    {watcher : Watcher State (Happening Note Value)} :
    flow.passes watcher = true ↔ ∀ outcomes, watcher.Right (flow.perform outcomes).happenings := by
  rw [passes, decide_eq_true_iff]
  constructor
  · intro all outcomes
    rw [← watcher.foldl_see_ne_none_iff]
    exact all _ ((flow.ways_exact _ _ _).mpr ⟨outcomes, rfl, rfl⟩)
  · rintro right ⟨ending, state?⟩ listed
    rcases (flow.ways_exact _ _ _).mp listed with ⟨outcomes, rfl, rfl⟩
    exact watcher.foldl_see_ne_none_iff.mpr (right outcomes)

end Passing

end Covenant
