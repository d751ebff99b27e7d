import Covenant.Proofs.ReadingModules

/-!
# Reading ends

The readers watch over their own progress.  A round of a repetition that leaves
as much to be read as it found stalls, and so does a reader that is nested in
another one and starts with as much as that one, and a step past the last token.
What is left is weighed with a double angle bracket counted twice, since its
first half is taken while the second one stays in its place.

None of this comes up: reading ends with a program or with a report, except that
the values of an enum may be counted past the largest one.
-/

namespace Covenant

namespace Reading

/--
Whatever uses up nothing of what is left to be read stalls.  Reading that does
not stall has made progress in every round and at every nesting.
-/
structure Watched : Prop where
  repeats : ∀ {Outcome : Type} {round : Reading Outcome} {before after : State}
    {outcome : Outcome}, round.run before = .ok (outcome, after) →
    before.weight ≤ after.weight → (advancing round).run before = .error .stalled
  nests : ∀ {Outcome : Type} (nested : Reading Outcome) {weight : Nat} {before : State},
    weight ≤ before.weight → (below weight nested).run before = .error .stalled
  passes : ∀ {before : State}, before.rest = [] → skip.run before = .error .stalled

theorem watched : Watched where
  repeats := by
    intro Outcome round before after outcome ran kept
    have opened : (advancing round).run before = round.run before >>= fun pair =>
        (if pair.2.weight < before.weight then pure pair.1 else stall : Reading Outcome).run
          pair.2 :=
      rfl
    rw [opened, ran]
    change (if after.weight < before.weight then pure outcome else stall : Reading Outcome).run
      after = .error .stalled
    rw [if_neg (Nat.not_lt.mpr kept)]
    rfl
  nests := by
    intro Outcome nested weight before kept
    change (if before.weight < weight then nested else stall).run before = .error .stalled
    rw [if_neg (Nat.not_lt.mpr kept)]
    rfl
  passes := by
    intro before ended
    cases before
    cases ended
    rfl

end Reading

/--
Reading ends for all tokens and never stalls: no round and no nesting is without
progress, and the end is not passed.
-/
theorem ofTokens_ends (interface? : String → Option Interface) (tokens : List Token) :
    Reading.Watched ∧
      ((∃ program, Program.ofTokens interface? tokens = .ok program) ∨
        (∃ error, Program.ofTokens interface? tokens = .error (.error error)) ∨
        Program.ofTokens interface? tokens = .error .overflow ∧ Reading.Overruns tokens) := by
  refine ⟨Reading.watched, ?_⟩
  have fair := (ofTokens_fair interface? tokens).1
  cases read : Program.ofTokens interface? tokens with
  | ok program => exact .inl ⟨program, rfl⟩
  | error failure =>
    have fairly := fair failure read
    cases failure with
    | error error => exact .inr (.inl ⟨error, rfl⟩)
    | overflow => exact .inr (.inr ⟨rfl, fairly⟩)
    | stalled => exact fairly.elim

end Covenant
