/-!
# Sets of characters

A set of characters is written down by codes: those of the characters without a
neighbour in the set, and for every longer stretch without a gap the code of its
first character and the number of its characters.
-/

namespace Covenant.Text

structure CharSet where
  /-- Characters that stand alone. -/
  alone : List Nat := []
  /-- The first codes of the runs, with their lengths. -/
  runs : List (Nat × Nat)

def CharSet.contains (set : CharSet) (character : Char) : Bool :=
  set.alone.contains character.toNat ||
    set.runs.any fun (first, length) =>
      first ≤ character.toNat && character.toNat < first + length

end Covenant.Text
