/-!
# Sets of characters

A property of characters that a standard fixes by listing is kept as intervals of code points.
-/

namespace Calculator.Text

/-- A set of characters, as closed intervals of code points. -/
structure CharSet where
  intervals : List (Nat × Nat)

namespace CharSet

/-- Whether a character lies in one of the intervals. -/
def contains (s : CharSet) (c : Char) : Bool :=
  s.intervals.any fun i => i.1 ≤ c.toNat && c.toNat ≤ i.2

theorem contains_iff {s : CharSet} {c : Char} :
    s.contains c = true ↔ ∃ i ∈ s.intervals, i.1 ≤ c.toNat ∧ c.toNat ≤ i.2 := by
  simp [contains]

end CharSet

end Calculator.Text
