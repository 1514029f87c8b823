/-!
Classes of characters, written down as the code points at which membership changes.
-/

namespace Adventure.Text

/-- A class of characters. The bounds rise and come in pairs: the first of a pair is the code point
of a run's first member, the second the code point after its last member. -/
structure CharClass where
  bounds : List Nat

/-- Whether a code point lies in one of the runs. -/
def inRuns (n : Nat) : List Nat → Bool
  | first :: stop :: rest => first ≤ n && (n < stop || inRuns n rest)
  | _ => false

/-- Whether a character is a member. -/
def CharClass.contains (k : CharClass) (c : Char) : Bool := inRuns c.toNat k.bounds

end Adventure.Text
