import Adventure.Score
import Adventure.Stat

/-!
The phrases of a condition: one test of a stat or of traits, without saying yet whose.
-/

namespace Adventure.Condition

/-- How two conditions are joined. -/
inductive Connective where
  | and
  | or
deriving DecidableEq, Repr

/-- The word for a connective. -/
def Connective.word : Connective → String
  | .and => "and"
  | .or => "or"

/-- How a stat is compared with a number. -/
inductive Comparison where
  | greater
  | less
  | equal
  | unequal
deriving DecidableEq, Repr

namespace Comparison

/-- The symbol of a comparison. -/
def symbol : Comparison → String
  | greater => ">"
  | less => "<"
  | equal => "="
  | unequal => "!="

/-- Whether a comparison holds between two numbers. -/
def holds : Comparison → Int → Int → Bool
  | greater, a, b => decide (b < a)
  | less, a, b => decide (a < b)
  | equal, a, b => decide (a = b)
  | unequal, a, b => decide (a ≠ b)

end Comparison

/-- What a phrase is tested against: some character, the party as a whole with its stats summed and
its traits together, or the traits of the encounter or the session. -/
inductive Scope where
  | character
  | party
  | encounter
  | session
deriving DecidableEq, Repr

namespace Scope

/-- The word for a scope. -/
def word : Scope → String
  | character => "character"
  | party => "party"
  | encounter => "encounter"
  | session => "session"

/-- Whether a scope has stats. Encounters and sessions have traits only. -/
def hasStats : Scope → Bool
  | character | party => true
  | encounter | session => false

end Scope

/-- A test of a stat, such as `strength > 10`. -/
structure StatPhrase where
  stat : Stat
  comparison : Comparison
  number : Score
deriving DecidableEq, Repr

/-- A test of traits: whether all of them are there or, when inverse, whether one is missing. -/
structure TraitPhrase where
  inverse : Bool
  traits : List String
deriving DecidableEq, Repr

/-- One test. -/
inductive Phrase where
  | stat (p : StatPhrase)
  | traits (p : TraitPhrase)
deriving DecidableEq, Repr

end Adventure.Condition
