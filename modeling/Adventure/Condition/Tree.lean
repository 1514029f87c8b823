import Adventure.Condition.Error

/-!
Condition trees: phrases joined by `and` and `or`, under the scopes they are tested against.
-/

namespace Adventure.Condition

/-- A condition as a tree. -/
inductive Tree where
  | phrase (p : Phrase)
  | join (c : Connective) (lhs rhs : Tree)
  | within (scope : Scope) (inner : Tree)
deriving DecidableEq, Repr

namespace Tree

/-- The number of nodes on the longest way down to a phrase. -/
def depth : Tree → Nat
  | phrase _ => 1
  | join _ lhs rhs => max lhs.depth rhs.depth + 1
  | within _ inner => inner.depth + 1

/-- The phrases, from left to right. -/
def phrases : Tree → List Phrase
  | phrase p => [p]
  | join _ lhs rhs => lhs.phrases ++ rhs.phrases
  | within _ inner => inner.phrases

/-- The first test of a stat that stands directly under a scope without stats, where the whole tree
stands under `scope`. -/
def misplacedStat? (scope : Option Scope) : Tree → Option Error
  | phrase (.stat p) =>
    match scope with
    | some s => if s.hasStats then none else some (.statUnderTraits p.stat s)
    | none => none
  | phrase (.traits _) => none
  | join _ lhs rhs => (lhs.misplacedStat? scope).or (rhs.misplacedStat? scope)
  | within s inner => inner.misplacedStat? (some s)

end Tree

end Adventure.Condition
