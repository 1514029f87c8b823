import Adventure.Condition.Script
import Adventure.Panel

/-!
Options that are open: the branch that is taken, and the decisions that a player may make.

Guards are looked at in order. The first one that cannot be evaluated ends the search with its
error.
-/

namespace Adventure.Play

/-- The first branch, in order, whose guard holds. -/
def resolveBranch (d : GameData) : List BranchOption → Except Condition.Error (Option BranchOption)
  | [] => .ok none
  | o :: rest => do
    if ← Condition.evaluateGuard o.guard d then return some o else resolveBranch d rest

/-- The decisions whose guards hold, in order. The data holds only the player who decides. -/
def availableDecisions (d : GameData) :
    List DecisionOption → Except Condition.Error (List DecisionOption)
  | [] => .ok []
  | o :: rest => do
    let isOpen ← Condition.evaluateGuard o.guard d
    let others ← availableDecisions d rest
    return if isOpen then o :: others else others

end Adventure.Play
