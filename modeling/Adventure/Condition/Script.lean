import Adventure.Condition.Evaluation
import Adventure.Condition.Steps
import Adventure.Condition.Token.Fold

/-!
Conditions as they are written: scripts such as `character has trait "Brave" and party str > 10`.
-/

namespace Adventure.Condition

/-- The tree of a script. -/
def parse (script : String) : Except Error Tree := do Tree.ofTokens (← Token.ofScript script)

/-- Whether a script holds of game data. A blank script asks for nothing and always holds. -/
def evaluate (script : String) (d : GameData) : Except Error Bool :=
  if Text.isBlankText script then .ok true
  else do return (← parse script).holds d

/-- Whether a guard holds: a missing one asks for nothing. -/
def evaluateGuard (guard : Option String) (d : GameData) : Except Error Bool :=
  evaluate (guard.getD "") d

/-- What is wrong with a script, or nothing. A blank script is fine. -/
def check (script : String) : Option Error :=
  if Text.isBlankText script then none
  else match parse script with
    | .ok _ => none
    | .error e => some e

end Adventure.Condition
