import Adventure.Program.Files
import Adventure.Program.Result
import Adventure.Program.Shell
import Adventure.Record.Schema

/-!
The condition tester: tells whether a condition holds of game data in a file, or opens the shell.
-/

namespace Adventure.Program.ConditionTest

/-- How the program is called. -/
def usage : String := "Usage: condition_tester <game_data.ron> [script]"

variable [Record.Formats]

/-- The game data in a file. -/
def gameData (look : Look) (path : String) : Except String GameData :=
  match look.text path with
  | .error e => .error s!"ERROR: Failed to load game data: IO error: {e.message}"
  | .ok text =>
    match GameData.ofRon? text with
    | some d => .ok d
    | none => .error "ERROR: Failed to load game data: RON deserialization error"

/-- What the arguments ask for. -/
inductive Request where
  /-- The program is done. -/
  | done (result : Result)
  /-- The shell opens. -/
  | shell (d : GameData)

/-- The result of one condition: the exit code tells whether it holds. -/
def test (d : GameData) (script : String) : Result :=
  match Condition.evaluate script d with
  | .ok true => .printed 0 ["true"]
  | .ok false => .printed 1 ["false"]
  | .error e => .failed 2 (Shell.errorLine e)

/-- Reads the arguments. All behind the first make up one condition. -/
def request (look : Look) : List String → Request
  | [] => .done (.printed 0 [usage])
  | path :: script =>
    if path = "--help" || path = "-h" then .done (.printed 0 [usage])
    else
      match gameData look path with
      | .error reason => .done (.failed 2 reason)
      | .ok d => if script.isEmpty then .shell d else .done (test d (Text.join " " script))

/-- What the shell prints while it is given some lines, up to the one that ends it. -/
def shellOutput (d : GameData) : List String → String
  | [] => Shell.prompt
  | line :: rest =>
    let (answer, goesOn) := Shell.respond d line
    Shell.prompt ++ Result.ofLines answer ++ if goesOn then shellOutput d rest else ""

/-- Runs the tester on some input. -/
def run (look : Look) (args : List String) (input : String) : Result :=
  match request look args with
  | .done result => result
  | .shell d =>
    { code := 0
      output := Result.ofLines Shell.greeting ++
        shellOutput d ((Text.lines input.toList).map String.ofList) }

end Adventure.Program.ConditionTest
