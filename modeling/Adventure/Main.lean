import Adventure.Program.ConditionTest
import Adventure.Program.Lint
import Adventure.Record.Read
import Adventure.TavernNight

/-!
The command line. The first argument chooses a program, and the others are its own. Everything that
a program decides is decided in its own module; here files and lines are read, and results printed.
-/

namespace Adventure.Program

/-- The assets below a directory, each with the names that lead to it. -/
partial def assetsBelow (directory : String) (names : List String) :
    IO (List (List String × ByteArray)) := do
  let mut found := []
  for entry in ← ((← IO.currentDir) / directory).readDir do
    let inner := names ++ [entry.fileName]
    if ← entry.path.isDir then
      found := found ++ (← assetsBelow (Lint.inDirectory directory entry.fileName) inner)
    else if Lint.isAsset entry.fileName then
      found := found ++ [(inner, ← IO.FS.readBinFile entry.path)]
  return found

/-- What stands at a path. -/
def find (path : String) : IO (Except FileFault Found) := do
  if path = "" then return .error .missing
  if ← ((← IO.currentDir) / path).isDir then return .ok (.directory (← assetsBelow path []))
  try
    return .ok (.file (← IO.FS.readBinFile path))
  catch
    | .inappropriateType .. => return .error .notDirectory
    | .invalidArgument .. => return .error .nameTooLong
    | _ => return .error .missing

/-- How some paths are looked up. Nothing else is there. -/
def lookAt (paths : List String) : IO Look := do
  let found ← paths.mapM fun path => do return (path, ← find path)
  return fun path => (found.lookup path).getD (.error .missing)

/-- Prints a result and gives its exit code. -/
def finish (r : Result) : IO UInt32 := do
  IO.print r.output
  IO.eprint r.errors
  return r.code.toUInt32

/-- Answers lines until one ends the shell or there are no more. -/
partial def serveShell (d : GameData) : IO Unit := do
  IO.print Shell.prompt
  (← IO.getStdout).flush
  let line ← try (← IO.getStdin).getLine catch _ => pure ""
  if line.isEmpty then return
  let (answer, goesOn) := Shell.respond d line
  IO.print (Result.ofLines answer)
  if goesOn then serveShell d

/-- Runs the condition tester. -/
def testConditions (args : List String) : IO UInt32 := do
  match ConditionTest.request (← lookAt (args.take 1)) args with
  | .done result => finish result
  | .shell d =>
    IO.print (Result.ofLines Shell.greeting)
    serveShell d
    return 0

/-- Runs the program that the first argument chooses. -/
def run (args : List String) : IO UInt32 :=
  match args with
  | "condition_tester" :: rest => testConditions rest
  | "storyboard_linter" :: rest => do finish (Lint.run (← lookAt rest) rest)
  | "tavern_night" :: _ => finish (.printed 0 TavernNight.transcript)
  | _ => finish (.failed 2 "Usage: adventure condition_tester|storyboard_linter|tavern_night ...")

end Adventure.Program

/-- The command line. -/
def main (args : List String) : IO UInt32 := Adventure.Program.run args
