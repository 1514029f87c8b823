/-!
What running a program leaves behind.
-/

namespace Adventure.Program

/-- The exit code of a program, and what it printed. -/
structure Result where
  code : Nat
  output : String := ""
  errors : String := ""
deriving DecidableEq, Repr

namespace Result

/-- Lines, each with a line feed behind it. -/
def ofLines (lines : List String) : String := String.join (lines.map (· ++ "\n"))

/-- A program that ends after printing lines. -/
def printed (code : Nat) (lines : List String) : Result := { code, output := ofLines lines }

/-- A program that fails with one line about the reason. -/
def failed (code : Nat) (line : String) : Result := { code, errors := line ++ "\n" }

end Result

end Adventure.Program
