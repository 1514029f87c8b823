/-!
Whole numbers in digits. `digits` writes a number in base ten and `value` reads one; `hexDigits`
writes base sixteen.
-/

namespace Adventure.Decimal

/-- The digits of a number in base ten, the last one last, without leading zeros. -/
def digits (n : Nat) : List Char :=
  if n < 10 then [Nat.digitChar n] else digits (n / 10) ++ [Nat.digitChar (n % 10)]

/-- The digits of a number in base sixteen, in lower case and without leading zeros. -/
def hexDigits (n : Nat) : List Char :=
  if n < 16 then [Nat.digitChar n] else hexDigits (n / 16) ++ [Nat.digitChar (n % 16)]

/-- The number that a row of decimal digits stands for. -/
def value (cs : List Char) : Nat :=
  cs.foldl (fun n c => 10 * n + (c.toNat - '0'.toNat)) 0

/-- The value of a digit in base sixteen, in either case. -/
def hexValue? (c : Char) : Option Nat :=
  if c.isDigit then some (c.toNat - '0'.toNat)
  else if 'a' ≤ c ∧ c ≤ 'f' then some (c.toNat - 'a'.toNat + 10)
  else if 'A' ≤ c ∧ c ≤ 'F' then some (c.toNat - 'A'.toNat + 10)
  else none

/-- The number that digits stand for in a base of at most sixteen, if all are digits of it. -/
def valueIn? (base : Nat) (cs : List Char) : Option Nat :=
  cs.foldlM (fun n c => ((hexValue? c).filter (· < base)).map (base * n + ·)) 0

/-- A whole number in base ten, with a minus sign when it is negative. -/
def signed (n : Int) : List Char :=
  if n < 0 then '-' :: digits n.natAbs else digits n.natAbs

/-- A natural number as a string. -/
def ofNat (n : Nat) : String := String.ofList (digits n)

/-- A whole number as a string. -/
def ofInt (n : Int) : String := String.ofList (signed n)

/-- Reads a whole number: an optional minus sign and at least one digit, and nothing else. -/
def read? : List Char → Option Int
  | '-' :: ds => if ds ≠ [] ∧ ds.all Char.isDigit then some (-(value ds : Int)) else none
  | ds => if ds ≠ [] ∧ ds.all Char.isDigit then some (value ds) else none

/-- Reads a natural number, which may have a plus sign in front. -/
def readNat? : List Char → Option Nat
  | '+' :: ds => if ds ≠ [] ∧ ds.all Char.isDigit then some (value ds) else none
  | ds => if ds ≠ [] ∧ ds.all Char.isDigit then some (value ds) else none

end Adventure.Decimal
