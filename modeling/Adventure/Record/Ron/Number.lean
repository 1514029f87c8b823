import Adventure.Record.Format
import Adventure.Record.Ron.Name
import Adventure.Text.Decimal

/-!
Numbers in RON. Whole numbers may have a sign, underlines behind the first digit, and base 16, 8
or 2. A number with a point or an exponent has no underlines, and one whose digits make no whole
number of 64 bits is read as one with a point.
-/

namespace Adventure.Record.Ron

/-- A number: its sign and size, or nothing if it has a point or an exponent. -/
inductive Number where
  | integer (sign : Option Sign) (size : Nat)
  | decimal
deriving DecidableEq, Repr

/-! ### Whole numbers -/

/-- The characters of a whole number behind its sign and base. -/
def isIntegerChar (c : Char) : Bool := (Decimal.hexValue? c).isSome || c = '_'

/-- The digits of a whole number, behind its sign and base. -/
def digitsIn (base : Nat) : Reader Nat
  | c :: rest =>
    if isIntegerChar c && c ≠ '_' then
      match Decimal.valueIn? base ((c :: rest.takeWhile isIntegerChar).filter (· ≠ '_')) with
      | some n => some ⟨n, rest.dropWhile isIntegerChar, length_dropWhile_lt isIntegerChar c rest⟩
      | none => none
    else none
  | [] => none

/-- The size of a whole number, in the base that its start tells. -/
def size : Reader Nat
  | '0' :: 'x' :: rest => (digitsIn 16 rest).map (·.within (by simp only [List.length_cons]; omega))
  | '0' :: 'o' :: rest => (digitsIn 8 rest).map (·.within (by simp only [List.length_cons]; omega))
  | '0' :: 'b' :: rest => (digitsIn 2 rest).map (·.within (by simp only [List.length_cons]; omega))
  | cs => digitsIn 10 cs

/-- The greatest size of a whole number with a certain sign. Without one, no bit is spent on it. -/
def maxSize : Option Sign → Nat
  | none => Nat.pow 2 64 - 1
  | some .plus => Nat.pow 2 63 - 1
  | some .minus => Nat.pow 2 63

/-! ### Numbers with a point -/

/-- The characters of a number with a point or an exponent, and underlines, which only show that it
is none. -/
def isDecimalChar (c : Char) : Bool :=
  c.isDigit || c = 'e' || c = 'E' || c = '.' || c = '+' || c = '-' || c = '_'

/-- What is behind digits, of which there is at least one. -/
def behindDigits? : List Char → Option (List Char)
  | c :: rest => if c.isDigit then some (rest.dropWhile Char.isDigit) else none
  | [] => none

/-- Whether characters are the exponent of a number: nothing, or its letter, a sign or none, and
digits. -/
def isExponent : List Char → Bool
  | [] => true
  | e :: rest =>
    let digits := match rest with
      | '+' :: ds => ds
      | '-' :: ds => ds
      | ds => ds
    (e = 'e' || e = 'E') && behindDigits? digits = some []

/-- Whether characters are a number with a point or an exponent, or just digits. There are digits on
at least one side of the point. -/
def isDecimal (cs : List Char) : Bool :=
  match behindDigits? cs, cs with
  | some ('.' :: rest), _ => isExponent ((behindDigits? rest).getD rest)
  | some rest, _ => isExponent rest
  | none, '.' :: rest => ((behindDigits? rest).map isExponent).getD false
  | none, _ => false

/-- A number with a point or an exponent, behind its sign. -/
def decimal : Reader Number := fun cs =>
  if h : cs.takeWhile isDecimalChar ≠ [] ∧ isDecimal (cs.takeWhile isDecimalChar) then
    some ⟨.decimal, cs.dropWhile isDecimalChar, by
      have h₁ := congrArg List.length
        (List.takeWhile_append_dropWhile (p := isDecimalChar) (l := cs))
      have h₂ := List.length_pos_iff.mpr h.1
      simp only [List.length_append] at h₁
      omega⟩
  else none

/-! ### All numbers -/

/-- A whole number behind its sign. -/
def integer (sign : Option Sign) : Reader Number := fun cs =>
  match size cs with
  | some t => if t.value ≤ maxSize sign then some (t.map (.integer sign)) else none
  | none => none

/-- A number behind its sign. It is no whole number if it goes on as one with a point. -/
def unsigned (sign : Option Sign) : Reader Number := fun cs =>
  if (cs.takeWhile isIntegerChar).length < (cs.takeWhile isDecimalChar).length then decimal cs
  else (integer sign).orElse decimal cs

/-- Infinity, or what is no number at all, with a sign or none. -/
def special : Reader Number :=
  ["inf", "+inf", "-inf", "NaN", "+NaN", "-NaN"].foldr
    (fun w others => ((wholeWord w).as .decimal).orElse others) Reader.never

/-- A number. -/
def number : Reader Number := special.orElse fun
  | '-' :: rest => (unsigned (some .minus) rest).map (·.within (length_le_succ rest))
  | '+' :: rest => (unsigned (some .plus) rest).map (·.within (length_le_succ rest))
  | cs => unsigned none cs

end Adventure.Record.Ron
