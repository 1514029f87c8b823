import Adventure.Markup.Line
import Adventure.Score
import Adventure.Text.Decimal

/-!
Option lines: `-order-text-<target` for a decision and `-order-<target` for a branch. Blanks of
ASCII may stand around the order. A line that reads as a decision is one, even where it reads as a
branch as well.
-/

namespace Adventure.Markup

/-- What an option line reads as. -/
inductive OptionShape where
  | decision
  | branch
  | malformed
deriving DecidableEq, Repr

/-- An option as it is written, its order still in digits. -/
structure OptionParts where
  order : List Char
  text : List Char
  target : List Char
deriving DecidableEq, Repr

namespace OptionParts

/-- The digits of the order and what follows them. -/
def order? : List Char → Option (List Char × List Char)
  | '-' :: rest =>
    let start := rest.dropWhile Text.isAsciiBlank
    let digits := start.takeWhile Char.isDigit
    if digits = [] then none
    else some (digits, (start.dropWhile Char.isDigit).dropWhile Text.isAsciiBlank)
  | _ => none

/-- A line read as an option of a decision. The text ends at the first `-<` behind it. -/
def ofDecision? (line : List Char) : Option OptionParts :=
  match order? line with
  | some (order, '-' :: behind) =>
    (Text.splitAround? ['-', '<'] behind).map fun (text, target) => ⟨order, text, target⟩
  | _ => none

/-- A line read as an option of a branch. -/
def ofBranch? (line : List Char) : Option OptionParts :=
  match order? line with
  | some (order, '-' :: '<' :: target) => some ⟨order, [], target⟩
  | _ => none

/-- The order as a score and the trimmed target, unless the order is too great or the target
blank. -/
def usable? (p : OptionParts) : Option (Score × String) :=
  match (Decimal.read? p.order).bind Score.ofInt? with
  | none => none
  | some order =>
    let target := Text.trim p.target
    if target = [] then none else some (order, String.ofList target)

end OptionParts

/-- The shape of an option line. -/
def OptionShape.ofLine (l : Line) : OptionShape :=
  if (OptionParts.ofDecision? l.text).isSome then .decision
  else if (OptionParts.ofBranch? l.text).isSome then .branch
  else .malformed

end Adventure.Markup
