import Adventure.Markup.OptionLine

/-!
Guards: conditions in square brackets, on one line or several, above the option that they guard.

A bracket is read up to the first line that ends with a closing bracket. One that is still open at
the end of its storyboard is given up. Reading never goes past the start of the next storyboard
(`Bracket.read`), and `upcomingShape` tells ahead of reading which option line follows, if any.
-/

namespace Adventure.Markup

/-- A guard and the number of the line on which it starts. -/
structure Guard where
  line : Nat
  text : String
deriving DecidableEq, Repr

/-- What stands where a guard may stand. -/
inductive Bracket where
  | absent
  /-- Brackets with nothing but blanks between them. -/
  | empty
  /-- A bracket that is never closed, and the line on which it starts. -/
  | unclosed (line : Nat)
  | guard (g : Guard)
deriving DecidableEq, Repr

namespace Bracket

/-- The lines up to the one that closes a bracket, whether it is closed at all before the storyboard
ends, and the lines behind. -/
def take : List Line → List Line × Bool × List Line
  | [] => ([], false, [])
  | l :: rest =>
    if l.isBoardStart then ([], false, l :: rest)
    else if l.closesBracket then ([l], true, rest)
    else
      let (inside, closed, behind) := take rest
      (l :: inside, closed, behind)

/-- The text between the brackets of some lines. -/
def inner (lines : List Line) : List Char :=
  Text.trim ((List.intercalate ['\n'] (lines.map Line.text)).drop 1).dropLast

/-- Reads the bracket at the front, if there is one, and gives the lines behind it. Blank lines in
front are passed over. -/
def read (lines : List Line) : Bracket × List Line :=
  match Line.skipBlank lines with
  | [] => (absent, [])
  | l :: rest =>
    if l.opensBracket then
      match take (l :: rest) with
      | (_, false, behind) => (unclosed l.number, behind)
      | (inside, true, behind) =>
        let text := inner inside
        (if text = [] then empty else guard ⟨l.number, String.ofList text⟩, behind)
    else (absent, l :: rest)

/-- The text of the guard, if there is one. -/
def guard? : Bracket → Option String
  | guard g => some g.text
  | _ => none

theorem length_take_le (lines : List Line) : (take lines).2.2.length ≤ lines.length := by
  fun_induction take lines with
  | case1 => simp
  | case2 => simp
  | case3 => simp
  | case4 l rest _ _ inside closed behind h ih =>
    rw [h] at ih
    simp only [List.length_cons] at ih ⊢
    omega

theorem length_read_le (lines : List Line) : (read lines).2.length ≤ lines.length := by
  have hs := Line.length_skipBlank_le lines
  unfold read
  split
  · simp
  · rename_i l rest h
    rw [h] at hs
    split
    · have ht := length_take_le (l :: rest)
      split
      · rename_i b hb
        simp only [hb] at ht ⊢
        omega
      · rename_i i b hb
        simp only [hb] at ht ⊢
        omega
    · exact hs

end Bracket

/-- The lines behind the one that closes a bracket, if it is closed before the storyboard ends. -/
def behindBracket? : List Line → Option (List Line)
  | [] => none
  | l :: rest =>
    if l.isBoardStart then none
    else if l.closesBracket then some rest
    else behindBracket? rest

/-- The shape of the next option line, which may have a guard above it, or nothing if something else
comes next. -/
def upcomingShape (lines : List Line) : Option OptionShape :=
  let candidate :=
    match Line.skipBlank lines with
    | [] => none
    | l :: rest =>
      if l.opensBracket then (behindBracket? (l :: rest)).map Line.skipBlank
      else some (l :: rest)
  match candidate with
  | some (l :: _) => if l.startsWith '-' then some (OptionShape.ofLine l) else none
  | _ => none

end Adventure.Markup
