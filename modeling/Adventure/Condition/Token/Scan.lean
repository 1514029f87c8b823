import Adventure.Condition.Error
import Adventure.Text.Blank
import Adventure.Text.Letter
import Adventure.Text.Lowercase

/-!
From a script to its tokens. A script is cut into blanks and lexemes from the front; each lexeme is
as long as it can be and spells one token.
-/

namespace Adventure.Condition

/-- How many bytes some characters take up in UTF-8. -/
def byteLength (cs : List Char) : Nat := (cs.map Char.utf8Size).foldr (· + ·) 0

/-- The characters that a word may go on with. -/
def isWordChar (c : Char) : Bool := Text.isLetter c || c = '-' || c = '_'

/-- The tokens of a single character. -/
def symbol? : Char → Option Token
  | '(' => some .openParen
  | ')' => some .closeParen
  | ',' => some .comma
  | '>' => some (.comparison .greater)
  | '<' => some (.comparison .less)
  | '=' => some (.comparison .equal)
  | _ => none

/-- The number that a lexeme of digits spells, at a place in the script. -/
def readNumber (position : Nat) (digits : List Char) : Except Error Token :=
  match (Decimal.read? digits).bind Score.ofInt? with
  | some n => .ok (.number n)
  | none => .error (.invalidNumber (String.ofList digits) position)

/-- The token that a word stands for. -/
def readWord (word : List Char) : Except Error Token :=
  let small := String.ofList (Text.lowercase word)
  match Token.ofWord? small with
  | some t => .ok t
  | none => .error (.unknownWord small)

/-- The tokens from a place in the script on. -/
def scanFrom (position : Nat) : List Char → Except Error (List Token)
  | [] => .ok []
  | c :: rest =>
    if Text.isBlank c then scanFrom (position + c.utf8Size) rest
    else if c.isDigit || c = '-' then do
      let lexeme := c :: rest.takeWhile Char.isDigit
      let token ← readNumber position lexeme
      return token :: (← scanFrom (position + byteLength lexeme) (rest.dropWhile Char.isDigit))
    else if Text.isLetter c then do
      let lexeme := c :: rest.takeWhile isWordChar
      let token ← readWord lexeme
      return token :: (← scanFrom (position + byteLength lexeme) (rest.dropWhile isWordChar))
    else if c = '"' then
      let text := rest.takeWhile (· ≠ '"')
      match _h : rest.dropWhile (· ≠ '"') with
      | [] => .error (.unclosedQuote position)
      | _ :: behind => do
        return .quote (String.ofList text) ::
          (← scanFrom (position + byteLength text + 2) behind)
    else if c = '!' then
      match rest with
      | '=' :: behind => do
        return .comparison .unequal :: (← scanFrom (position + 2) behind)
      | _ => .error (.loneBang position)
    else
      match symbol? c with
      | some token => do return token :: (← scanFrom (position + c.utf8Size) rest)
      | none => .error (.invalidCharacter c position)
termination_by cs => cs.length
decreasing_by
  · simp
  · have := (List.dropWhile_sublist Char.isDigit (l := rest)).length_le
    simp only [List.length_cons]; omega
  · have := (List.dropWhile_sublist isWordChar (l := rest)).length_le
    simp only [List.length_cons]; omega
  · have := (List.dropWhile_sublist (· ≠ '"') (l := rest)).length_le
    simp only [_h, List.length_cons] at this ⊢; omega
  · simp only [List.length_cons]; omega
  · simp

/-- The tokens of a script, one for every word or symbol. -/
def Token.scan (script : String) : Except Error (List Token) := scanFrom 0 script.toList

end Adventure.Condition
