import Adventure.Record.Reader
import Adventure.Text.Decimal

/-!
Records in JSON.

Numbers with a point or an exponent, and texts with half of a surrogate pair, are read as such but
have no value here: they may stand only where they are skipped.
-/

namespace Adventure.Record

namespace Json

/-- A JSON value. -/
inductive Value where
  | null
  | bool (b : Bool)
  /-- A whole number, by its sign and its size. -/
  | integer (negative : Bool) (size : Nat)
  /-- A number with a point or an exponent. -/
  | decimal
  /-- A text, or nothing if half of a surrogate pair is escaped in it. -/
  | text (s : Option String)
  | list (items : List Value)
  | object (fields : List (Option String × Value))

/-- Passes over blanks. -/
def gap : Gap := fun cs =>
  some ⟨cs.dropWhile isBlank, (List.dropWhile_sublist isBlank).length_le⟩

/-- Four hexadecimal digits. -/
def hexUnit? (a b c d : Char) : Option Nat := do
  return 4096 * (← Decimal.hexValue? a) + 256 * (← Decimal.hexValue? b) +
    16 * (← Decimal.hexValue? c) + (← Decimal.hexValue? d)

/-- What an escape of one character stands for. -/
def escaped? : Char → Option Char
  | '"' => some '"'
  | '\\' => some '\\'
  | '/' => some '/'
  | 'b' => some '\x08'
  | 'f' => some '\x0c'
  | 'n' => some '\n'
  | 'r' => some '\r'
  | 't' => some '\t'
  | _ => none

/-- A part of a text: a character, or half of a surrogate pair that was escaped alone. -/
inductive Piece where
  | char (c : Char)
  | half

/-- The second half of a surrogate pair, escaped right at the front, and what is behind it. -/
def lowHalf? : List Char → Option (Nat × List Char)
  | '\\' :: 'u' :: a :: b :: c :: d :: rest =>
    match hexUnit? a b c d with
    | some n => if 0xdc00 ≤ n ∧ n < 0xe000 then some (n, rest) else none
    | none => none
  | _ => none

theorem length_lowHalf? {cs rest : List Char} {n : Nat} (h : lowHalf? cs = some (n, rest)) :
    rest.length ≤ cs.length := by
  unfold lowHalf? at h
  split at h
  · split at h
    · split at h
      · simp only [Option.some.injEq, Prod.mk.injEq] at h
        obtain ⟨-, rfl⟩ := h
        simp only [List.length_cons]
        omega
      · simp at h
    · simp at h
  · simp at h

/-- The parts of a text behind its opening quote, and what is behind its closing one. -/
def pieces? (cs : List Char) : Option (List Piece × List Char) :=
  match cs with
  | [] => none
  | '"' :: rest => some ([], rest)
  | '\\' :: 'u' :: a :: b :: c :: d :: rest =>
    match hexUnit? a b c d with
    | none => none
    | some n =>
      if 0xd800 ≤ n ∧ n < 0xdc00 then
        match _h : lowHalf? rest with
        | some (low, behind) =>
          (pieces? behind).map fun (ps, r) =>
            (.char (Char.ofNat (0x10000 + (n - 0xd800) * 0x400 + (low - 0xdc00))) :: ps, r)
        | none => (pieces? rest).map fun (ps, r) => (.half :: ps, r)
      else if 0xdc00 ≤ n ∧ n < 0xe000 then
        (pieces? rest).map fun (ps, r) => (.half :: ps, r)
      else (pieces? rest).map fun (ps, r) => (.char (Char.ofNat n) :: ps, r)
  | '\\' :: e :: rest =>
    match escaped? e with
    | some c => (pieces? rest).map fun (ps, r) => (.char c :: ps, r)
    | none => none
  | c :: rest =>
    if c = '\\' ∨ c.toNat < 0x20 then none
    else (pieces? rest).map fun (ps, r) => (.char c :: ps, r)
termination_by cs.length
decreasing_by
  · have := length_lowHalf? _h
    simp only [List.length_cons]
    omega
  all_goals simp only [List.length_cons]; omega

theorem length_pieces? {cs rest : List Char} {ps : List Piece} (h : pieces? cs = some (ps, rest)) :
    rest.length < cs.length := by
  fun_induction pieces? cs generalizing ps rest with
  | case1 => simp at h
  | case2 r =>
    simp only [Option.some.injEq, Prod.mk.injEq] at h
    obtain ⟨-, rfl⟩ := h
    simp
  | case3 => simp at h
  | case4 a b c d r n hn hs low behind hl ih =>
    obtain ⟨⟨qs, t⟩, ht, he⟩ := Option.map_eq_some_iff.mp h
    simp only [Prod.mk.injEq] at he
    obtain ⟨-, rfl⟩ := he
    have := ih ht
    have := length_lowHalf? hl
    simp only [List.length_cons]
    omega
  | case5 a b c d r n hn hs hl ih =>
    obtain ⟨⟨qs, t⟩, ht, he⟩ := Option.map_eq_some_iff.mp h
    simp only [Prod.mk.injEq] at he
    obtain ⟨-, rfl⟩ := he
    have := ih ht
    simp only [List.length_cons]
    omega
  | case6 a b c d r n hn h₁ h₂ ih =>
    obtain ⟨⟨qs, t⟩, ht, he⟩ := Option.map_eq_some_iff.mp h
    simp only [Prod.mk.injEq] at he
    obtain ⟨-, rfl⟩ := he
    have := ih ht
    simp only [List.length_cons]
    omega
  | case7 a b c d r n hn h₁ h₂ ih =>
    obtain ⟨⟨qs, t⟩, ht, he⟩ := Option.map_eq_some_iff.mp h
    simp only [Prod.mk.injEq] at he
    obtain ⟨-, rfl⟩ := he
    have := ih ht
    simp only [List.length_cons]
    omega
  | case8 e r hu c hc ih =>
    obtain ⟨⟨qs, t⟩, ht, he⟩ := Option.map_eq_some_iff.mp h
    simp only [Prod.mk.injEq] at he
    obtain ⟨-, rfl⟩ := he
    have := ih ht
    simp only [List.length_cons]
    omega
  | case9 => simp at h
  | case10 => simp at h
  | case11 c r h₁ h₂ h₃ h₄ ih =>
    obtain ⟨⟨qs, t⟩, ht, he⟩ := Option.map_eq_some_iff.mp h
    simp only [Prod.mk.injEq] at he
    obtain ⟨-, rfl⟩ := he
    have := ih ht
    simp only [List.length_cons]
    omega

/-- The text that some parts make up, unless one is half of a surrogate pair. -/
def textOf? : List Piece → Option (List Char)
  | [] => some []
  | .char c :: ps => (textOf? ps).map (c :: ·)
  | .half :: _ => none

/-- A text in double quotes. -/
def text : Reader (Option String)
  | '"' :: rest =>
    match h : pieces? rest with
    | some (ps, behind) => some ⟨(textOf? ps).map String.ofList, behind, by
        have := length_pieces? h
        simp only [List.length_cons]
        omega⟩
    | none => none
  | _ => none

/-- Digits, of which there is at least one, off the front. -/
def digits : Reader (List Char)
  | [] => none
  | c :: rest =>
    if c.isDigit then
      some ⟨c :: rest.takeWhile Char.isDigit, rest.dropWhile Char.isDigit,
        length_dropWhile_lt Char.isDigit c rest⟩
    else none

/-- The whole part of a number: digits without a needless zero in front. -/
def whole : Reader Nat
  | '0' :: rest => some ⟨0, rest, by simp⟩
  | cs => (digits cs).map (·.map Decimal.value)

/-- The exponent of a number: the letter, a sign or none, and digits. -/
def exponent : Reader Unit
  | e :: s :: rest =>
    if e = 'e' ∨ e = 'E' then
      if s = '+' ∨ s = '-' then
        (digits rest).map fun t =>
          (t.map fun _ => ()).within (by simp only [List.length_cons]; omega)
      else (digits (s :: rest)).map fun t => (t.map fun _ => ()).within (by simp)
    else none
  | _ => none

/-- The part of a number behind its point. -/
def fraction : Reader Unit
  | '.' :: rest => (digits rest).map fun t => (t.map fun _ => ()).within (by simp)
  | _ => none

/-- Whether the next part of a number starts with one of some characters. -/
def startsWith (marks : List Char) (cs : List Char) : Bool :=
  (cs.head?.map marks.contains).getD false

/-- A part of a number that must be there if its mark is. Says whether it was. -/
def optionalPart (marks : List Char) (part : Reader Unit) (cs : List Char) :
    Option (Bool × { rest : List Char // rest.length ≤ cs.length }) :=
  if startsWith marks cs then
    (part cs).map fun t => (true, ⟨t.rest, Nat.le_of_lt t.shorter⟩)
  else some (false, ⟨cs, Nat.le_refl _⟩)

/-- A number behind its sign. -/
def unsigned (negative : Bool) : Reader Value := fun cs =>
  match whole cs with
  | none => none
  | some t =>
    match optionalPart ['.'] fraction t.rest with
    | none => none
    | some (hasPoint, ⟨behindPoint, h₁⟩) =>
      match optionalPart ['e', 'E'] exponent behindPoint with
      | none => none
      | some (hasExponent, ⟨rest, h₂⟩) =>
        some ⟨if hasPoint || hasExponent then .decimal else .integer negative t.value, rest, by
          have := t.shorter
          omega⟩

/-- A number. -/
def number : Reader Value
  | '-' :: rest => (unsigned true rest).map (·.within (by simp))
  | cs => unsigned false cs

/-- A field of an object: a name, a colon and a value. -/
def field (value : Reader Value) : Reader (Option String × Value) :=
  text.andThen fun name =>
    (Reader.behind gap (Reader.word [':'])).andThen fun _ cs =>
      (Reader.behind gap value cs).map (·.map fun v => (name, v))

/-- A value whose inner values are read by `inner`. -/
def valueWith (inner : Reader Value) : Reader Value
  | '"' :: rest => (text ('"' :: rest)).map (·.map .text)
  | '[' :: rest =>
    (Reader.upTo ']' gap false inner true rest).map fun t => (t.map .list).within (by simp)
  | '\x7b' :: rest =>
    (Reader.upTo '\x7d' gap false (field inner) true rest).map fun t =>
      (t.map .object).within (by simp)
  | 'n' :: rest => (Reader.word "null".toList).as .null ('n' :: rest)
  | 't' :: rest => (Reader.word "true".toList).as (.bool true) ('t' :: rest)
  | 'f' :: rest => (Reader.word "false".toList).as (.bool false) ('f' :: rest)
  | cs => number cs

/-- A value in which others nest up to some levels. -/
def value : (levels : Nat) → Reader Value
  | 0 => fun _ => none
  | levels + 1 => valueWith (value levels)

/-- Reads a text that holds one value and nothing else but blanks. A text has no more levels than
characters. -/
def parse? (s : String) : Option Value :=
  match Reader.behind gap (value (s.length + 1)) s.toList with
  | none => none
  | some t => if t.rest.all isBlank then some t.value else none

end Json

end Adventure.Record
