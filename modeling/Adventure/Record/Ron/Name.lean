import Adventure.Record.Reader

/-!
What stands between the values of a record in RON, and the names in it.

Blanks are spaces, tabs and line ends. Comments go to the end of a line, or from `/*` to `*/`, where
they may hold others.
-/

namespace Adventure.Record.Ron

/-! ### Between values -/

/-- What is behind the end of a comment that may hold others, `depth` of which are open besides. -/
def behindComment? (depth : Nat) : List Char → Option (List Char)
  | [] => none
  | '/' :: '*' :: rest => behindComment? (depth + 1) rest
  | '*' :: '/' :: rest =>
    match depth with
    | 0 => some rest
    | outer + 1 => behindComment? outer rest
  | _ :: rest => behindComment? depth rest

theorem length_behindComment? {depth : Nat} {cs rest : List Char}
    (h : behindComment? depth cs = some rest) : rest.length ≤ cs.length := by
  fun_induction behindComment? depth cs with
  | case1 => simp at h
  | case2 depth cs ih =>
    have := ih h
    simp only [List.length_cons]
    omega
  | case3 cs =>
    simp only [Option.some.injEq] at h
    subst h
    simp only [List.length_cons]
    omega
  | case4 cs outer ih =>
    have := ih h
    simp only [List.length_cons]
    omega
  | case5 depth c cs _ _ ih =>
    have := ih h
    simp only [List.length_cons]
    omega

/-- What is behind the two marks of a comment is shorter. -/
theorem length_of_comment {cs rest behind : List Char} {a b : Char}
    (h : cs.dropWhile isBlank = a :: b :: rest) (hb : behind.length ≤ rest.length) :
    behind.length < cs.length := by
  have := (List.dropWhile_sublist isBlank (l := cs)).length_le
  rw [h, List.length_cons, List.length_cons] at this
  omega

/-- Passes over blanks and comments. A slash that starts no comment may not stand there. -/
def gap : Gap := fun cs =>
  match h : cs.dropWhile isBlank with
  | '/' :: '/' :: rest =>
    (gap (rest.dropWhile (· ≠ '\n'))).map fun r => ⟨r.1, Nat.le_trans r.2
      (Nat.le_of_lt (length_of_comment h (List.dropWhile_sublist _).length_le))⟩
  | '/' :: '*' :: rest =>
    match hb : behindComment? 0 rest with
    | some behind =>
      (gap behind).map fun r => ⟨r.1, Nat.le_trans r.2
        (Nat.le_of_lt (length_of_comment h (length_behindComment? hb)))⟩
    | none => none
  | '/' :: _ => none
  | rest => some ⟨rest, by
      have h₁ := (List.dropWhile_sublist isBlank (l := cs)).length_le
      rw [h] at h₁
      exact h₁⟩
termination_by cs => cs.length
decreasing_by
  · exact length_of_comment h (List.dropWhile_sublist _).length_le
  · exact length_of_comment h (length_behindComment? hb)

/-! ### Names -/

/-- The characters that a name starts with. -/
def startsName (c : Char) : Bool := c.isAlpha || c = '_'

/-- The characters that a name goes on with. -/
def isNameChar (c : Char) : Bool := c.isAlphanum || c = '_'

/-- The characters of a raw name, which follows `r#`. -/
def isRawNameChar (c : Char) : Bool := isNameChar c || c = '.' || c = '+' || c = '-'

/-- A name. One that goes on with characters of a raw name is none, and neither is the start of a
raw text. -/
def name : Reader (List Char)
  | 'r' :: '"' :: _ => none
  | 'r' :: '#' :: rest =>
    let raw := rest.takeWhile isRawNameChar
    if raw = [] then none
    else some ⟨raw, rest.dropWhile isRawNameChar, by
      have := (List.dropWhile_sublist isRawNameChar (l := rest)).length_le
      simp only [List.length_cons]
      omega⟩
  | c :: rest =>
    if startsName c && !((rest.dropWhile isNameChar).head?.map isRawNameChar).getD false then
      some ⟨c :: rest.takeWhile isNameChar, rest.dropWhile isNameChar, by
        have := (List.dropWhile_sublist isNameChar (l := rest)).length_le
        simp only [List.length_cons]
        omega⟩
    else none
  | [] => none

/-- A word that does not go on as a name. -/
def wholeWord (w : String) : Reader Unit := fun cs =>
  (Reader.word w.toList cs).filter fun t => !(t.rest.head?.map isNameChar).getD false

end Adventure.Record.Ron
