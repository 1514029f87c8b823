import Adventure.Text.CharClass

/-!
Blank characters and trimming. Two classes of blanks occur: the Unicode one, which separates the
words of a condition and is trimmed from lines and names, and the ASCII one, which may stand between
the parts of an option line or an effect.

Trimming twice changes nothing (`trim_trim`), and a trimmed text neither starts nor ends with a
blank (`trim_eq_nil_or_cons`, `trim_eq_nil_or_concat`).
-/

namespace Adventure.Text

/-- The characters with the Unicode property White_Space. -/
def blanks : CharClass := ⟨[9, 14, 32, 33, 133, 134, 160, 161, 5760, 5761, 8192, 8203, 8232, 8234,
  8239, 8240, 8287, 8288, 12288, 12289]⟩

/-- Whether a character is blank. -/
def isBlank (c : Char) : Bool := blanks.contains c

/-- The blanks of ASCII: space, tab, line feed, vertical tab, form feed and carriage return. -/
def isAsciiBlank (c : Char) : Bool :=
  c = ' ' || (9 ≤ c.toNat && c.toNat ≤ 13)

/-- A text without the blanks at its start. -/
def trimStart (cs : List Char) : List Char := cs.dropWhile isBlank

/-- A text without the blanks at its end. -/
def trimEnd (cs : List Char) : List Char := (cs.reverse.dropWhile isBlank).reverse

/-- A text without the blanks at either end. -/
def trim (cs : List Char) : List Char := trimEnd (trimStart cs)

/-- A string without the blanks at either end. -/
def trimmed (s : String) : String := String.ofList (trim s.toList)

/-- Whether a string holds nothing but blanks. -/
def isBlankText (s : String) : Bool := s.toList.all isBlank

/-! ### What trimming leaves -/

theorem trimStart_cons {c : Char} (cs : List Char) (h : isBlank c = false) :
    trimStart (c :: cs) = c :: cs := by simp [trimStart, h]

theorem trimEnd_cons {c : Char} (cs : List Char) (h : isBlank c = false) :
    trimEnd (c :: cs) = c :: trimEnd cs := by
  unfold trimEnd
  rw [List.reverse_cons, List.dropWhile_append]
  split
  · rename_i he
    simp [List.isEmpty_iff.mp he, h]
  · simp

/-- A text without blanks at its start is empty or starts with a character that is not blank. -/
theorem trimStart_eq_nil_or_cons (cs : List Char) :
    trimStart cs = [] ∨ ∃ c rest, isBlank c = false ∧ trimStart cs = c :: rest := by
  induction cs with
  | nil => exact Or.inl rfl
  | cons c rest ih =>
    by_cases h : isBlank c
    · rw [trimStart, List.dropWhile_cons_of_pos h]
      exact ih
    · rw [trimStart, List.dropWhile_cons_of_neg h]
      exact Or.inr ⟨c, rest, by simpa using h, rfl⟩

theorem trimStart_trimStart (cs : List Char) : trimStart (trimStart cs) = trimStart cs := by
  rcases trimStart_eq_nil_or_cons cs with h | ⟨c, rest, hc, h⟩
  · rw [h]; rfl
  · rw [h, trimStart_cons rest hc]

theorem trimEnd_trimEnd (cs : List Char) : trimEnd (trimEnd cs) = trimEnd cs := by
  have h := trimStart_trimStart cs.reverse
  unfold trimStart at h
  unfold trimEnd
  rw [List.reverse_reverse, h]

/-- A text trimmed once stays as it is when it is trimmed again. -/
theorem trim_trim (cs : List Char) : trim (trim cs) = trim cs := by
  unfold trim
  rcases trimStart_eq_nil_or_cons cs with h | ⟨c, rest, hc, h⟩
  · rw [h]; rfl
  · rw [h, trimEnd_cons rest hc, trimStart_cons _ hc, trimEnd_cons _ hc, trimEnd_trimEnd]

/-- A trimmed text is empty or starts with a character that is not blank. -/
theorem trim_eq_nil_or_cons (cs : List Char) :
    trim cs = [] ∨ ∃ c rest, isBlank c = false ∧ trim cs = c :: rest := by
  unfold trim
  rcases trimStart_eq_nil_or_cons cs with h | ⟨c, rest, hc, h⟩
  · rw [h]; exact Or.inl rfl
  · exact Or.inr ⟨c, trimEnd rest, hc, by rw [h, trimEnd_cons rest hc]⟩

/-- A trimmed text is empty or ends with a character that is not blank. -/
theorem trim_eq_nil_or_concat (cs : List Char) :
    trim cs = [] ∨ ∃ front c, isBlank c = false ∧ trim cs = front ++ [c] := by
  rcases trimStart_eq_nil_or_cons (trimStart cs).reverse with h | ⟨c, rest, hc, h⟩
  · left
    unfold trim trimEnd
    exact List.reverse_eq_nil_iff.mpr h
  · refine Or.inr ⟨rest.reverse, c, hc, ?_⟩
    unfold trim trimEnd
    rw [← trimStart, h, List.reverse_cons]

end Adventure.Text
