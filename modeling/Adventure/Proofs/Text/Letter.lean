import Adventure.Text.Blank
import Adventure.Text.Letter
import Adventure.Text.Lowercase

/-!
Letters, blanks and the signs of ASCII before `A` are different characters, so the first character of
a lexeme tells its kind. The small letters of ASCII are letters, and words of them are in lower case.
-/

namespace Adventure.Text

/-- The code points of blank characters, one by one. -/
def blankPoints : List Nat :=
  [9, 10, 11, 12, 13, 32, 133, 160, 5760, 8192, 8193, 8194, 8195, 8196, 8197, 8198, 8199, 8200, 8201,
    8202, 8232, 8233, 8239, 8287, 12288]

theorem mem_blankPoints {c : Char} (h : isBlank c = true) : c.toNat ∈ blankPoints := by
  simp only [isBlank, CharClass.contains, blanks, inRuns, Bool.and_eq_true, Bool.or_eq_true,
    decide_eq_true_eq, Bool.false_eq_true, or_false] at h
  simp only [blankPoints, List.mem_cons, List.not_mem_nil, or_false]
  omega

theorem blankPoints_not_letters : ∀ n ∈ blankPoints, inRuns n letters.bounds = false := by
  decide +kernel

/-- A letter is not blank. -/
theorem isBlank_of_isLetter {c : Char} (h : isLetter c = true) : isBlank c = false := by
  cases hb : isBlank c with
  | false => rfl
  | true =>
    have hn : isLetter c = false := blankPoints_not_letters c.toNat (mem_blankPoints hb)
    rw [hn] at h
    cases h

/-- No member of a class comes before its first run. -/
theorem le_of_inRuns {n first stop : Nat} {rest : List Nat}
    (h : inRuns n (first :: stop :: rest) = true) : first ≤ n := by
  rw [inRuns, Bool.and_eq_true, decide_eq_true_eq] at h
  exact h.1

/-- No letter comes before `A`: digits, punctuation and the space are none. -/
theorem le_of_isLetter {c : Char} (h : isLetter c = true) : 65 ≤ c.toNat := le_of_inRuns h

/-! ### Small letters of ASCII -/

theorem toNat_of_isLower {c : Char} (h : c.isLower = true) : 97 ≤ c.toNat ∧ c.toNat ≤ 122 := by
  unfold Char.isLower at h
  simp only [Bool.and_eq_true, decide_eq_true_eq, ge_iff_le, UInt32.le_iff_toNat_le] at h
  exact h

theorem inRuns_second {n first stop first' stop' : Nat} {rest : List Nat} (h : first ≤ n)
    (hlow : first' ≤ n) (hhigh : n < stop') :
    inRuns n (first :: stop :: first' :: stop' :: rest) = true := by
  simp [inRuns, h, hlow, hhigh]

/-- The small letters of ASCII are letters. -/
theorem isLetter_of_isLower {c : Char} (h : c.isLower = true) : isLetter c = true := by
  obtain ⟨hlow, hhigh⟩ := toNat_of_isLower h
  exact inRuns_second (by omega) hlow (by omega)

theorem smallOffset_small : ∀ d < 26, smallOffset (97 + d) = 0 := by decide +kernel

/-- A small letter of ASCII is in lower case. -/
theorem smallLetters_of_isLower {c : Char} (h : c.isLower = true) : smallLetters c = [c] := by
  obtain ⟨hlow, hhigh⟩ := toNat_of_isLower h
  have hne : c ≠ '\u0130' := by
    rintro rfl
    exact absurd hhigh (by decide)
  have hoff := smallOffset_small (c.toNat - 97) (by omega)
  rw [Nat.add_sub_of_le hlow] at hoff
  rw [smallLetters, if_neg hne, hoff, Int.add_zero, Int.toNat_natCast, Char.ofNat_toNat]

theorem lowercaseAfter_of_isLower {cs : List Char} (h : cs.all Char.isLower = true)
    (before : List Char) : lowercaseAfter before cs = cs := by
  induction cs generalizing before with
  | nil => rfl
  | cons c cs ih =>
    rw [List.all_cons, Bool.and_eq_true] at h
    have hne : c ≠ '\u03a3' := by
      rintro rfl
      exact absurd h.1 (by decide)
    simp [lowercaseAfter, hne, smallLetters_of_isLower h.1, ih h.2]

/-- A word of small ASCII letters is in lower case. -/
theorem lowercase_of_isLower {cs : List Char} (h : cs.all Char.isLower = true) :
    lowercase cs = cs := lowercaseAfter_of_isLower h []

end Adventure.Text
