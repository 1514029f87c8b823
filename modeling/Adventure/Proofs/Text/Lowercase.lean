import Adventure.Text.Lowercase
import Adventure.Text.Pieces

/-!
Text in lower case holds no capitals of ASCII (`asciiLower_lowercase`), so a word that was put into
lower case by the rules of Unicode is looked up as it is where only the case of ASCII is ignored.
-/

namespace Adventure.Text

/-- The small letter of every capital comes behind the capitals of ASCII. -/
theorem capitalRuns_above : ∀ r ∈ capitalRuns, 90 < (r.1 : Int) + r.2.2.2 := by decide +kernel

theorem not_capital_of_smallOffset (n : Nat) :
    (n + smallOffset n).toNat < 65 ∨ 90 < (n + smallOffset n).toNat := by
  rw [smallOffset]
  split
  · rename_i first last step offset hrun
    have hbound := capitalRuns_above _ (List.mem_of_find?_eq_some hrun)
    have hmatch := List.find?_some hrun
    simp only [Bool.and_eq_true, decide_eq_true_eq] at hbound hmatch
    omega
  · rename_i hnone
    -- The capitals of ASCII are the first run, so a character in no run is none of them.
    have hfirst := List.find?_eq_none.mp hnone (65, 90, 1, 32) (by decide)
    simp only [Bool.and_eq_true, decide_eq_true_eq, Nat.mod_one, beq_self_eq_true,
      and_true] at hfirst
    omega

theorem toLower_of_toNat {c : Char} (h : c.toNat < 65 ∨ 90 < c.toNat) : c.toLower = c := by
  apply dif_neg
  rintro ⟨hlow, hhigh⟩
  have hlow : 65 ≤ c.toNat := hlow
  have hhigh : c.toNat ≤ 90 := hhigh
  omega

theorem toLower_ofNat {n : Nat} (h : n < 65 ∨ 90 < n) : (Char.ofNat n).toLower = Char.ofNat n := by
  by_cases hvalid : n.isValidChar
  · rw [Char.ofNat, dif_pos hvalid]
    exact toLower_of_toNat h
  · rw [Char.ofNat, dif_neg hvalid]
    decide

theorem asciiLower_smallLetters (c : Char) : asciiLower (smallLetters c) = smallLetters c := by
  rw [smallLetters]
  split
  · decide
  · exact congrArg ([·]) (toLower_ofNat (not_capital_of_smallOffset c.toNat))

theorem asciiLower_append (xs ys : List Char) :
    asciiLower (xs ++ ys) = asciiLower xs ++ asciiLower ys := List.map_append

theorem asciiLower_lowercaseAfter (before cs : List Char) :
    asciiLower (lowercaseAfter before cs) = lowercaseAfter before cs := by
  induction cs generalizing before with
  | nil => rfl
  | cons c cs ih =>
    rw [lowercaseAfter, asciiLower_append, ih]
    congr 1
    split
    · split
      · decide
      · decide
    · exact asciiLower_smallLetters c

/-- **Text in lower case holds no capitals of ASCII.** -/
theorem asciiLower_lowercase (cs : List Char) : asciiLower (lowercase cs) = lowercase cs :=
  asciiLower_lowercaseAfter [] cs

end Adventure.Text
