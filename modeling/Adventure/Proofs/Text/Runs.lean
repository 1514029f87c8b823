import Adventure.Proofs.Text.Letter

/-!
Runs of characters, or of lines, of one kind, and the code points of digits.
-/

namespace Adventure.Text

/-- Elements of one kind are taken up to the first that is of another kind. -/
theorem takeWhile_run {α : Type} {p : α → Bool} {cs rest : List α} (hcs : cs.all p = true)
    (hrest : ∀ c ∈ rest.head?, p c = false) : (cs ++ rest).takeWhile p = cs := by
  rw [List.takeWhile_append_of_pos (List.all_eq_true.mp hcs)]
  cases rest with
  | nil => rw [List.takeWhile_nil, List.append_nil]
  | cons c rest =>
    rw [List.takeWhile_cons_of_neg (by simp [hrest c rfl]), List.append_nil]

theorem dropWhile_run {α : Type} {p : α → Bool} {cs rest : List α} (hcs : cs.all p = true)
    (hrest : ∀ c ∈ rest.head?, p c = false) : (cs ++ rest).dropWhile p = rest := by
  rw [List.dropWhile_append_of_pos (List.all_eq_true.mp hcs)]
  cases rest with
  | nil => rfl
  | cons c rest => rw [List.dropWhile_cons_of_neg (by simp [hrest c rfl])]

/-- Where dropping stops, an element of another kind stands. -/
theorem head?_dropWhile {α : Type} {p : α → Bool} {xs : List α} :
    ∀ x ∈ (xs.dropWhile p).head?, p x = false := by
  intro x hx
  have hstop := List.head?_dropWhile_not p xs
  rwa [Option.mem_def.mp hx] at hstop

/-- Taking stops at the latest at an element of another kind. -/
theorem takeWhile_append_cons {α : Type} {p : α → Bool} {x : α} (h : p x = false)
    (xs rest : List α) : (xs ++ x :: rest).takeWhile p = xs.takeWhile p := by
  rw [List.takeWhile_append]
  split
  · rename_i hall
    rw [List.takeWhile_cons_of_neg (by simp [h]), List.append_nil,
      (List.takeWhile_sublist p).eq_of_length hall]
  · rfl

/-- Dropping stops at the latest at an element of another kind. -/
theorem dropWhile_append_cons {α : Type} {p : α → Bool} {x : α} (h : p x = false)
    (xs rest : List α) : (xs ++ x :: rest).dropWhile p = xs.dropWhile p ++ x :: rest := by
  rw [List.dropWhile_append]
  split
  · rename_i hnone
    rw [List.isEmpty_iff.mp hnone, List.dropWhile_cons_of_neg (by simp [h]), List.nil_append]
  · rfl

/-- Where taking stopped it stops, whatever comes behind. -/
theorem takeWhile_append_of_stop {α : Type} {p : α → Bool} {xs : List α}
    (h : xs.dropWhile p ≠ []) (ys : List α) :
    (xs ++ ys).takeWhile p = xs.takeWhile p := by
  rw [List.takeWhile_append, if_neg]
  intro hall
  have hsplit := congrArg List.length (List.takeWhile_append_dropWhile (p := p) (l := xs))
  rw [List.length_append, hall, Nat.add_eq_left, List.length_eq_zero_iff] at hsplit
  exact h hsplit

theorem dropWhile_append_of_stop {α : Type} {p : α → Bool} {xs : List α}
    (h : xs.dropWhile p ≠ []) (ys : List α) :
    (xs ++ ys).dropWhile p = xs.dropWhile p ++ ys := by
  rw [List.dropWhile_append, if_neg (by simpa using h)]

/-- A text starts with the run that is taken from it and what the text behind that run starts with. -/
theorem takeWhile_append_prefix {α : Type} {p : α → Bool} {xs part : List α}
    (h : part <+: xs.dropWhile p) : xs.takeWhile p ++ part <+: xs := by
  obtain ⟨rest, hrest⟩ := h
  exact ⟨rest, by rw [List.append_assoc, hrest, List.takeWhile_append_dropWhile]⟩

theorem toNat_of_isDigit {c : Char} (h : c.isDigit = true) : 48 ≤ c.toNat ∧ c.toNat ≤ 57 := by
  simp only [Char.isDigit, Bool.and_eq_true, decide_eq_true_eq, ge_iff_le,
    UInt32.le_iff_toNat_le] at h
  exact h

/-- A character that starts a number is not blank. -/
theorem isBlank_of_isDigit {c : Char} (h : c.isDigit = true ∨ c = '-') : isBlank c = false := by
  cases hb : isBlank c with
  | false => rfl
  | true =>
    have hm := mem_blankPoints hb
    rcases h with h | rfl
    · have hd := toNat_of_isDigit h
      simp only [blankPoints, List.mem_cons, List.not_mem_nil, or_false] at hm
      omega
    · exact absurd hm (by decide)

theorem isAsciiBlank_of_isDigit {c : Char} (h : c.isDigit = true) : isAsciiBlank c = false := by
  have hd := toNat_of_isDigit h
  rw [isAsciiBlank, Bool.or_eq_false_iff]
  constructor
  · rw [decide_eq_false_iff_not]
    rintro rfl
    exact absurd h (by decide)
  · rw [Bool.and_eq_false_iff, decide_eq_false_iff_not, decide_eq_false_iff_not]
    right
    omega

end Adventure.Text
