import Adventure.Proofs.Text.Runs

/-!
Trimmed lines. A text is trimmed already if it neither starts nor ends with a blank
(`trim_eq_self`), so lines that are put together from a mark and trimmed parts are trimmed lines.
-/

namespace Adventure.Text

/-- A text without blanks at either end stays as it is. -/
theorem trim_eq_self {cs : List Char} (hfirst : ∀ c ∈ cs.head?, isBlank c = false)
    (hlast : ∀ c ∈ cs.getLast?, isBlank c = false) : trim cs = cs := by
  have hstart : trimStart cs = cs := by
    cases cs with
    | nil => rfl
    | cons c rest => exact trimStart_cons rest (hfirst c rfl)
  rw [trim, hstart, trimEnd]
  cases hback : cs.reverse with
  | nil => exact (List.reverse_eq_nil_iff.mp hback).symm
  | cons c rest =>
    have hc : isBlank c = false := hlast c (by rw [← List.head?_reverse, hback]; rfl)
    rw [List.dropWhile_cons_of_neg (by simp [hc]), ← hback, List.reverse_reverse]

/-- A trimmed text does not start with a blank. -/
theorem isBlank_of_head? {cs : List Char} (h : trim cs = cs) :
    ∀ c ∈ cs.head?, isBlank c = false := by
  intro c hc
  rcases trim_eq_nil_or_cons cs with hnil | ⟨first, rest, hfirst, hcons⟩
  · rw [← h, hnil] at hc
    cases hc
  · rw [← h, hcons] at hc
    cases hc
    exact hfirst

theorem trimStart_of_trim {cs : List Char} (h : trim cs = cs) : trimStart cs = cs := by
  cases cs with
  | nil => rfl
  | cons c rest => exact trimStart_cons rest (isBlank_of_head? h c rfl)

/-- A trimmed text does not end with a blank. -/
theorem isBlank_of_getLast? {cs : List Char} (h : trim cs = cs) :
    ∀ c ∈ cs.getLast?, isBlank c = false := by
  intro c hc
  rcases trim_eq_nil_or_concat cs with hnil | ⟨front, last, hlast, hconcat⟩
  · rw [← h, hnil] at hc
    cases hc
  · rw [← h, hconcat, List.getLast?_concat] at hc
    cases hc
    exact hlast

/-- Whether a text is one line, trimmed. -/
def IsLine (cs : List Char) : Prop := trim cs = cs ∧ '\n' ∉ cs

instance (cs : List Char) : Decidable (IsLine cs) := inferInstanceAs (Decidable (_ ∧ _))

/-- Characters of which none is blank make a line. -/
theorem IsLine.of_all {cs : List Char} (h : ∀ c ∈ cs, isBlank c = false) : IsLine cs := by
  constructor
  · apply trim_eq_self
    · intro c hc
      exact h c (List.mem_of_mem_head? hc)
    · intro c hc
      exact h c (List.mem_of_getLast? hc)
  · intro hmem
    exact absurd (h '\n' hmem) (by decide)

/-- Two lines with a text without line feeds between them make a line. -/
theorem IsLine.between {front mid back : List Char} (hfront : IsLine front) (hne : front ≠ [])
    (hmid : '\n' ∉ mid) (hback : IsLine back) (hne' : back ≠ []) :
    IsLine (front ++ (mid ++ back)) := by
  constructor
  · apply trim_eq_self
    · intro c hc
      obtain ⟨first, rest, rfl⟩ := List.exists_cons_of_ne_nil hne
      cases hc
      exact isBlank_of_head? hfront.1 c rfl
    · intro c hc
      obtain ⟨last, hlast⟩ := Option.isSome_iff_exists.mp (List.getLast?_isSome.mpr hne')
      rw [List.getLast?_append, List.getLast?_append, hlast] at hc
      cases hc
      exact isBlank_of_getLast? hback.1 c hlast
  · rw [List.mem_append, List.mem_append, not_or, not_or]
    exact ⟨hfront.2, hmid, hback.2⟩

/-- A mark before a line makes a line. -/
theorem IsLine.cons {mark : Char} (hmark : isBlank mark = false) {cs : List Char}
    (h : IsLine cs) : IsLine (mark :: cs) := by
  have hsingle : IsLine [mark] := IsLine.of_all (by simpa using hmark)
  by_cases hcs : cs = []
  · rw [hcs]
    exact hsingle
  · exact hsingle.between (List.cons_ne_nil _ _) List.not_mem_nil h hcs

/-- A line that ends in a line, behind a mark, is a line. -/
theorem IsLine.append {mark sign : Char} (hmark : isBlank mark = false)
    (hsign : isBlank sign = false) {front cs : List Char} (hfront : '\n' ∉ front)
    (h : IsLine cs) : IsLine (mark :: (front ++ sign :: cs)) := by
  have hsingle : IsLine [mark] := IsLine.of_all (by simpa using hmark)
  exact hsingle.between (List.cons_ne_nil _ _) hfront (h.cons hsign) (List.cons_ne_nil _ _)

/-- The pieces between line feeds hold none. -/
theorem not_mem_of_mem_splitOn {x : Char} {cs piece : List Char} (h : piece ∈ cs.splitOn x) :
    x ∉ piece := by
  rw [List.splitOn] at h
  induction cs generalizing piece with
  | nil =>
    cases List.mem_singleton.mp h
    exact List.not_mem_nil
  | cons c cs ih =>
    rw [List.splitOnP_cons_eq_if_modifyHead] at h
    split at h
    · rcases List.mem_cons.mp h with rfl | h
      · exact List.not_mem_nil
      · exact ih h
    · rename_i hc
      obtain ⟨first, rest, hsplit⟩ := List.exists_cons_of_ne_nil (List.splitOnP_ne_nil (· == x) cs)
      rw [hsplit] at h ih
      rcases List.mem_cons.mp h with rfl | h
      · apply List.not_mem_cons_of_ne_of_not_mem
        · rintro rfl
          exact hc (beq_self_eq_true _)
        · exact ih List.mem_cons_self
      · exact ih (List.mem_cons_of_mem _ h)

end Adventure.Text
