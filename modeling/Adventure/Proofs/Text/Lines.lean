import Adventure.Proofs.Text.Runs
import Adventure.Text.Pieces

/-!
Lines of texts that are put together: a text that ends its last line is cut apart on its own, whatever
follows it (`lines_append`), and lines that are written with a line feed behind each are found again
(`lines_unlines`).
-/

namespace Adventure.Text

/-- Whether the last line of a text is ended by a line feed. A text without lines has none to end. -/
def EndsLine (cs : List Char) : Prop := cs = [] ∨ cs.getLast? = some '\n'

/-- The text that has some lines, each ended by a line feed. -/
def unlines (ls : List (List Char)) : List Char := ls.flatMap (· ++ ['\n'])

theorem lines_line {l : List Char} (h : '\n' ∉ l) (rest : List Char) :
    lines (l ++ '\n' :: rest) = l :: lines rest := by
  have hall : l.all (· ≠ '\n') = true := by
    rw [List.all_eq_true]
    intro c hc
    rw [decide_eq_true_eq]
    rintro rfl
    exact h hc
  have hend : ∀ c ∈ ('\n' :: rest).head?, decide (c ≠ '\n') = false := by
    intro c hc
    cases hc
    rfl
  cases hl : l ++ '\n' :: rest with
  | nil => simp at hl
  | cons c cs =>
    rw [lines, ← hl, takeWhile_run hall hend, dropWhile_run hall hend, List.drop_one,
      List.tail_cons]

theorem exists_unlines_concat (cs : List Char) :
    ∃ ls, cs ++ ['\n'] = unlines ls ∧ ∀ l ∈ ls, '\n' ∉ l := by
  induction cs with
  | nil => exact ⟨[[]], rfl, by simp⟩
  | cons c cs ih =>
    obtain ⟨ls, hls, hno⟩ := ih
    by_cases hc : c = '\n'
    · refine ⟨[] :: ls, ?_, List.forall_mem_cons.mpr ⟨List.not_mem_nil, hno⟩⟩
      rw [List.cons_append, hls, hc]
      rfl
    · cases ls with
      | nil => simp [unlines] at hls
      | cons l ls =>
        obtain ⟨hl, hno⟩ := List.forall_mem_cons.mp hno
        refine ⟨(c :: l) :: ls, ?_, List.forall_mem_cons.mpr ⟨?_, hno⟩⟩
        · rw [List.cons_append, hls]
          rfl
        · exact List.not_mem_cons_of_ne_of_not_mem (Ne.symm hc) hl

/-- A text that ends its last line is written line by line. -/
theorem exists_unlines {cs : List Char} (h : EndsLine cs) :
    ∃ ls, cs = unlines ls ∧ ∀ l ∈ ls, '\n' ∉ l := by
  rcases h with rfl | h
  · exact ⟨[], rfl, by simp⟩
  · obtain ⟨front, rfl⟩ := List.getLast?_eq_some_iff.mp h
    exact exists_unlines_concat front

theorem lines_unlines_append {ls : List (List Char)} (h : ∀ l ∈ ls, '\n' ∉ l) (rest : List Char) :
    lines (unlines ls ++ rest) = ls ++ lines rest := by
  induction ls with
  | nil => rfl
  | cons l ls ih =>
    obtain ⟨hl, hls⟩ := List.forall_mem_cons.mp h
    rw [unlines, List.flatMap_cons, List.append_assoc, List.append_assoc, List.singleton_append,
      lines_line hl]
    exact congrArg (l :: ·) (ih hls)

/-- Lines that are written are found again. -/
theorem lines_unlines {ls : List (List Char)} (h : ∀ l ∈ ls, '\n' ∉ l) : lines (unlines ls) = ls := by
  have happend := lines_unlines_append h []
  rwa [List.append_nil, lines, List.append_nil] at happend

/-- The lines of a text that ends its last line stay the same whatever is written behind it. -/
theorem lines_append {cs : List Char} (h : EndsLine cs) (rest : List Char) :
    lines (cs ++ rest) = lines cs ++ lines rest := by
  obtain ⟨ls, rfl, hls⟩ := exists_unlines h
  rw [lines_unlines_append hls, lines_unlines hls]

end Adventure.Text
