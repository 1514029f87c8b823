import Adventure.Proofs.Text.Trim
import Adventure.Text.Pieces
import Mathlib.Data.List.TakeWhile

/-!
What is cut out of a text. A text is cut at the first or the last character that passes a test, and
nowhere else (`splitAt?_eq_some_iff`, `splitAtLast?_eq_some_iff`); its lines and what is left of it
when it is trimmed are pieces of it, so that a line stays one line (`isLine_trim`).
-/

namespace Adventure.Text

/-! ### At a character -/

section Split

variable {test : Char → Bool} {cs front behind : List Char}

theorem splitAt?_append {c : Char} (hfront : ∀ x ∈ front, test x = false) (hc : test c = true)
    (rest : List Char) : splitAt? test (front ++ c :: rest) = some (front, rest) := by
  have hall : front.all (fun x => !test x) = true := by
    rw [List.all_eq_true]
    intro x hx
    rw [hfront x hx]
    rfl
  have hstop : ∀ x ∈ (c :: rest).head?, (!test x) = false := by
    intro x hx
    cases hx
    rw [hc]
    rfl
  rw [splitAt?, dropWhile_run hall hstop, takeWhile_run hall hstop]

/-- A text is cut at the first character that passes the test. -/
theorem splitAt?_eq_some_iff :
    splitAt? test cs = some (front, behind) ↔
      ∃ c, cs = front ++ c :: behind ∧ test c = true ∧ ∀ x ∈ front, test x = false := by
  constructor
  · intro h
    have hcut := List.takeWhile_append_dropWhile (p := fun c => !test c) (l := cs)
    have hfront : ∀ x ∈ cs.takeWhile (fun c => !test c), test x = false := by
      intro x hx
      simpa using List.all_eq_true.mp List.all_takeWhile x hx
    rw [splitAt?] at h
    split at h
    · cases h
    · rename_i c rest hrest
      cases h
      have hc : ∀ x ∈ (cs.dropWhile fun c => !test c).head?, (!test x) = false := head?_dropWhile
      rw [hrest] at hcut hc
      exact ⟨c, hcut.symm, by simpa using hc c rfl, hfront⟩
  · rintro ⟨c, rfl, hc, hfront⟩
    exact splitAt?_append hfront hc behind

/-- A text in which no character passes the test is not cut. -/
theorem splitAt?_eq_none_iff : splitAt? test cs = none ↔ ∀ x ∈ cs, test x = false := by
  constructor
  · intro h
    rw [splitAt?] at h
    split at h
    · rename_i hnil
      simpa using List.dropWhile_eq_nil_iff.mp hnil
    · cases h
  · intro h
    cases hcut : splitAt? test cs with
    | none => rfl
    | some parts =>
      obtain ⟨c, hcs, hc, -⟩ := splitAt?_eq_some_iff.mp hcut
      rw [h c (hcs ▸ List.mem_append_right _ List.mem_cons_self)] at hc
      cases hc

/-- A text is cut at the last character that passes the test. -/
theorem splitAtLast?_eq_some_iff :
    splitAtLast? test cs = some (front, behind) ↔
      ∃ c, cs = front ++ c :: behind ∧ test c = true ∧ ∀ x ∈ behind, test x = false := by
  rw [splitAtLast?, Option.map_eq_some_iff]
  constructor
  · rintro ⟨⟨after, before⟩, hcut, hparts⟩
    obtain ⟨c, hcs, hc, hafter⟩ := splitAt?_eq_some_iff.mp hcut
    cases hparts
    refine ⟨c, ?_, hc, fun x hx => hafter x (List.mem_reverse.mp hx)⟩
    rw [← List.reverse_reverse cs, hcs]
    simp
  · rintro ⟨c, rfl, hc, hbehind⟩
    refine ⟨(behind.reverse, front.reverse), ?_, by simp⟩
    rw [splitAt?_eq_some_iff]
    exact ⟨c, by simp, hc, fun x hx => hbehind x (List.mem_reverse.mp hx)⟩

theorem splitAtLast?_eq_none_iff : splitAtLast? test cs = none ↔ ∀ x ∈ cs, test x = false := by
  rw [splitAtLast?, Option.map_eq_none_iff, splitAt?_eq_none_iff]
  simp

end Split

/-! ### Trimming -/

/-- Trimming leaves a piece of the text. -/
theorem isInfix_trim (cs : List Char) : trim cs <:+: cs := by
  have hstart : trimStart cs <:+ cs := List.dropWhile_suffix isBlank
  have hend : trimEnd (trimStart cs) <+: trimStart cs := by
    rw [trimEnd, ← List.reverse_suffix, List.reverse_reverse]
    exact List.dropWhile_suffix isBlank
  exact hend.isInfix.trans hstart.isInfix

/-- A text without line feeds is one line when it is trimmed. -/
theorem isLine_trim {cs : List Char} (h : '\n' ∉ cs) : IsLine (trim cs) :=
  ⟨trim_trim cs, fun hmem => h ((isInfix_trim cs).subset hmem)⟩

/-- What stands behind the mark of a line, without blanks in front, is a line. -/
theorem IsLine.behind {cs rest : List Char} (h : IsLine cs) (hrest : rest <:+ cs) :
    IsLine (trimStart rest) := by
  have hsuffix : trimStart rest <:+ cs := (List.dropWhile_suffix isBlank).trans hrest
  refine ⟨trim_eq_self head?_dropWhile ?_, fun hmem => h.2 (hsuffix.subset hmem)⟩
  intro c hc
  obtain ⟨front, hfront⟩ := hsuffix
  apply isBlank_of_getLast? h.1 c
  rw [← hfront, List.getLast?_append, Option.mem_def.mp hc]
  rfl

/-! ### Lines -/

/-- A line of a text holds no line feed. -/
theorem not_mem_of_mem_lines {cs l : List Char} (h : l ∈ lines cs) : '\n' ∉ l := by
  fun_induction lines cs with
  | case1 => cases h
  | case2 c rest ih =>
    rcases List.mem_cons.mp h with rfl | h
    · intro hmem
      simpa using List.all_eq_true.mp List.all_takeWhile _ hmem
    · exact ih h

/-- What is put together of pieces comes from a piece or from what stands between them. -/
theorem mem_intercalate {sep : List Char} {pieces : List (List Char)} {c : Char}
    (h : c ∈ sep.intercalate pieces) : c ∈ sep ∨ ∃ piece ∈ pieces, c ∈ piece := by
  induction pieces with
  | nil => cases h
  | cons piece pieces ih =>
    cases pieces with
    | nil =>
      rw [List.intercalate_singleton] at h
      exact Or.inr ⟨piece, List.mem_cons_self, h⟩
    | cons next pieces =>
      rw [List.intercalate_cons_cons, List.mem_append, List.mem_append] at h
      rcases h with (h | h) | h
      · exact Or.inr ⟨piece, List.mem_cons_self, h⟩
      · exact Or.inl h
      · rcases ih h with h | ⟨other, hother, h⟩
        · exact Or.inl h
        · exact Or.inr ⟨other, List.mem_cons_of_mem _ hother, h⟩

/-! ### At a mark -/

theorem after?_eq_some_iff {start cs rest : List Char} :
    after? start cs = some rest ↔ cs = start ++ rest := by
  fun_induction after? start cs with
  | case1 cs => rw [Option.some.injEq, List.nil_append]
  | case2 s start => simp
  | case3 start s cs ih => rw [ih, List.cons_append, List.cons.injEq, and_iff_right rfl]
  | case4 s start c cs hne =>
    rw [List.cons_append, List.cons.injEq]
    constructor
    · intro h
      cases h
    · rintro ⟨rfl, -⟩
      exact absurd rfl hne

theorem after?_eq_none {start cs : List Char} (h : ¬start <+: cs) : after? start cs = none := by
  cases hafter : after? start cs with
  | none => rfl
  | some rest => exact absurd ⟨rest, (after?_eq_some_iff.mp hafter).symm⟩ h

/-- A text that nowhere holds a mark is not cut. -/
theorem splitAround?_eq_none {mark cs : List Char} (h : ¬mark <:+: cs) :
    splitAround? mark cs = none := by
  induction cs with
  | nil =>
    rw [splitAround?, if_neg]
    rintro rfl
    exact h (List.infix_refl [])
  | cons c cs ih =>
    have hfront : after? mark (c :: cs) = none := after?_eq_none fun hp => h hp.isInfix
    rw [splitAround?, hfront, ih fun hi => h (hi.trans (List.infix_cons (List.infix_refl cs)))]
    rfl

/-- A text that nowhere holds a mark is cut off whole by the mark behind it, unless the mark could
start within itself. -/
theorem splitAround?_append {m : Char} {ms text : List Char} (hm : m ∉ ms)
    (h : ¬ m :: ms <:+: text) (rest : List Char) :
    splitAround? (m :: ms) (text ++ (m :: ms ++ rest)) = some (text, rest) := by
  induction text with
  | nil =>
    rw [List.nil_append, List.cons_append, splitAround?, ← List.cons_append,
      after?_eq_some_iff.mpr rfl]
  | cons c cs ih =>
    have hcs : ¬ m :: ms <:+: cs := fun hi => h (hi.trans (List.infix_cons (List.infix_refl cs)))
    have hfront : after? (m :: ms) (c :: (cs ++ (m :: ms ++ rest))) = none := by
      apply after?_eq_none
      intro hp
      rw [List.cons_prefix_cons] at hp
      obtain ⟨rfl, hp⟩ := hp
      -- The mark ends within the text, or else its first character stands within it once more.
      have hnext : cs ++ [m] <+: cs ++ (m :: ms ++ rest) := ⟨ms ++ rest, by simp⟩
      rcases List.prefix_or_prefix_of_prefix hp hnext with hin | hover
      · rcases List.prefix_concat_iff.mp hin with hall | hin
        · exact hm (hall ▸ List.mem_append_right cs List.mem_cons_self)
        · exact h (List.cons_prefix_cons.mpr ⟨rfl, hin⟩).isInfix
      · exact hm (hover.subset (List.mem_append_right cs List.mem_cons_self))
    rw [List.cons_append, splitAround?, hfront, ih hcs]
    rfl

end Adventure.Text
