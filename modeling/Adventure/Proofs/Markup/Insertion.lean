import Adventure.Proofs.Markup.Isolation
import Adventure.Proofs.Markup.Kept
import Adventure.Proofs.Markup.Marks

/-!
Lines that are not seen. A comment may be put between any two lines, and a blank line before or
behind a blank one: the lines that count stay the same, with the numbers behind moved on
(`Line.counting_insert_comment`, `Line.counting_insert_blank`). Of two blank lines it is the first
that counts, so the number of a blank line may change in another way. That makes no difference,
since nothing is told of blank lines (`Report.not_blank_of_mem_lines`). Hence a report stays the
same, with the numbers behind moved on (`Report.ofAsset_insert_line`).
-/

namespace Adventure.Markup

/-- Line numbers after one line was put behind the first `n` lines. -/
def movedBehind (n number : Nat) : Nat := if number ≤ n then number else number + 1

/-! ### Lines that count -/

namespace Line

theorem map_renumber_numbered {f : Nat → Nat} {first first' : Nat} {ls : List (List Char)}
    (h : ∀ i < ls.length, f (first + i) = first' + i) :
    (numbered first ls).map (renumber f) = numbered first' ls := by
  induction ls generalizing first first' with
  | nil => rfl
  | cons l ls ih =>
    have hl : f first = first' := h 0 (Nat.zero_lt_succ _)
    have hls : ∀ i < ls.length, f (first + 1 + i) = first' + 1 + i := by
      intro i hi
      rw [Nat.add_right_comm, Nat.add_assoc, h (i + 1) (Nat.succ_lt_succ hi), Nat.add_right_comm,
        Nat.add_assoc]
    rw [numbered_cons, numbered_cons, List.map_cons, ih hls, renumber, hl]

/-- A line behind the first ones moves on the numbers of those behind it. -/
theorem numbered_movedBehind (front back : List (List Char)) :
    (numbered 1 (front ++ back)).map (renumber (movedBehind front.length)) =
      numbered 1 front ++ numbered (1 + front.length + 1) back := by
  rw [numbered_append, List.map_append]
  congr 1
  · apply map_renumber_numbered
    intro i hi
    exact if_pos (by omega)
  · apply map_renumber_numbered
    intro i hi
    rw [movedBehind, if_neg (by omega)]
    omega

/-- A comment does not count. -/
theorem counting_insert_comment {new : List Char} (h : (Text.trim new).head? = some '#')
    (front back : List (List Char)) :
    counting (numbered 1 (front ++ new :: back)) =
      (counting (numbered 1 (front ++ back))).map (renumber (movedBehind front.length)) := by
  have hcomment : startsWith '#' ⟨1 + front.length, Text.trim new⟩ = true := decide_eq_true h
  rw [← counting_renumber, numbered_movedBehind, numbered_append, numbered_cons]
  simp only [counting, List.filter_append, List.filter_cons, hcomment, Bool.not_true,
    Bool.false_eq_true, if_false]

theorem collapse_blank_blank {b b' : Line} (hb : b.isBlank = true) (hb' : b'.isBlank = true)
    (afterBlank : Bool) (lines rest : List Line) :
    collapse afterBlank (lines ++ b :: b' :: rest) = collapse afterBlank (lines ++ b :: rest) := by
  induction lines generalizing afterBlank with
  | nil => cases afterBlank <;> simp [collapse, hb, hb']
  | cons l lines ih => rw [List.cons_append, List.cons_append, collapse, collapse, ih, ih]

/-- Of two blank lines in a row the second does not count. -/
theorem counting_blank_blank (n m : Nat) (lines rest : List Line) :
    counting (lines ++ ⟨n, []⟩ :: ⟨m, []⟩ :: rest) = counting (lines ++ ⟨n, []⟩ :: rest) := by
  have hkept : ∀ n, startsWith '#' ⟨n, []⟩ = false := fun n => rfl
  simp only [counting, List.filter_append, List.filter_cons, hkept, Bool.not_false, if_true]
  exact collapse_blank_blank rfl rfl _ _ _

/-- A blank line behind a blank one does not count. -/
theorem counting_insert_blank {blank new : List Char} (hblank : Text.trim blank = [])
    (hnew : Text.trim new = []) (front back : List (List Char)) :
    counting (numbered 1 (front ++ blank :: new :: back)) =
      (counting (numbered 1 (front ++ blank :: back))).map
        (renumber (movedBehind (front.length + 1))) := by
  have hmoved := numbered_movedBehind (front ++ [blank]) back
  rw [List.length_append, List.length_singleton] at hmoved
  rw [← counting_renumber, List.append_cons front blank back, hmoved, numbered_append,
    numbered_append, numbered_cons, numbered_cons, numbered_cons, hblank, hnew, List.append_assoc]
  exact counting_blank_blank _ _ _ _

end Line

/-! ### Nothing is told of blank lines -/

/-- Whether a line that is not blank has a number. -/
def IsSeenIn (lines : List Line) (n : Nat) : Prop := ∃ l ∈ lines, l.number = n ∧ l.isBlank = false

variable {lines : List Line} {n : Nat}

theorem Line.isBlank_of_hasMark {l : Line} {mark : String} (h : l.HasMark mark)
    (hmark : mark ≠ "") : l.isBlank = false := by
  rw [isBlank, List.isEmpty_eq_false_iff]
  intro hnil
  rw [HasMark, hnil, List.prefix_nil] at h
  exact hmark (String.toList_eq_nil_iff.mp h)

/-- A line with a mark is seen. -/
theorem isSeenIn_of_hasMark {l : Line} {mark : String} (hl : l ∈ lines) (h : l.HasMark mark)
    (hmark : mark ≠ "") : IsSeenIn lines l.number := ⟨l, hl, rfl, Line.isBlank_of_hasMark h hmark⟩

theorem MarkedAmong.isSeenIn {mark : String} {ls : List Line} (h : MarkedAmong lines mark ls)
    (hmark : mark ≠ "") (hn : n ∈ numbersOf ls) : IsSeenIn lines n := by
  obtain ⟨l, hl, rfl⟩ := List.mem_map.mp hn
  exact isSeenIn_of_hasMark (h.1.subset hl) (h.2 l hl) hmark

theorem Bracket.PlacedOn.isSeenIn {b : Bracket} (h : b.PlacedOn lines) (hn : n ∈ b.numbers) :
    IsSeenIn lines n := by
  obtain ⟨l, hl, rfl, hmark⟩ := h n hn
  exact isSeenIn_of_hasMark hl hmark (by decide)

theorem Entry.PlacedOn.isSeenIn {e : Entry} (h : e.PlacedOn lines) (hn : n ∈ e.numbers) :
    IsSeenIn lines n := by
  rcases List.mem_append.mp hn with hn | hn
  · exact h.1.isSeenIn hn
  · rw [List.mem_singleton.mp hn]
    exact isSeenIn_of_hasMark h.2.1 h.2.2 (by decide)

theorem isSeenIn_of_mem_entries {entries : List Entry} (h : ∀ e ∈ entries, e.PlacedOn lines)
    (hn : n ∈ entries.flatMap Entry.numbers) : IsSeenIn lines n := by
  obtain ⟨e, he, hn⟩ := List.mem_flatMap.mp hn
  exact (h e he).isSeenIn hn

theorem Leftover.PlacedOn.isSeenIn {l : Leftover} (h : l.PlacedOn lines) (hn : n ∈ l.numbers) :
    IsSeenIn lines n := by
  rcases List.mem_append.mp hn with hn | hn
  · exact h.1.isSeenIn hn
  · obtain ⟨line, hline, rfl⟩ := List.mem_map.mp hn
    obtain ⟨hmem, hmark⟩ := h.2 line (Option.mem_toList.mp hline)
    exact isSeenIn_of_hasMark hmem hmark (by decide)

/-- A line that is read and not recognized is not blank. -/
theorem Item.isBlank_of_other {l l' : Line} {rest : List Line}
    (h : (read l rest).1 = some (other l')) : l'.isBlank = false := by
  unfold read at h
  split at h
  · cases h
  · cases h
  · cases h
  · cases h
  · cases h
  · cases h
  · cases husable : (takeEntries branchAccepts (l :: rest)).1.any Entry.isBranchOption with
    | true =>
      rw [readBranch_of_usable husable] at h
      cases h
    | false =>
      rw [readBranch_of_unusable husable] at h
      cases h
  · rename_i hkind
    cases h
    rw [Line.isBlank, List.isEmpty_eq_false_iff]
    intro hnil
    rw [Line.kind, hnil] at hkind
    cases hkind

theorem Item.PlacedOn.isSeenIn {item : Item} (h : item.PlacedOn lines)
    (hother : ∀ l, item = .other l → l.isBlank = false) (hn : n ∈ item.numbers) :
    IsSeenIn lines n := by
  cases item with
  | boardProperty l =>
    rw [List.mem_singleton.mp hn]
    exact isSeenIn_of_hasMark h.1 h.2 (by decide)
  | panelProperty l =>
    rw [List.mem_singleton.mp hn]
    exact isSeenIn_of_hasMark h.1 h.2 (by decide)
  | narration texts effects =>
    rcases List.mem_append.mp hn with hn | hn
    · exact h.1.isSeenIn (by decide) hn
    · exact h.2.isSeenIn (by decide) hn
  | decision prompt entries =>
    rcases List.mem_append.mp hn with hn | hn
    · exact h.2.1.isSeenIn (by decide) hn
    · exact isSeenIn_of_mem_entries h.2.2 hn
  | branch entries => exact isSeenIn_of_mem_entries h hn
  | refused entries leftover =>
    rcases List.mem_append.mp hn with hn | hn
    · exact isSeenIn_of_mem_entries h.1 hn
    · exact h.2.isSeenIn hn
  | other l =>
    rw [List.mem_singleton.mp hn]
    exact ⟨l, h, rfl, hother l rfl⟩

/-- The parts of an asset are made of lines that are not blank. -/
theorem Section.isSeenIn_of_mem {part : Section} (h : part ∈ ofLines lines)
    (hn : n ∈ part.numbers) : IsSeenIn lines n := by
  have hplaced := placedOn_ofLines (List.suffix_refl lines) part h
  cases part with
  | stray l =>
    rw [List.mem_singleton.mp hn]
    exact ⟨l, hplaced, rfl, isBlank_of_stray h⟩
  | board start items =>
    obtain ⟨hstart, hmark, hitems, -⟩ := hplaced
    rcases List.mem_cons.mp hn with rfl | hn
    · exact isSeenIn_of_hasMark hstart hmark (by decide)
    · obtain ⟨item, hitem, hn⟩ := List.mem_flatMap.mp hn
      refine (hitems item hitem).isSeenIn ?_ hn
      rintro l rfl
      obtain ⟨l', rest, -, hread⟩ := exists_read_of_mem_ofLines h hitem
      exact Item.isBlank_of_other hread

/-! ### Reports -/

section Reports

variable (s : Settings) (asset : String) {text text' : String}

/-- A warning is about lines that are not blank. -/
theorem Report.not_blank_of_mem_lines {w : Warning}
    (hw : w ∈ (Report.ofAsset s asset text).warnings) (hn : n ∈ w.lines) :
    ∃ i raw, n = i + 1 ∧ (Text.lines text.toList)[i]? = some raw ∧ Text.trim raw ≠ [] := by
  obtain ⟨f, hf, rfl⟩ := List.mem_map.mp hw
  obtain ⟨part, hpart, hlisted⟩ := List.mem_flatMap.mp (mem_listed_of_mem_addSections hf hn)
  obtain ⟨l, hl, rfl, hblank⟩ := Section.isSeenIn_of_mem hpart (part.listed_subset hlisted)
  obtain ⟨i, raw, hnumber, hraw, htext⟩ := Line.exists_of_mem_counting hl
  refine ⟨i, raw, hnumber, hraw, ?_⟩
  rw [← htext]
  exact List.isEmpty_eq_false_iff.mp hblank

/-- Where the lines that count differ in their numbers, reports do as well, and in nothing else. -/
theorem Report.ofAsset_renumber {f : Nat → Nat}
    (h : Line.ofAsset text' = (Line.ofAsset text).map (Line.renumber f)) :
    (Report.ofAsset s asset text').storyboards = (Report.ofAsset s asset text).storyboards ∧
      (Report.ofAsset s asset text').warnings =
        (Report.ofAsset s asset text).warnings.map (Warning.renumber f) := by
  have hsections := @addSections_renumber f s asset ∅ (Section.ofLines (Line.ofAsset text))
  rw [← Section.ofLines_renumber, ← h] at hsections
  constructor
  · have hboards := congrArg Prod.fst hsections
    exact hboards
  · refine (congrArg (fun parts => parts.2.map (Warning.ofFault asset)) hsections).trans ?_
    exact Warning.map_ofFault_renumber f _

/-- Whether a line may be put between others without being seen: a comment, or a blank line before
or behind a blank one. -/
def IsUnseen (front back : List (List Char)) (new : List Char) : Prop :=
  (Text.trim new).head? = some '#' ∨
    Text.trim new = [] ∧ ∃ l, (front.getLast? = some l ∨ back.head? = some l) ∧ Text.trim l = []

/-- With a line that is not seen the lines that count are the same, with the numbers behind moved
on. Only a blank line behind the new one may keep its number. -/
theorem Line.ofAsset_insert {front back : List (List Char)} {new : List Char}
    (htext : Text.lines text.toList = front ++ back)
    (htext' : Text.lines text'.toList = front ++ new :: back) (hnew : IsUnseen front back new) :
    ∃ n, ofAsset text' = (ofAsset text).map (renumber (movedBehind n)) ∧
      (n = front.length ∨ n = front.length + 1 ∧ ∃ l ∈ back.head?, Text.trim l = []) := by
  rw [ofAsset_eq, ofAsset_eq, htext, htext']
  rcases hnew with hcomment | ⟨hblank, l, hlast | hfirst, hl⟩
  · exact ⟨_, counting_insert_comment hcomment front back, Or.inl rfl⟩
  · obtain ⟨before, rfl⟩ := List.getLast?_eq_some_iff.mp hlast
    refine ⟨_, ?_, Or.inl List.length_append.symm⟩
    rw [List.append_assoc, List.append_assoc]
    exact counting_insert_blank hl hblank before back
  · obtain ⟨rest, rfl⟩ := List.head?_eq_some_iff.mp hfirst
    refine ⟨_, ?_, Or.inr ⟨rfl, l, rfl, hl⟩⟩
    -- Two blank lines are alike, so the new one may as well stand behind the other.
    have hswap : numbered 1 (front ++ new :: l :: rest) =
        numbered 1 (front ++ l :: new :: rest) := by
      simp only [numbered_append, numbered_cons, hl, hblank]
    rw [hswap]
    exact counting_insert_blank hl hblank front rest

/-- **Comments and extra blank lines are not seen.** Let two texts have the same lines but for one
that the second has in addition: a comment, anywhere, or a blank line before or behind a blank one.
The same storyboards are read from both, and the warnings are the same, with every line number
behind the further line one greater. -/
theorem Report.ofAsset_insert_line {front back : List (List Char)} {new : List Char}
    (htext : Text.lines text.toList = front ++ back)
    (htext' : Text.lines text'.toList = front ++ new :: back) (hnew : IsUnseen front back new) :
    (Report.ofAsset s asset text').storyboards = (Report.ofAsset s asset text).storyboards ∧
      (Report.ofAsset s asset text').warnings =
        (Report.ofAsset s asset text).warnings.map
          (Warning.renumber (movedBehind front.length)) := by
  obtain ⟨n, hlines, hn⟩ := Line.ofAsset_insert htext htext' hnew
  obtain ⟨hboards, hwarnings⟩ := Report.ofAsset_renumber s asset hlines
  refine ⟨hboards, hwarnings.trans ?_⟩
  apply List.map_congr_left
  intro w hw
  rw [Warning.renumber, Warning.renumber]
  congr 1
  apply List.map_congr_left
  intro number hnumber
  rcases hn with rfl | ⟨rfl, l, hl, hblank⟩
  · rfl
  · -- The two ways to count differ at the number of a blank line alone.
    obtain ⟨i, raw, rfl, hraw, hfull⟩ := Report.not_blank_of_mem_lines s asset hw hnumber
    obtain ⟨rest, rfl⟩ := List.head?_eq_some_iff.mp hl
    have hi : i ≠ front.length := by
      rintro rfl
      rw [htext, List.getElem?_append_right (Nat.le_refl _), Nat.sub_self] at hraw
      cases hraw
      exact hfull hblank
    rw [movedBehind, movedBehind]
    split <;> split <;> omega

end Reports

/-- A comment inside of a guard of two lines, and a blank line between a narration and the blank
line above its effect. -/
theorem Report.ofAsset_insert_line_hall :
    let hall := Report.ofAsset {} "inn" ">>s\n|Hi\n\n:luk+1\n[str >\n1]\n-x-<b\n"
    let noted := Report.ofAsset {} "inn" ">>s\n|Hi\n\n:luk+1\n[str >\n # note\n1]\n-x-<b\n"
    let spaced := Report.ofAsset {} "inn" ">>s\n|Hi\n  \n\n:luk+1\n[str >\n1]\n-x-<b\n"
    noted.storyboards = hall.storyboards ∧
      noted.warnings = [⟨"inn", [4], .invalidStat "luk"⟩, ⟨"inn", [8], .malformedBranch "-x-<b"⟩] ∧
      spaced.storyboards = hall.storyboards ∧
      spaced.warnings =
        [⟨"inn", [5], .invalidStat "luk"⟩, ⟨"inn", [8], .malformedBranch "-x-<b"⟩] := by
  intro hall noted spaced
  have hwarnings : hall.warnings =
      [⟨"inn", [4], .invalidStat "luk"⟩, ⟨"inn", [7], .malformedBranch "-x-<b"⟩] := by
    decide +kernel
  have hhall : Text.lines ">>s\n|Hi\n\n:luk+1\n[str >\n1]\n-x-<b\n".toList =
      [">>s".toList, "|Hi".toList, [], ":luk+1".toList, "[str >".toList, "1]".toList,
        "-x-<b".toList] := by
    decide +kernel
  have hnote : Text.lines ">>s\n|Hi\n\n:luk+1\n[str >\n # note\n1]\n-x-<b\n".toList =
      [">>s".toList, "|Hi".toList, [], ":luk+1".toList, "[str >".toList] ++
        " # note".toList :: ["1]".toList, "-x-<b".toList] := by
    decide +kernel
  have hspace : Text.lines ">>s\n|Hi\n  \n\n:luk+1\n[str >\n1]\n-x-<b\n".toList =
      [">>s".toList, "|Hi".toList] ++
        "  ".toList :: [[], ":luk+1".toList, "[str >".toList, "1]".toList, "-x-<b".toList] := by
    decide +kernel
  obtain ⟨hnoted, hnotedWarnings⟩ :=
    Report.ofAsset_insert_line {} "inn" hhall hnote (Or.inl (by decide))
  obtain ⟨hspaced, hspacedWarnings⟩ :=
    Report.ofAsset_insert_line {} "inn" hhall hspace (Or.inr ⟨by decide, [], Or.inr rfl, by decide⟩)
  refine ⟨hnoted, ?_, hspaced, ?_⟩
  · rw [hwarnings] at hnotedWarnings
    exact hnotedWarnings
  · rw [hwarnings] at hspacedWarnings
    exact hspacedWarnings

end Adventure.Markup
