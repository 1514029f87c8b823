import Adventure.Proofs.Markup.Lines
import Mathlib.Data.List.Nodup

/-!
Every line is used once. The numbers of the lines that the parts of an asset are made of, part after
part and item after item, come in the order of the asset and none comes twice
(`Section.nodup_numbers`). So a line number tells the item that a warning is about.
-/

namespace Adventure.Markup

open scoped List

/-- The number of the line on which a bracket starts. -/
def Bracket.numbers : Bracket → List Nat
  | absent => []
  | empty => []
  | unclosed line => [line]
  | guard g => [g.line]

/-- The numbers of the bracket and of the option line below it. -/
def Entry.numbers (e : Entry) : List Nat := e.bracket.numbers ++ [e.line.number]

/-- The numbers of what is left over. -/
def Leftover.numbers (l : Leftover) : List Nat :=
  l.bracket.numbers ++ l.line.toList.map Line.number

/-- The numbers of the lines that an item is made of. -/
def Item.numbers : Item → List Nat
  | boardProperty l => [l.number]
  | panelProperty l => [l.number]
  | narration lines effects => lines.map Line.number ++ effects.map Line.number
  | decision prompt entries => prompt.map Line.number ++ entries.flatMap Entry.numbers
  | branch entries => entries.flatMap Entry.numbers
  | refused entries leftover => entries.flatMap Entry.numbers ++ leftover.numbers
  | other l => [l.number]

/-- The numbers of the lines that a part of an asset is made of. -/
def Section.numbers : Section → List Nat
  | board start items => start.number :: items.flatMap Item.numbers
  | stray l => [l.number]

/-- The numbers of some lines. -/
def numbersOf (lines : List Line) : List Nat := lines.map Line.number

theorem numbersOf_sublist {xs ys : List Line} (h : xs <:+ ys) : numbersOf xs <+ numbersOf ys :=
  h.sublist.map Line.number

/-! ### Guards -/

/-- A bracket that is opened is read behind the line that opens it. -/
theorem Bracket.take_cons_suffix {l : Line} (h : l.isBoardStart = false) (rest : List Line) :
    (take (l :: rest)).2.2 <:+ rest := by
  rw [take, h]
  simp only [Bool.false_eq_true, if_false]
  split
  · exact List.suffix_refl rest
  · exact take_suffix rest

theorem Line.isBoardStart_of_opensBracket {l : Line} (h : l.opensBracket = true) :
    l.isBoardStart = false := by
  rw [opensBracket, startsWith, decide_eq_true_eq] at h
  rw [isBoardStart, kind, decide_eq_false_iff_not]
  split <;> simp_all

theorem Bracket.numbers_read (lines : List Line) :
    (read lines).1.numbers ++ numbersOf (read lines).2 <+ numbersOf lines := by
  have hskip := numbersOf_sublist (Line.skipBlank_suffix lines)
  unfold read
  cases hlines : Line.skipBlank lines with
  | nil => exact List.nil_sublist _
  | cons l rest =>
    rw [hlines] at hskip
    simp only
    split
    · rename_i hopen
      have htake := take_cons_suffix (Line.isBoardStart_of_opensBracket hopen) rest
      rcases hread : take (l :: rest) with ⟨inside, closed, behind⟩
      rw [hread] at htake
      have hbehind : l.number :: numbersOf behind <+ numbersOf lines :=
        ((numbersOf_sublist htake).cons_cons l.number).trans hskip
      cases closed with
      | false => exact hbehind
      | true =>
        simp only
        split
        · exact (List.sublist_cons_self _ _).trans hbehind
        · exact hbehind
    · exact hskip

/-! ### Items -/

namespace Item

theorem numbers_takeEffects (lines : List Line) :
    numbersOf (takeEffects lines).1 ++ numbersOf (takeEffects lines).2 <+ numbersOf lines := by
  fun_induction takeEffects lines with
  | case1 => exact List.nil_sublist _
  | case2 lines l rest hskip hl effects behind hmore ih =>
    rw [hmore] at ih
    have hlines : numbersOf (l :: rest) <+ numbersOf lines :=
      numbersOf_sublist (hskip ▸ Line.skipBlank_suffix lines)
    exact (ih.cons_cons l.number).trans hlines
  | case3 lines l rest hskip hl =>
    exact numbersOf_sublist (hskip ▸ Line.skipBlank_suffix lines)

theorem numbers_behindBracket {lines rest : List Line} {line : Line}
    (h : Line.skipBlank (Bracket.read lines).2 = line :: rest) :
    (Bracket.read lines).1.numbers ++ line.number :: numbersOf rest <+ numbersOf lines := by
  have hskip := numbersOf_sublist (Line.skipBlank_suffix (Bracket.read lines).2)
  rw [h] at hskip
  exact (hskip.append_left _).trans (Bracket.numbers_read lines)

theorem numbers_takeEntries (accepts : OptionShape → Bool) (lines : List Line) :
    (takeEntries accepts lines).1.flatMap Entry.numbers ++ numbersOf (takeEntries accepts lines).2
      <+ numbersOf lines := by
  induction lines using takeEntries_induction accepts with
  | stop lines hstop =>
    rw [takeEntries_of_not_accepts hstop]
    exact List.Sublist.refl _
  | more lines line rest hline hshape ha ih =>
    rw [takeEntries_of_accepts hline hshape ha, List.flatMap_cons, Entry.numbers,
      List.append_assoc, List.append_assoc]
    exact ((ih.cons_cons line.number).append_left _).trans (numbers_behindBracket hline)

theorem numbers_takeLeftover (lines : List Line) :
    (takeLeftover lines).1.numbers ++ numbersOf (takeLeftover lines).2 <+ numbersOf lines := by
  rw [takeLeftover_eq]
  cases hline : Line.skipBlank (Bracket.read lines).2 with
  | nil =>
    have hread := (List.sublist_append_left _ _).trans (Bracket.numbers_read lines)
    simpa [Leftover.numbers, numbersOf] using hread
  | cons l rest =>
    have hread := numbers_behindBracket hline
    simp only
    split
    · simpa [Leftover.numbers, numbersOf] using hread
    · simpa [Leftover.numbers, numbersOf] using hread

theorem numbers_readBranch (lines : List Line) :
    (readBranch lines).1.numbers ++ numbersOf (readBranch lines).2 <+ numbersOf lines := by
  have hentries := numbers_takeEntries branchAccepts lines
  cases husable : (takeEntries branchAccepts lines).1.any Entry.isBranchOption with
  | true =>
    rw [readBranch_of_usable husable]
    exact hentries
  | false =>
    rw [readBranch_of_unusable husable, numbers, List.append_assoc]
    exact ((numbers_takeLeftover _).append_left _).trans hentries

/-- Lines of one mark, and what is read behind them, come in order. -/
theorem numbers_span {mark : Char} {l : Line} {lines : List Line} {more : List Nat}
    (h : more <+ numbersOf (lines.dropWhile (Line.startsWith mark))) :
    numbersOf (l :: lines.takeWhile (Line.startsWith mark)) ++ more <+ numbersOf (l :: lines) := by
  have hlines : numbersOf (lines.takeWhile (Line.startsWith mark)) ++
      numbersOf (lines.dropWhile (Line.startsWith mark)) = numbersOf lines := by
    rw [numbersOf, numbersOf, ← List.map_append, List.takeWhile_append_dropWhile]
    rfl
  exact ((h.append_left _).trans (hlines ▸ List.Sublist.refl _)).cons_cons l.number

theorem numbers_read (l : Line) (rest : List Line) :
    (read l rest).1.toList.flatMap numbers ++ numbersOf (read l rest).2 <+
      numbersOf (l :: rest) := by
  unfold read
  split
  · exact List.sublist_cons_self _ _
  · exact List.sublist_cons_self _ _
  · exact List.Sublist.refl _
  · exact List.Sublist.refl _
  · have hspan := numbers_span (l := l) (numbers_takeEffects
      (rest.dropWhile (Line.startsWith '|')))
    simpa [numbers, numbersOf] using hspan
  · have hspan := numbers_span (l := l) (numbers_takeEntries decisionAccepts
      (rest.dropWhile (Line.startsWith '?')))
    simpa [numbers, numbersOf] using hspan
  · have hbranch := numbers_readBranch (l :: rest)
    simpa using hbranch
  · exact List.Sublist.refl _

theorem numbers_readAll (lines : List Line) :
    (readAll lines).1.flatMap numbers ++ numbersOf (readAll lines).2 <+ numbersOf lines := by
  fun_induction readAll lines with
  | case1 => exact List.nil_sublist _
  | case2 l rest hl => exact List.Sublist.refl _
  | case3 l rest hl items behind hmore ih =>
    rw [hmore] at ih
    rw [List.flatMap_append, List.append_assoc]
    exact (ih.append_left _).trans (numbers_read l rest)

end Item

theorem Section.numbers_ofLines (lines : List Line) :
    (ofLines lines).flatMap numbers <+ numbersOf lines := by
  fun_induction ofLines lines with
  | case1 => exact List.nil_sublist _
  | case2 l rest hl ih =>
    rw [List.flatMap_cons, numbers, List.cons_append]
    exact ((ih.append_left _).trans (Item.numbers_readAll rest)).cons_cons l.number
  | case3 l rest hl hblank ih => exact ih.trans (List.sublist_cons_self _ _)
  | case4 l rest hl hblank ih => exact ih.cons_cons l.number

/-! ### Assets -/

theorem Line.numbersOf_numbered (first : Nat) (ls : List (List Char)) :
    numbersOf (numbered first ls) = List.range' first ls.length := by
  induction ls generalizing first with
  | nil => rfl
  | cons l ls ih =>
    rw [numbered_cons, List.length_cons, List.range'_succ, ← ih]
    rfl

theorem Line.collapse_sublist (afterBlank : Bool) (lines : List Line) :
    collapse afterBlank lines <+ lines := by
  induction lines generalizing afterBlank with
  | nil => exact List.nil_sublist _
  | cons l lines ih =>
    rw [collapse]
    split
    · exact (ih true).cons l
    · exact (ih _).cons_cons l

/-- The lines of an asset that count are some of its lines, in order. -/
theorem Line.numbersOf_ofAsset (text : String) :
    numbersOf (ofAsset text) <+ List.range' 1 (Text.lines text.toList).length := by
  rw [← numbersOf_numbered]
  exact ((collapse_sublist _ _).trans List.filter_sublist).map Line.number

/-- **Every line is used once.** -/
theorem Section.nodup_numbers (text : String) :
    ((ofLines (Line.ofAsset text)).flatMap numbers).Nodup :=
  ((numbers_ofLines _).trans (Line.numbersOf_ofAsset text)).nodup List.nodup_range'

end Adventure.Markup
