import Adventure.Markup.Report
import Adventure.Proofs.Markup.Boundary

/-!
Reading an asset gets on and comes to an end.

Every loop over lines is written down as a `Turn`: what one turn makes of a state and of the lines in
front of it. A loop all of whose turns take lines ends after no more turns than there are lines
(`Turn.exists_ends`), and the readers are what their loops end with (`Item.ends_readAll` and its
kin). Within a storyboard, no reader takes a line that starts another one (`KeepsToBlock`). Main
statement: `reading_gets_on`.
-/

namespace Adventure.Markup

/-! ### Lines that are left -/

/-- Whether lines are left of others when at least one was taken off the front. -/
def IsProperRest (behind lines : List Line) : Prop := behind <:+ lines ∧ behind ≠ lines

theorem IsProperRest.length_lt {behind lines : List Line} (h : IsProperRest behind lines) :
    behind.length < lines.length := by
  have hle := h.1.length_le
  have hne : behind.length ≠ lines.length := fun heq => h.2 (h.1.eq_of_length heq)
  omega

/-- What is left when one line was taken, and perhaps more behind it. -/
theorem IsProperRest.of_suffix {behind rest lines : List Line} {l : Line} (h : behind <:+ rest)
    (hlines : l :: rest <:+ lines) : IsProperRest behind lines := by
  refine ⟨h.trans ((List.suffix_cons l rest).trans hlines), ?_⟩
  rintro rfl
  have h₁ := h.length_le
  have h₂ := hlines.length_le
  rw [List.length_cons] at h₂
  omega

/-- Whether lines are left of others when some were taken off the front, none of which starts a
storyboard. -/
def LeftInBlock (behind lines : List Line) : Prop :=
  ∃ taken, lines = taken ++ behind ∧ ∀ l ∈ taken, l.isBoardStart = false

/-- Whether a reader never takes a line that starts a storyboard. -/
def KeepsToBlock {α : Type} (read : List Line → α × List Line) : Prop :=
  ∀ lines, LeftInBlock (read lines).2 lines

/-- Lines of which none starts a storyboard, and those from the first that does on. -/
theorem exists_block (lines : List Line) :
    ∃ block rest, lines = block ++ rest ∧ (∀ l ∈ block, l.isBoardStart = false) ∧
      (rest = [] ∨ ∃ start more, rest = start :: more ∧ start.isBoardStart = true) := by
  induction lines with
  | nil => exact ⟨[], [], rfl, List.forall_mem_nil _, Or.inl rfl⟩
  | cons l lines ih =>
    cases hl : l.isBoardStart with
    | true => exact ⟨[], l :: lines, rfl, List.forall_mem_nil _, Or.inr ⟨l, lines, rfl, hl⟩⟩
    | false =>
      obtain ⟨block, rest, rfl, hblock, hrest⟩ := ih
      exact ⟨l :: block, rest, rfl, List.forall_mem_cons.mpr ⟨hl, hblock⟩, hrest⟩

/-- A reader that stops where a storyboard starts, and gives back an end of its lines, takes no line
that starts one. -/
theorem StopsAtBoards.keepsToBlock {α : Type} {read : List Line → α × List Line}
    (h : StopsAtBoards read) (hsuffix : ∀ lines, (read lines).2 <:+ lines) :
    KeepsToBlock read := by
  intro lines
  obtain ⟨block, rest, rfl, hblock, hrest⟩ := exists_block lines
  obtain ⟨taken, htaken⟩ := hsuffix block
  have hnone : ∀ l ∈ taken, l.isBoardStart = false := fun l hl =>
    hblock l (htaken ▸ List.mem_append_left _ hl)
  rcases hrest with rfl | ⟨start, more, rfl, hstart⟩
  · rw [List.append_nil]
    exact ⟨taken, htaken.symm, hnone⟩
  · rw [h block start more hstart]
    exact ⟨taken, by rw [← List.append_assoc, htaken], hnone⟩

/-! ### Loops -/

/-- One turn of a loop: the state and the lines behind it, or nothing where the loop ends. -/
abbrev Turn (σ : Type) := σ → List Line → Option (σ × List Line)

namespace Turn

variable {σ : Type} {turn : Turn σ}

/-- Whether every turn that does not end the loop takes at least one line off the front. -/
def TakesLines (turn : Turn σ) : Prop :=
  ∀ s lines t behind, turn s lines = some (t, behind) → IsProperRest behind lines

/-- The loop ends after `n` turns, with a state and the lines that are left. -/
inductive Ends (turn : Turn σ) : Nat → σ → List Line → σ × List Line → Prop
  | stop {s : σ} {lines : List Line} : turn s lines = none → Ends turn 0 s lines (s, lines)
  | go {s t : σ} {lines behind : List Line} {n : Nat} {result : σ × List Line} :
      turn s lines = some (t, behind) → Ends turn n t behind result →
      Ends turn (n + 1) s lines result

/-- **A loop whose turns take lines comes to an end**, after no more turns than there are lines. -/
theorem exists_ends (h : turn.TakesLines) (s : σ) (lines : List Line) :
    ∃ n ≤ lines.length, ∃ result, turn.Ends n s lines result := by
  cases hturn : turn s lines with
  | none => exact ⟨0, Nat.zero_le _, _, .stop hturn⟩
  | some next =>
    obtain ⟨t, behind⟩ := next
    have hlt := (h _ _ _ _ hturn).length_lt
    obtain ⟨n, hn, result, hends⟩ := exists_ends h t behind
    exact ⟨n + 1, by omega, result, .go hturn hends⟩
termination_by lines.length

/-- Whether a loop that starts from a state comes to an end with some result, after no more turns
than there are lines. -/
def EndsWith (turn : Turn σ) (s : σ) (lines : List Line) (result : σ × List Line) : Prop :=
  ∃ n ≤ lines.length, turn.Ends n s lines result

/-- A function that gives the state and the lines as they are where the loop ends, and gives the same
before and after a turn, gives what the loop ends with. -/
theorem TakesLines.endsWith {f : σ → List Line → σ × List Line} (h : turn.TakesLines)
    (hstop : ∀ s lines, turn s lines = none → f s lines = (s, lines))
    (hgo : ∀ s lines t behind, turn s lines = some (t, behind) → f s lines = f t behind)
    (s : σ) (lines : List Line) : turn.EndsWith s lines (f s lines) := by
  obtain ⟨n, hn, result, hends⟩ := exists_ends h s lines
  refine ⟨n, hn, ?_⟩
  have hresult : f s lines = result := by
    clear hn
    induction hends with
    | stop hturn => exact hstop _ _ hturn
    | go hturn _ ih => rw [hgo _ _ _ _ hturn, ih]
  exact hresult ▸ hends

end Turn

/-! ### Lines of one mark -/

/-- A turn that takes a line with a mark. -/
def Line.markTurn (mark : Char) : Turn (List Line)
  | taken, l :: rest => if l.startsWith mark then some (taken ++ [l], rest) else none
  | _, [] => none

theorem Line.markTurn_takesLines (mark : Char) : (markTurn mark).TakesLines := by
  intro taken lines t behind h
  cases lines with
  | nil => cases h
  | cons l rest =>
    obtain ⟨-, h⟩ := Option.ite_none_right_eq_some.mp h
    cases h
    exact .of_suffix (List.suffix_refl _) (List.suffix_refl _)

theorem Line.endsWith_markTurn (mark : Char) (lines : List Line) :
    (markTurn mark).EndsWith [] lines
      (lines.takeWhile (startsWith mark), lines.dropWhile (startsWith mark)) := by
  refine (markTurn_takesLines mark).endsWith (f := fun taken lines =>
    (taken ++ lines.takeWhile (startsWith mark), lines.dropWhile (startsWith mark))) ?_ ?_ [] lines
  · intro taken lines h
    cases lines with
    | nil => simp
    | cons l rest =>
      have hl : l.startsWith mark = false := by simpa [markTurn] using h
      simp [hl]
  · intro taken lines t behind h
    cases lines with
    | nil => cases h
    | cons l rest =>
      obtain ⟨hl, h⟩ := Option.ite_none_right_eq_some.mp h
      cases h
      simp [hl]

/-! ### Brackets -/

namespace Bracket

/-- Whether the last of some lines closes a bracket. -/
def isClosedBy (inside : List Line) : Bool :=
  (inside.getLast?.map Line.closesBracket).getD false

@[simp] theorem isClosedBy_concat (inside : List Line) (l : Line) :
    isClosedBy (inside ++ [l]) = l.closesBracket := by simp [isClosedBy]

/-- A turn that takes a further line of a bracket, which is still open. -/
def turn : Turn (List Line)
  | inside, l :: rest =>
    if isClosedBy inside || l.isBoardStart then none else some (inside ++ [l], rest)
  | _, [] => none

theorem turn_takesLines : turn.TakesLines := by
  intro inside lines t behind h
  cases lines with
  | nil => cases h
  | cons l rest =>
    obtain ⟨-, h⟩ := Option.ite_none_left_eq_some.mp h
    cases h
    exact .of_suffix (List.suffix_refl _) (List.suffix_refl _)

/-- The lines of a bracket of which some are read, and the lines behind it. -/
def finish (inside lines : List Line) : List Line × List Line :=
  if isClosedBy inside then (inside, lines) else (inside ++ (take lines).1, (take lines).2.2)

theorem finish_turn (inside lines t behind : List Line) (h : turn inside lines = some (t, behind)) :
    finish inside lines = finish t behind := by
  cases lines with
  | nil => cases h
  | cons l rest =>
    obtain ⟨hopen, h⟩ := Option.ite_none_left_eq_some.mp h
    cases h
    simp only [Bool.or_eq_true, not_or, Bool.not_eq_true] at hopen
    rw [finish, finish, hopen.1, isClosedBy_concat, take, hopen.2]
    cases l.closesBracket <;> simp

theorem finish_of_turn_eq_none (inside lines : List Line) (h : turn inside lines = none) :
    finish inside lines = (inside, lines) := by
  cases lines with
  | nil => simp [finish, take]
  | cons l rest =>
    cases hclosed : isClosedBy inside with
    | true => simp [finish, hclosed]
    | false =>
      have hstart : l.isBoardStart = true := by simpa [turn, hclosed] using h
      simp [finish, hclosed, take, hstart]

/-- A bracket is read line by line, from its first line on. -/
theorem endsWith_turn {first : Line} (h : first.isBoardStart = false) (lines : List Line) :
    turn.EndsWith [first] lines ((take (first :: lines)).1, (take (first :: lines)).2.2) := by
  have hends := turn_takesLines.endsWith finish_of_turn_eq_none finish_turn [first] lines
  have hfinish : finish [first] lines =
      ((take (first :: lines)).1, (take (first :: lines)).2.2) := by
    have hclosed : isClosedBy [first] = first.closesBracket := isClosedBy_concat [] first
    rw [finish, hclosed, take, h]
    cases first.closesBracket <;> simp
  exact hfinish ▸ hends

theorem read_keepsToBlock : KeepsToBlock read := read_stopsAtBoards.keepsToBlock read_suffix

end Bracket

/-! ### Effects, options and items -/

namespace Item

/-- A turn that takes an effect line and the blank lines behind it. -/
def effectTurn : Turn (List Line)
  | effects, l :: rest =>
    if l.startsWith ':' then some (effects ++ [l], Line.skipBlank rest) else none
  | _, [] => none

theorem effectTurn_takesLines : effectTurn.TakesLines := by
  intro effects lines t behind h
  cases lines with
  | nil => cases h
  | cons l rest =>
    obtain ⟨-, h⟩ := Option.ite_none_right_eq_some.mp h
    cases h
    exact .of_suffix (Line.skipBlank_suffix rest) (List.suffix_refl _)

/-- The effects of which some are read, and the lines behind them, from a line that is not blank
on. -/
def finishEffects (effects lines : List Line) : List Line × List Line :=
  match lines with
  | l :: rest =>
    if l.startsWith ':' then (effects ++ l :: (takeEffects rest).1, (takeEffects rest).2)
    else (effects, l :: rest)
  | [] => (effects, [])

/-- Behind blank lines, the effects are read or there are none. -/
theorem finishEffects_skipBlank (effects lines : List Line) :
    finishEffects effects (Line.skipBlank lines) =
      (effects ++ (takeEffects lines).1, (takeEffects lines).2) := by
  cases hskip : Line.skipBlank lines with
  | nil => simp [finishEffects, takeEffects_of_nil hskip]
  | cons l rest =>
    cases hl : l.startsWith ':' with
    | true => simp [finishEffects, hl, takeEffects_of_effect hskip hl]
    | false => simp [finishEffects, hl, takeEffects_of_other hskip hl]

/-- Effect lines are read one by one, each with the blank lines behind it. -/
theorem endsWith_effectTurn (lines : List Line) :
    effectTurn.EndsWith [] (Line.skipBlank lines) (takeEffects lines) := by
  have hends := effectTurn_takesLines.endsWith (f := finishEffects) ?_ ?_ [] (Line.skipBlank lines)
  · rwa [finishEffects_skipBlank, List.nil_append] at hends
  · intro effects lines h
    cases lines with
    | nil => rfl
    | cons l rest =>
      have hl : l.startsWith ':' = false := by simpa [effectTurn] using h
      simp [finishEffects, hl]
  · intro effects lines t behind h
    cases lines with
    | nil => cases h
    | cons l rest =>
      obtain ⟨hl, h⟩ := Option.ite_none_right_eq_some.mp h
      cases h
      rw [finishEffects_skipBlank]
      simp [finishEffects, hl]

/-- A turn that takes an option of an accepted shape, with the bracket above it. -/
def optionTurn (accepts : OptionShape → Bool) : Turn (List Entry) := fun entries lines =>
  if (upcomingShape lines).any accepts then
    match Line.skipBlank (Bracket.read lines).2 with
    | line :: rest => some (entries ++ [⟨(Bracket.read lines).1, line⟩], rest)
    | [] => none
  else none

theorem optionTurn_takesLines (accepts : OptionShape → Bool) :
    (optionTurn accepts).TakesLines := by
  intro entries lines t behind h
  obtain ⟨-, h⟩ := Option.ite_none_right_eq_some.mp h
  cases hline : Line.skipBlank (Bracket.read lines).2 with
  | nil => simp [hline] at h
  | cons line rest =>
    rw [hline] at h
    cases h
    exact .of_suffix (List.suffix_refl _) (skipBlank_read_suffix hline)

/-- Options are read one by one, as long as one of an accepted shape is seen ahead. -/
theorem endsWith_optionTurn (accepts : OptionShape → Bool) (lines : List Line) :
    (optionTurn accepts).EndsWith [] lines (takeEntries accepts lines) := by
  refine (optionTurn_takesLines accepts).endsWith (f := fun entries lines =>
    (entries ++ (takeEntries accepts lines).1, (takeEntries accepts lines).2)) ?_ ?_ [] lines
  · intro entries lines h
    rcases takeEntries_cases accepts lines with hstop | ⟨line, rest, hline, hshape, ha⟩
    · simp [takeEntries_of_not_accepts hstop]
    · simp [optionTurn, hshape, ha, hline] at h
  · intro entries lines t behind h
    rcases takeEntries_cases accepts lines with hstop | ⟨line, rest, hline, hshape, ha⟩
    · obtain ⟨hany, -⟩ := Option.ite_none_right_eq_some.mp h
      obtain ⟨shape, hshape, ha⟩ := (Option.any_eq_true _ _).mp hany
      rw [hstop shape hshape] at ha
      cases ha
    · have hnext : some (entries ++ [⟨(Bracket.read lines).1, line⟩], rest) = some (t, behind) := by
        simpa [optionTurn, hshape, ha, hline] using h
      cases hnext
      simp [takeEntries_of_accepts hline hshape ha]

/-- A turn that takes an item of a storyboard, or a blank line. -/
def turn : Turn (List Item)
  | items, l :: rest =>
    if l.isBoardStart then none else some (items ++ (read l rest).1.toList, (read l rest).2)
  | _, [] => none

theorem turn_takesLines : turn.TakesLines := by
  intro items lines t behind h
  cases lines with
  | nil => cases h
  | cons l rest =>
    obtain ⟨-, h⟩ := Option.ite_none_left_eq_some.mp h
    cases h
    exact .of_suffix (read_suffix l rest) (List.suffix_refl _)

/-- A storyboard is read item by item. -/
theorem endsWith_turn (lines : List Line) : turn.EndsWith [] lines (readAll lines) := by
  refine turn_takesLines.endsWith (f := fun items lines =>
    (items ++ (readAll lines).1, (readAll lines).2)) ?_ ?_ [] lines
  · intro items lines h
    cases lines with
    | nil => simp [readAll]
    | cons l rest =>
      have hl : l.isBoardStart = true := by simpa [turn] using h
      simp [readAll_of_isBoardStart hl]
  · intro items lines t behind h
    cases lines with
    | nil => cases h
    | cons l rest =>
      obtain ⟨hl, h⟩ := Option.ite_none_left_eq_some.mp h
      cases h
      simp [readAll_of_not_isBoardStart (by simpa using hl)]

/-! ### Readers keep to their storyboard -/

theorem takeEffects_keepsToBlock : KeepsToBlock takeEffects :=
  takeEffects_stopsAtBoards.keepsToBlock takeEffects_suffix

theorem takeEntries_keepsToBlock (accepts : OptionShape → Bool) :
    KeepsToBlock (takeEntries accepts) :=
  (takeEntries_stopsAtBoards accepts).keepsToBlock (takeEntries_suffix accepts)

theorem takeLeftover_keepsToBlock : KeepsToBlock takeLeftover :=
  takeLeftover_stopsAtBoards.keepsToBlock takeLeftover_suffix

theorem readBranch_keepsToBlock : KeepsToBlock readBranch :=
  readBranch_stopsAtBoards.keepsToBlock readBranch_suffix

theorem read_keepsToBlock (l : Line) : KeepsToBlock (read l) :=
  (read_stopsAtBoards l).keepsToBlock (read_suffix l)

theorem readAll_keepsToBlock : KeepsToBlock readAll :=
  readAll_stopsAtBoards.keepsToBlock readAll_suffix

/-- All lines up to the next storyboard are read as items, so that they are the lines that are
skipped where no items are wanted. -/
theorem readAll_rest_eq (lines : List Line) :
    (readAll lines).2 = lines.dropWhile fun l => !l.isBoardStart := by
  obtain ⟨taken, htaken, hnone⟩ := readAll_keepsToBlock lines
  have hskip : (taken ++ (readAll lines).2).dropWhile (fun l => !l.isBoardStart) =
      (readAll lines).2.dropWhile fun l => !l.isBoardStart :=
    List.dropWhile_append_of_pos fun l hl => by simp [hnone l hl]
  rw [← htaken] at hskip
  rw [hskip]
  rcases readAll_rest lines with hnil | ⟨start, rest, hrest, hstart⟩
  · rw [hnil, List.dropWhile_nil]
  · rw [hrest, List.dropWhile_cons_of_neg (by simp [hstart])]

end Item

/-! ### Whole assets -/

namespace Report

/-- A turn that takes a part of an asset. What is read so far are storyboards and faults. The lines
of a storyboard whose name is already used are skipped. -/
def turn (s : Settings) (asset : String) : Turn (Keyed Storyboard × List (List Nat × Fault))
  | (boards, faults), l :: rest =>
    if l.isBoardStart then
      if boards.contains (boardName asset l) then
        some ((boards, faults ++ [([l.number], .duplicateStoryboard (boardName asset l))]),
          rest.dropWhile fun l => !l.isBoardStart)
      else
        some ((boards.insert (boardName asset l)
            (boardOf s asset (boardName asset l) (Item.readAll rest).1),
          faults ++ boardFaults s asset (Item.readAll rest).1), (Item.readAll rest).2)
    else if l.isBlank then some ((boards, faults), rest)
    else some ((boards, faults ++ [([l.number], .outsideStoryboard l.string)]), rest)
  | _, [] => none

variable (s : Settings) (asset : String)

theorem turn_takesLines : (turn s asset).TakesLines := by
  rintro ⟨boards, faults⟩ lines t behind h
  cases lines with
  | nil => cases h
  | cons l rest =>
    have hskip : rest.dropWhile (fun l => !l.isBoardStart) <:+ rest := List.dropWhile_suffix _
    simp only [turn] at h
    split at h
    · split at h
      · cases h
        exact .of_suffix hskip (List.suffix_refl _)
      · cases h
        exact .of_suffix (Item.readAll_suffix rest) (List.suffix_refl _)
    · split at h
      · cases h
        exact .of_suffix (List.suffix_refl _) (List.suffix_refl _)
      · cases h
        exact .of_suffix (List.suffix_refl _) (List.suffix_refl _)

/-- The storyboards and faults of which some are read, once all lines are. -/
def finish (read : Keyed Storyboard × List (List Nat × Fault)) (lines : List Line) :
    (Keyed Storyboard × List (List Nat × Fault)) × List Line :=
  let (boards, faults) := addSections s asset read.1 (Section.ofLines lines)
  ((boards, read.2 ++ faults), [])

theorem finish_of_turn_eq_none (read : Keyed Storyboard × List (List Nat × Fault))
    (lines : List Line) (h : turn s asset read lines = none) :
    finish s asset read lines = (read, lines) := by
  cases lines with
  | nil => simp [finish, Section.ofLines, addSections]
  | cons l rest =>
    simp only [turn] at h
    split at h
    · split at h
      · cases h
      · cases h
    · split at h
      · cases h
      · cases h

theorem finish_turn (read : Keyed Storyboard × List (List Nat × Fault)) (lines : List Line)
    (t : Keyed Storyboard × List (List Nat × Fault)) (behind : List Line)
    (h : turn s asset read lines = some (t, behind)) :
    finish s asset read lines = finish s asset t behind := by
  obtain ⟨boards, faults⟩ := read
  cases lines with
  | nil => cases h
  | cons l rest =>
    simp only [turn] at h
    split at h
    · rename_i hstart
      split at h
      · rename_i hused
        cases h
        simp [finish, Section.ofLines, hstart, addSections, hused, Item.readAll_rest_eq]
      · rename_i hnew
        cases h
        simp [finish, Section.ofLines, hstart, addSections, hnew]
    · rename_i hstart
      split at h
      · rename_i hblank
        cases h
        simp [finish, Section.ofLines, hstart, hblank]
      · rename_i hblank
        cases h
        simp [finish, Section.ofLines, hstart, hblank, addSections]

/-- An asset is read part by part, and the report holds what has been read when nothing is left. -/
theorem endsWith_turn (text : String) :
    ∃ boards faults, (turn s asset).EndsWith (∅, []) (Line.ofAsset text) ((boards, faults), []) ∧
      ofAsset s asset text = ⟨boards, faults.map fun f => ⟨asset, f.1, f.2⟩⟩ := by
  refine ⟨_, _, (turn_takesLines s asset).endsWith (finish_of_turn_eq_none s asset)
    (finish_turn s asset) (∅, []) (Line.ofAsset text), ?_⟩
  simp [ofAsset]

end Report

/-! ### Everything together -/

/-- Lines left when those of one kind in front of them were taken, none of which starts a
storyboard. -/
theorem leftInBlock_dropWhile {test : Line → Bool}
    (h : ∀ l, test l = true → l.isBoardStart = false) (lines : List Line) :
    LeftInBlock (lines.dropWhile test) lines :=
  ⟨lines.takeWhile test, List.takeWhile_append_dropWhile.symm,
    fun l hl => h l (List.all_eq_true.mp List.all_takeWhile l hl)⟩

theorem Line.isBoardStart_of_isBlank {l : Line} (h : l.isBlank = true) : l.isBoardStart = false := by
  cases hstart : l.isBoardStart with
  | false => rfl
  | true =>
    rw [isBlank_of_isBoardStart hstart] at h
    cases h

/-- A reader of items takes its first line and none that starts a storyboard. -/
theorem Item.leftInBlock_read {l : Line} (h : l.isBoardStart = false) (rest : List Line) :
    LeftInBlock (read l rest).2 (l :: rest) := by
  obtain ⟨taken, htaken, hnone⟩ := read_keepsToBlock l rest
  exact ⟨l :: taken, by rw [List.cons_append, ← htaken], List.forall_mem_cons.mpr ⟨h, hnone⟩⟩

/-- What is left of lines behind the panel at their front, by the kind of the first line: the lines
behind narration lines and effects, behind prompt lines and options, or behind options alone. -/
def Item.behindPanel : LineKind → List Line → List Line
  | .narration, lines => (takeEffects (lines.dropWhile (Line.startsWith '|'))).2
  | .prompt, lines => (takeEntries decisionAccepts (lines.dropWhile (Line.startsWith '?'))).2
  | .option, lines => (readBranch lines).2
  | _, lines => lines

theorem Line.startsWith_of_narration {l : Line} (h : l.kind = .narration) :
    l.startsWith '|' = true := by
  unfold kind at h
  unfold startsWith
  split at h <;> simp_all

theorem Line.startsWith_of_prompt {l : Line} (h : l.kind = .prompt) :
    l.startsWith '?' = true := by
  unfold kind at h
  unfold startsWith
  split at h <;> simp_all

/-- A panel takes the first of its lines. An option line is taken even where no panel can be made of
it. -/
theorem Item.isProperRest_behindPanel {l : Line} (rest : List Line)
    (h : l.kind ∈ [.narration, .prompt, .option]) :
    behindPanel l.kind (l :: rest) = (read l rest).2 ∧
      IsProperRest (behindPanel l.kind (l :: rest)) (l :: rest) := by
  have hbehind : behindPanel l.kind (l :: rest) = (read l rest).2 := by
    simp only [List.mem_cons, List.not_mem_nil, or_false] at h
    rcases h with h | h | h
    · simp [behindPanel, read, h, Line.startsWith_of_narration h]
    · simp [behindPanel, read, h, Line.startsWith_of_prompt h]
    · simp [behindPanel, read, h]
  exact ⟨hbehind, hbehind ▸ .of_suffix (read_suffix l rest) (List.suffix_refl _)⟩

/-- **Reading always gets on, keeps to its storyboard and comes to an end**, whatever the settings.

* Every turn that does not end its loop takes at least one line off the front: over the parts of an
  asset, the items of a storyboard, the options of a panel, the lines of a bracket, effect lines and
  the lines of one mark.
* So each of these loops ends after no more turns than there are lines, and the readers are what they
  end with.
* A panel that starts with a line of narration, of a prompt or of options leaves fewer lines.
* Within a storyboard, nothing takes a line that starts another one; nor does skipping it.
* An asset is read part by part until no line is left, which is what its report holds. -/
theorem reading_gets_on (s : Settings) (asset : String) :
    ((Report.turn s asset).TakesLines ∧ Item.turn.TakesLines ∧
      (∀ accepts, (Item.optionTurn accepts).TakesLines) ∧ Bracket.turn.TakesLines ∧
      Item.effectTurn.TakesLines ∧ ∀ mark, (Line.markTurn mark).TakesLines) ∧
    (∀ lines, Item.turn.EndsWith [] lines (Item.readAll lines) ∧
      (∀ accepts, (Item.optionTurn accepts).EndsWith [] lines (Item.takeEntries accepts lines)) ∧
      (∀ first : Line, first.opensBracket = true → Bracket.turn.EndsWith [first] lines
        ((Bracket.take (first :: lines)).1, (Bracket.take (first :: lines)).2.2)) ∧
      Item.effectTurn.EndsWith [] (Line.skipBlank lines) (Item.takeEffects lines) ∧
      ∀ mark, (Line.markTurn mark).EndsWith [] lines
        (lines.takeWhile (Line.startsWith mark), lines.dropWhile (Line.startsWith mark))) ∧
    (∀ l rest, l.kind ∈ [.narration, .prompt, .option] →
      Item.behindPanel l.kind (l :: rest) = (Item.read l rest).2 ∧
        IsProperRest (Item.behindPanel l.kind (l :: rest)) (l :: rest)) ∧
    (KeepsToBlock Bracket.read ∧ KeepsToBlock Item.takeEffects ∧
      (∀ accepts, KeepsToBlock (Item.takeEntries accepts)) ∧ KeepsToBlock Item.takeLeftover ∧
      KeepsToBlock Item.readBranch ∧ KeepsToBlock Item.readAll ∧
      (∀ l rest, l.isBoardStart = false → LeftInBlock (Item.read l rest).2 (l :: rest)) ∧
      ∀ lines, LeftInBlock (Line.skipBlank lines) lines ∧
        (∀ mark, mark ≠ '>' → LeftInBlock (lines.dropWhile (Line.startsWith mark)) lines) ∧
        LeftInBlock (lines.dropWhile fun l => !l.isBoardStart) lines) ∧
    ∀ text, ∃ boards faults,
      (Report.turn s asset).EndsWith (∅, []) (Line.ofAsset text) ((boards, faults), []) ∧
        Report.ofAsset s asset text = ⟨boards, faults.map fun f => ⟨asset, f.1, f.2⟩⟩ := by
  refine ⟨⟨Report.turn_takesLines s asset, Item.turn_takesLines, Item.optionTurn_takesLines,
      Bracket.turn_takesLines, Item.effectTurn_takesLines, Line.markTurn_takesLines⟩,
    ?loops, fun l rest h => Item.isProperRest_behindPanel rest h, ?block,
    Report.endsWith_turn s asset⟩
  case loops =>
    intro lines
    refine ⟨Item.endsWith_turn lines, fun accepts => Item.endsWith_optionTurn accepts lines, ?_,
      Item.endsWith_effectTurn lines, fun mark => Line.endsWith_markTurn mark lines⟩
    intro first hopen
    apply Bracket.endsWith_turn
    cases hstart : first.isBoardStart with
    | false => rfl
    | true =>
      rw [Line.opensBracket, Line.startsWith_of_isBoardStart hstart (by decide)] at hopen
      cases hopen
  case block =>
    refine ⟨Bracket.read_keepsToBlock, Item.takeEffects_keepsToBlock,
      Item.takeEntries_keepsToBlock, Item.takeLeftover_keepsToBlock, Item.readBranch_keepsToBlock,
      Item.readAll_keepsToBlock, fun l rest h => Item.leftInBlock_read h rest, ?_⟩
    intro lines
    refine ⟨leftInBlock_dropWhile (fun l => Line.isBoardStart_of_isBlank) lines, ?_,
      leftInBlock_dropWhile (fun l h => by simpa using h) lines⟩
    intro mark hmark
    refine leftInBlock_dropWhile ?_ lines
    intro l hl
    cases hstart : l.isBoardStart with
    | false => rfl
    | true =>
      rw [Line.startsWith_of_isBoardStart hstart hmark] at hl
      cases hl

end Adventure.Markup
