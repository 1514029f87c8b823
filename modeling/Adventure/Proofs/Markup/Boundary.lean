import Adventure.Proofs.Markup.Reading
import Adventure.Proofs.Text.Runs

/-!
The start of a storyboard is to every reader what the end of the asset is: it reads the same in front
of both, and gives back what it would give back, with the storyboard behind it. So the parts of an
asset are found one storyboard at a time (`Section.ofLines_append`).
-/

namespace Adventure.Markup

/-- Whether a reader stops where a storyboard starts: lines from there on change nothing in what it
reads, and are given back untouched. -/
def StopsAtBoards {α : Type} (read : List Line → α × List Line) : Prop :=
  ∀ (lines : List Line) (start : Line) (rest : List Line), start.isBoardStart = true →
    read (lines ++ start :: rest) = ((read lines).1, (read lines).2 ++ start :: rest)

/-! ### The line that starts a storyboard -/

namespace Line

variable {start : Line}

/-- A line that starts a storyboard has two angles in front. -/
theorem text_of_isBoardStart (h : start.isBoardStart = true) :
    ∃ name, start.text = '>' :: '>' :: name := by
  rw [isBoardStart, decide_eq_true_eq, kind] at h
  split at h <;> first | exact ⟨_, by assumption⟩ | cases h

theorem isBoardStart_of_text {name : List Char} (h : start.text = '>' :: '>' :: name) :
    start.isBoardStart = true := by
  simp [isBoardStart, kind, h]

theorem isBlank_of_isBoardStart (h : start.isBoardStart = true) : start.isBlank = false := by
  obtain ⟨name, hname⟩ := text_of_isBoardStart h
  rw [isBlank, hname]
  rfl

/-- A line that starts a storyboard starts with no other mark. -/
theorem startsWith_of_isBoardStart (h : start.isBoardStart = true) {mark : Char}
    (hmark : mark ≠ '>') : start.startsWith mark = false := by
  obtain ⟨name, hname⟩ := text_of_isBoardStart h
  rw [startsWith, hname, decide_eq_false_iff_not]
  intro hhead
  cases hhead
  exact hmark rfl

theorem skipBlank_append (h : start.isBoardStart = true) (lines rest : List Line) :
    skipBlank (lines ++ start :: rest) = skipBlank lines ++ start :: rest :=
  Text.dropWhile_append_cons (isBlank_of_isBoardStart h) lines rest

end Line

/-! ### Guards -/

theorem Bracket.take_append {start : Line} (h : start.isBoardStart = true) (lines rest : List Line) :
    take (lines ++ start :: rest) =
      ((take lines).1, (take lines).2.1, (take lines).2.2 ++ start :: rest) := by
  induction lines with
  | nil => simp [take, h]
  | cons l lines ih =>
    rw [List.cons_append, take, take]
    split
    · rfl
    · split
      · rfl
      · rw [ih]

theorem Bracket.read_stopsAtBoards : StopsAtBoards Bracket.read := by
  intro lines start rest h
  unfold read
  rw [Line.skipBlank_append h]
  cases Line.skipBlank lines with
  | nil => simp [Line.opensBracket, Line.startsWith_of_isBoardStart h (by decide : '[' ≠ '>')]
  | cons l lines =>
    rw [List.cons_append]
    simp only
    split
    · rw [← List.cons_append, take_append h]
      rcases take (l :: lines) with ⟨inside, closed, behind⟩
      cases closed with
      | false => rfl
      | true => rfl
    · rfl

theorem behindBracket?_append {start : Line} (h : start.isBoardStart = true)
    (lines rest : List Line) :
    behindBracket? (lines ++ start :: rest) =
      (behindBracket? lines).map (· ++ start :: rest) := by
  induction lines with
  | nil => simp [behindBracket?, h]
  | cons l lines ih =>
    rw [List.cons_append, behindBracket?, behindBracket?]
    split
    · rfl
    · split
      · rfl
      · exact ih

/-- No option line is seen behind the start of a storyboard. -/
theorem upcomingShape_append {start : Line} (h : start.isBoardStart = true)
    (lines rest : List Line) : upcomingShape (lines ++ start :: rest) = upcomingShape lines := by
  have hbracket := Line.startsWith_of_isBoardStart h (by decide : '[' ≠ '>')
  have hdash := Line.startsWith_of_isBoardStart h (by decide : '-' ≠ '>')
  unfold upcomingShape
  rw [Line.skipBlank_append h]
  cases Line.skipBlank lines with
  | nil => simp [Line.opensBracket, hbracket, hdash]
  | cons l lines =>
    rw [List.cons_append]
    simp only
    by_cases hopen : l.opensBracket = true
    · rw [if_pos hopen, if_pos hopen, ← List.cons_append, behindBracket?_append h]
      cases behindBracket? (l :: lines) with
      | none => rfl
      | some behind =>
        simp only [Option.map_some]
        rw [Line.skipBlank_append h]
        cases Line.skipBlank behind with
        | nil => simp [hdash]
        | cons l' behind => rfl
    · rw [if_neg hopen, if_neg hopen]

/-! ### Items -/

namespace Item

theorem takeEffects_stopsAtBoards : StopsAtBoards takeEffects := by
  intro lines start rest h
  have hcolon := Line.startsWith_of_isBoardStart h (by decide : ':' ≠ '>')
  fun_induction takeEffects lines with
  | case1 lines hskip =>
    have happend := Line.skipBlank_append h lines rest
    rw [hskip, List.nil_append] at happend
    exact takeEffects_of_other happend hcolon
  | case2 lines l more hskip hl effects behind hmore ih =>
    have happend := Line.skipBlank_append h lines rest
    rw [hskip, List.cons_append] at happend
    rw [takeEffects_of_effect happend hl, ih, hmore]
  | case3 lines l more hskip hl =>
    have happend := Line.skipBlank_append h lines rest
    rw [hskip, List.cons_append] at happend
    exact takeEffects_of_other happend (by simpa using hl)

theorem takeEntries_stopsAtBoards (accepts : OptionShape → Bool) :
    StopsAtBoards (takeEntries accepts) := by
  intro lines start rest h
  induction lines using takeEntries_induction accepts with
  | stop lines hstop =>
    rw [takeEntries_of_not_accepts hstop, takeEntries_of_not_accepts]
    rw [upcomingShape_append h]
    exact hstop
  | more lines line behind hline hshape ha ih =>
    rw [takeEntries_of_accepts hline hshape ha]
    have hread := Bracket.read_stopsAtBoards lines start rest h
    have hline' : Line.skipBlank (Bracket.read (lines ++ start :: rest)).2 =
        line :: (behind ++ start :: rest) := by
      rw [hread, Line.skipBlank_append h, hline, List.cons_append]
    rw [takeEntries_of_accepts hline' (by rw [upcomingShape_append h, hshape]) ha, hread, ih]

theorem takeLeftover_stopsAtBoards : StopsAtBoards takeLeftover := by
  intro lines start rest h
  have hfront : ((lines ++ start :: rest).head?.map Line.opensBracket).getD false =
      (lines.head?.map Line.opensBracket).getD false := by
    cases lines with
    | nil => exact Line.startsWith_of_isBoardStart h (by decide : '[' ≠ '>')
    | cons l lines => rfl
  rw [takeLeftover_eq, takeLeftover_eq, hfront, Bracket.read_stopsAtBoards lines start rest h]
  simp only
  rw [Line.skipBlank_append h]
  cases Line.skipBlank (Bracket.read lines).2 with
  | nil => simp [Line.startsWith_of_isBoardStart h (by decide : '-' ≠ '>')]
  | cons l behind =>
    simp only [List.cons_append]
    split
    · rfl
    · rfl

theorem readBranch_stopsAtBoards : StopsAtBoards readBranch := by
  intro lines start rest h
  have hentries := takeEntries_stopsAtBoards branchAccepts lines start rest h
  cases husable : (takeEntries branchAccepts lines).1.any Entry.isBranchOption with
  | true =>
    rw [readBranch_of_usable husable, readBranch_of_usable (by rw [hentries]; exact husable),
      hentries]
  | false =>
    rw [readBranch_of_unusable husable, readBranch_of_unusable (by rw [hentries]; exact husable),
      hentries, takeLeftover_stopsAtBoards _ start rest h]

/-- Lines of one mark stop at the latest where a storyboard starts. -/
theorem span_append {start : Line} (h : start.isBoardStart = true) {mark : Char}
    (hmark : mark ≠ '>') (lines rest : List Line) :
    (lines ++ start :: rest).takeWhile (Line.startsWith mark) =
        lines.takeWhile (Line.startsWith mark) ∧
      (lines ++ start :: rest).dropWhile (Line.startsWith mark) =
        lines.dropWhile (Line.startsWith mark) ++ start :: rest := by
  have hno := Line.startsWith_of_isBoardStart h hmark
  induction lines with
  | nil => simp [hno]
  | cons l lines ih =>
    cases hl : l.startsWith mark with
    | true => simp [hl, ih.1, ih.2]
    | false => simp [hl]

theorem read_stopsAtBoards (l : Line) : StopsAtBoards (read l) := by
  intro lines start rest h
  unfold read
  split
  · rfl
  · rfl
  · rfl
  · rfl
  · obtain ⟨htake, hdrop⟩ := span_append h (by decide : '|' ≠ '>') lines rest
    rw [htake, hdrop, takeEffects_stopsAtBoards _ start rest h]
  · obtain ⟨htake, hdrop⟩ := span_append h (by decide : '?' ≠ '>') lines rest
    rw [htake, hdrop, takeEntries_stopsAtBoards _ _ start rest h]
  · rw [← List.cons_append, readBranch_stopsAtBoards _ start rest h]
  · rfl

theorem readAll_stopsAtBoards : StopsAtBoards readAll := by
  intro lines start rest h
  fun_induction readAll lines with
  | case1 => exact readAll_of_isBoardStart h rest
  | case2 l lines hl => exact readAll_of_isBoardStart hl _
  | case3 l lines hl items behind hmore ih =>
    rw [hmore] at ih
    rw [List.cons_append, readAll_of_not_isBoardStart (by simpa using hl),
      read_stopsAtBoards l lines start rest h, ih]

end Item

/-- **The parts of an asset are found one storyboard at a time.** What stands before the start of a
storyboard has no part in what is found from there on, however it ends. -/
theorem Section.ofLines_append {start : Line} (h : start.isBoardStart = true)
    (lines rest : List Line) :
    ofLines (lines ++ start :: rest) = ofLines lines ++ ofLines (start :: rest) := by
  fun_induction ofLines lines with
  | case1 => rfl
  | case2 l lines hl ih =>
    rw [List.cons_append, ofLines, if_pos hl, Item.readAll_stopsAtBoards lines start rest h, ih]
    rfl
  | case3 l lines hl hblank ih =>
    rw [List.cons_append, ofLines, if_neg hl, if_pos hblank, ih]
  | case4 l lines hl hblank ih =>
    rw [List.cons_append, ofLines, if_neg hl, if_neg hblank, ih]
    rfl

end Adventure.Markup
