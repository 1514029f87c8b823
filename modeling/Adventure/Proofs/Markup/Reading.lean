import Adventure.Markup.Item

/-!
What the readers of items do, one equation a case.

Looking ahead and reading agree: an option line that is seen ahead, perhaps below a guard, is the
one that stands at the front when the guard has been read (`exists_of_upcomingShape`). So a row of
options ends only where no further one is seen, or one of another shape (`Item.takeEntries_cases`).
-/

namespace Adventure.Markup

/-! ### Lines -/

namespace Line

theorem skipBlank_of_isBlank {l : Line} (h : l.isBlank = true) (rest : List Line) :
    skipBlank (l :: rest) = skipBlank rest := List.dropWhile_cons_of_pos h

theorem skipBlank_of_not_isBlank {l : Line} (h : l.isBlank = false) (rest : List Line) :
    skipBlank (l :: rest) = l :: rest := List.dropWhile_cons_of_neg (by simp [h])

theorem isBlank_of_skipBlank {lines rest : List Line} {l : Line}
    (h : skipBlank lines = l :: rest) : l.isBlank = false := by
  have := List.head?_dropWhile_not isBlank lines
  rw [skipBlank] at h
  rw [h] at this
  simpa using this

theorem skipBlank_skipBlank (lines : List Line) :
    skipBlank (skipBlank lines) = skipBlank lines := by
  cases h : skipBlank lines with
  | nil => rfl
  | cons l rest => exact skipBlank_of_not_isBlank (isBlank_of_skipBlank h) rest

end Line

/-! ### Guards -/

/-- Where lines stand behind a bracket, the bracket is closed. -/
theorem Bracket.take_of_behindBracket? {lines behind : List Line}
    (h : behindBracket? lines = some behind) : ∃ inside, take lines = (inside, true, behind) := by
  induction lines with
  | nil => cases h
  | cons l lines ih =>
    rw [behindBracket?] at h
    rw [take]
    split at h
    · cases h
    · rename_i hstart
      rw [if_neg hstart]
      split at h
      · rename_i hclose
        cases h
        exact ⟨[l], if_pos hclose⟩
      · rename_i hclose
        obtain ⟨inside, hinside⟩ := ih h
        exact ⟨l :: inside, by rw [if_neg hclose, hinside]⟩

/-- **Looking ahead and reading agree.** An option line that is seen ahead stands at the front once
the bracket above it, and blank lines, have been passed. -/
theorem exists_of_upcomingShape {lines : List Line} {shape : OptionShape}
    (h : upcomingShape lines = some shape) :
    ∃ line rest, Line.skipBlank (Bracket.read lines).2 = line :: rest ∧
      line.startsWith '-' = true ∧ OptionShape.ofLine line = shape := by
  unfold upcomingShape at h
  unfold Bracket.read
  cases hskip : Line.skipBlank lines with
  | nil => simp [hskip] at h
  | cons l rest =>
    simp only [hskip] at h ⊢
    by_cases hopen : l.opensBracket = true
    · rw [if_pos hopen] at h ⊢
      cases hbehind : behindBracket? (l :: rest) with
      | none => simp [hbehind] at h
      | some behind =>
        obtain ⟨inside, hinside⟩ := Bracket.take_of_behindBracket? hbehind
        rw [hbehind, Option.map_some] at h
        rw [hinside]
        cases hnext : Line.skipBlank behind with
        | nil => simp [hnext] at h
        | cons line more =>
          simp only [hnext] at h
          split at h
          · rename_i hdash
            exact ⟨line, more, rfl, hdash, Option.some.inj h⟩
          · cases h
    · rw [if_neg hopen] at h ⊢
      simp only at h
      split at h
      · rename_i hdash
        have hl : l.isBlank = false := Line.isBlank_of_skipBlank hskip
        exact ⟨l, rest, Line.skipBlank_of_not_isBlank hl rest, hdash, Option.some.inj h⟩
      · cases h

/-! ### Items -/

namespace Item

theorem takeEffects_of_nil {lines : List Line} (h : Line.skipBlank lines = []) :
    takeEffects lines = ([], []) := by
  rw [takeEffects]
  split
  · rfl
  · rename_i hcons
    rw [h] at hcons
    cases hcons

theorem takeEffects_of_effect {lines rest : List Line} {l : Line}
    (h : Line.skipBlank lines = l :: rest) (hl : l.startsWith ':' = true) :
    takeEffects lines = (l :: (takeEffects rest).1, (takeEffects rest).2) := by
  rw [takeEffects]
  split
  · rename_i hnil
    rw [h] at hnil
    cases hnil
  · rename_i hcons
    cases h.symm.trans hcons
    rw [if_pos hl]

theorem takeEffects_of_other {lines rest : List Line} {l : Line}
    (h : Line.skipBlank lines = l :: rest) (hl : l.startsWith ':' = false) :
    takeEffects lines = ([], l :: rest) := by
  rw [takeEffects]
  split
  · rename_i hnil
    rw [h] at hnil
    cases hnil
  · rename_i hcons
    cases h.symm.trans hcons
    rw [hl]
    rfl

variable {accepts : OptionShape → Bool}

/-- No option is taken where none of an accepted shape is seen. -/
theorem takeEntries_of_not_accepts {lines : List Line}
    (h : ∀ shape, upcomingShape lines = some shape → accepts shape = false) :
    takeEntries accepts lines = ([], lines) := by
  rw [takeEntries]
  split
  · rfl
  · rename_i shape hshape
    rw [h shape hshape]
    rfl

/-- An option of an accepted shape is taken, with the bracket above it. -/
theorem takeEntries_of_accepts {lines rest : List Line} {line : Line}
    (hline : Line.skipBlank (Bracket.read lines).2 = line :: rest)
    (hshape : upcomingShape lines = some (.ofLine line)) (h : accepts (.ofLine line) = true) :
    takeEntries accepts lines =
      (⟨(Bracket.read lines).1, line⟩ :: (takeEntries accepts rest).1,
        (takeEntries accepts rest).2) := by
  rw [takeEntries]
  split
  · rename_i hnone
    rw [hshape] at hnone
    cases hnone
  · rename_i shape hsome
    cases hshape.symm.trans hsome
    rw [if_pos h]
    split
    · rename_i hnil
      rw [hline] at hnil
      cases hnil
    · rename_i hcons
      cases hline.symm.trans hcons
      rfl

/-- Either no option of an accepted shape is seen, or the one that is seen is taken. -/
theorem takeEntries_cases (accepts : OptionShape → Bool) (lines : List Line) :
    (∀ shape, upcomingShape lines = some shape → accepts shape = false) ∨
      ∃ line rest, Line.skipBlank (Bracket.read lines).2 = line :: rest ∧
        upcomingShape lines = some (.ofLine line) ∧ accepts (.ofLine line) = true := by
  cases hshape : upcomingShape lines with
  | none => exact Or.inl fun shape h => nomatch h
  | some shape =>
    cases ha : accepts shape with
    | false =>
      left
      intro shape' h
      cases h
      exact ha
    | true =>
      obtain ⟨line, rest, hline, -, rfl⟩ := exists_of_upcomingShape hshape
      exact Or.inr ⟨line, rest, hline, rfl, ha⟩

/-- A row of options, taken one after another: what holds where none is taken, and with one more in
front, holds of all rows. -/
theorem takeEntries_induction {motive : List Line → Prop} (accepts : OptionShape → Bool)
    (stop : ∀ lines, (∀ shape, upcomingShape lines = some shape → accepts shape = false) →
      motive lines)
    (more : ∀ lines line rest, Line.skipBlank (Bracket.read lines).2 = line :: rest →
      upcomingShape lines = some (.ofLine line) → accepts (.ofLine line) = true → motive rest →
      motive lines) (lines : List Line) : motive lines := by
  rcases takeEntries_cases accepts lines with hstop | ⟨line, rest, hline, hshape, ha⟩
  · exact stop lines hstop
  · exact more lines line rest hline hshape ha (takeEntries_induction accepts stop more rest)
termination_by lines.length
decreasing_by
  have h₁ := Line.length_skipBlank_le (Bracket.read lines).2
  have h₂ := Bracket.length_read_le lines
  rw [hline, List.length_cons] at h₁
  omega

/-- Behind what a bracket leaves, an option line or nothing more is taken. -/
theorem takeLeftover_eq (lines : List Line) :
    takeLeftover lines =
      match Line.skipBlank (Bracket.read lines).2 with
      | [] => (⟨(lines.head?.map Line.opensBracket).getD false, (Bracket.read lines).1, none⟩, [])
      | l :: rest =>
        if l.startsWith '-' then
          (⟨(lines.head?.map Line.opensBracket).getD false, (Bracket.read lines).1, some l⟩, rest)
        else
          (⟨(lines.head?.map Line.opensBracket).getD false, (Bracket.read lines).1, none⟩,
            l :: rest) := rfl

theorem readBranch_of_usable {lines : List Line}
    (h : (takeEntries branchAccepts lines).1.any Entry.isBranchOption = true) :
    readBranch lines =
      (branch (takeEntries branchAccepts lines).1, (takeEntries branchAccepts lines).2) := if_pos h

theorem readBranch_of_unusable {lines : List Line}
    (h : (takeEntries branchAccepts lines).1.any Entry.isBranchOption = false) :
    readBranch lines =
      (refused (takeEntries branchAccepts lines).1
          (takeLeftover (takeEntries branchAccepts lines).2).1,
        (takeLeftover (takeEntries branchAccepts lines).2).2) := by
  unfold readBranch
  simp only [h]
  rfl

theorem readAll_of_isBoardStart {l : Line} (h : l.isBoardStart = true) (rest : List Line) :
    readAll (l :: rest) = ([], l :: rest) := by
  rw [readAll, if_pos h]

theorem readAll_of_not_isBoardStart {l : Line} (h : l.isBoardStart = false) (rest : List Line) :
    readAll (l :: rest) =
      ((read l rest).1.toList ++ (readAll (read l rest).2).1, (readAll (read l rest).2).2) := by
  rw [readAll, h]
  rfl

end Item

/-! ### What readers give back

Every reader gives back the lines behind what it read: the end of the lines that it was given. -/

theorem Line.skipBlank_suffix (lines : List Line) : skipBlank lines <:+ lines :=
  List.dropWhile_suffix isBlank

theorem Bracket.take_suffix (lines : List Line) : (take lines).2.2 <:+ lines := by
  induction lines with
  | nil => exact List.suffix_refl _
  | cons l lines ih =>
    rw [take]
    split
    · exact List.suffix_refl _
    · split
      · exact List.suffix_cons l lines
      · exact ih.trans (List.suffix_cons l lines)

theorem Bracket.read_suffix (lines : List Line) : (read lines).2 <:+ lines := by
  have hskip := Line.skipBlank_suffix lines
  unfold read
  cases hlines : Line.skipBlank lines with
  | nil => exact List.nil_suffix
  | cons l rest =>
    rw [hlines] at hskip
    simp only
    split
    · have htake := (take_suffix (l :: rest)).trans hskip
      rcases h : take (l :: rest) with ⟨inside, closed, behind⟩
      rw [h] at htake
      cases closed with
      | false => exact htake
      | true => exact htake
    · exact hskip

/-- Behind a bracket, and blank lines, an option line may follow. -/
theorem skipBlank_read_suffix {lines rest : List Line} {line : Line}
    (h : Line.skipBlank (Bracket.read lines).2 = line :: rest) : line :: rest <:+ lines := by
  rw [← h]
  exact (Line.skipBlank_suffix _).trans (Bracket.read_suffix lines)

namespace Item

theorem takeEffects_suffix (lines : List Line) : (takeEffects lines).2 <:+ lines := by
  fun_induction takeEffects lines with
  | case1 => exact List.nil_suffix
  | case2 lines l rest hskip hl effects behind hmore ih =>
    rw [hmore] at ih
    have hrest : l :: rest <:+ lines := hskip ▸ Line.skipBlank_suffix lines
    exact ih.trans ((List.suffix_cons l rest).trans hrest)
  | case3 lines l rest hskip hl => exact hskip ▸ Line.skipBlank_suffix lines

theorem takeEntries_suffix (accepts : OptionShape → Bool) (lines : List Line) :
    (takeEntries accepts lines).2 <:+ lines := by
  induction lines using takeEntries_induction accepts with
  | stop lines hstop => simp [takeEntries_of_not_accepts hstop]
  | more lines line rest hline hshape ha ih =>
    rw [takeEntries_of_accepts hline hshape ha]
    exact ih.trans ((List.suffix_cons line rest).trans (skipBlank_read_suffix hline))

theorem takeLeftover_suffix (lines : List Line) : (takeLeftover lines).2 <:+ lines := by
  rw [takeLeftover_eq]
  cases hline : Line.skipBlank (Bracket.read lines).2 with
  | nil => exact List.nil_suffix
  | cons l rest =>
    have hrest := skipBlank_read_suffix hline
    simp only
    split
    · exact (List.suffix_cons l rest).trans hrest
    · exact hrest

theorem readBranch_suffix (lines : List Line) : (readBranch lines).2 <:+ lines := by
  have hentries := takeEntries_suffix branchAccepts lines
  cases husable : (takeEntries branchAccepts lines).1.any Entry.isBranchOption with
  | true =>
    rw [readBranch_of_usable husable]
    exact hentries
  | false =>
    rw [readBranch_of_unusable husable]
    exact (takeLeftover_suffix _).trans hentries

theorem read_suffix (l : Line) (rest : List Line) : (read l rest).2 <:+ rest := by
  have hlt := length_read_le l rest
  unfold read at hlt ⊢
  split
  · exact List.suffix_refl _
  · exact List.suffix_refl _
  · exact List.suffix_refl _
  · exact List.suffix_refl _
  · exact (takeEffects_suffix _).trans (List.dropWhile_suffix _)
  · exact (takeEntries_suffix _ _).trans (List.dropWhile_suffix _)
  · rename_i hkind
    simp only [hkind] at hlt
    -- The branch reader is given the line itself, and takes it.
    rcases List.suffix_cons_iff.mp (readBranch_suffix (l :: rest)) with heq | hsuffix
    · rw [heq, List.length_cons] at hlt
      omega
    · exact hsuffix
  · exact List.suffix_refl _

theorem readAll_suffix (lines : List Line) : (readAll lines).2 <:+ lines := by
  fun_induction readAll lines with
  | case1 => exact List.suffix_refl _
  | case2 l rest hl => exact List.suffix_refl _
  | case3 l rest hl items behind hmore ih =>
    rw [hmore] at ih
    exact ih.trans ((read_suffix l rest).trans (List.suffix_cons l rest))

/-- The items of a storyboard end where the next one starts, or at the end of the asset. -/
theorem readAll_rest (lines : List Line) :
    (readAll lines).2 = [] ∨
      ∃ start rest, (readAll lines).2 = start :: rest ∧ start.isBoardStart = true := by
  fun_induction readAll lines with
  | case1 => exact Or.inl rfl
  | case2 l rest hl => exact Or.inr ⟨l, rest, rfl, hl⟩
  | case3 l rest hl items behind hmore ih =>
    rw [hmore] at ih
    exact ih

/-- Every item of a storyboard is read from a line and those behind it. -/
theorem exists_read_of_mem_readAll {item : Item} {lines : List Line}
    (h : item ∈ (readAll lines).1) :
    ∃ l rest, l :: rest <:+ lines ∧ (read l rest).1 = some item := by
  fun_induction readAll lines with
  | case1 => cases h
  | case2 => cases h
  | case3 l rest hl items behind hmore ih =>
    rw [hmore] at ih
    rcases List.mem_append.mp h with h | h
    · exact ⟨l, rest, List.suffix_refl _, Option.mem_toList.mp h⟩
    · obtain ⟨l', rest', hsuffix, hitem⟩ := ih h
      exact ⟨l', rest', hsuffix.trans ((read_suffix l rest).trans (List.suffix_cons l rest)), hitem⟩

/-- Lines of which none starts a storyboard are all read as items. -/
theorem readAll_rest_eq_nil {lines : List Line} (h : ∀ l ∈ lines, l.isBoardStart = false) :
    (readAll lines).2 = [] := by
  rcases readAll_rest lines with hnil | ⟨start, rest, hrest, hstart⟩
  · exact hnil
  · have hmem : start ∈ lines :=
      (readAll_suffix lines).subset (hrest ▸ List.mem_cons_self)
    rw [h start hmem] at hstart
    cases hstart

end Item

namespace Section

/-- Every item of an asset is read from a line and those behind it. -/
theorem exists_read_of_mem_ofLines {start : Line} {items : List Item} {lines : List Line}
    (h : board start items ∈ ofLines lines) {item : Item} (hitem : item ∈ items) :
    ∃ l rest, l :: rest <:+ lines ∧ (Item.read l rest).1 = some item := by
  fun_induction ofLines lines with
  | case1 => cases h
  | case2 l rest hl ih =>
    have hrest := List.suffix_cons l rest
    rcases List.mem_cons.mp h with h | h
    · cases h
      obtain ⟨l', rest', hsuffix, hread⟩ := Item.exists_read_of_mem_readAll hitem
      exact ⟨l', rest', hsuffix.trans hrest, hread⟩
    · obtain ⟨l', rest', hsuffix, hread⟩ := ih h
      exact ⟨l', rest', hsuffix.trans ((Item.readAll_suffix rest).trans hrest), hread⟩
  | case3 l rest hl hblank ih =>
    obtain ⟨l', rest', hsuffix, hread⟩ := ih h
    exact ⟨l', rest', hsuffix.trans (List.suffix_cons l rest), hread⟩
  | case4 l rest hl hblank ih =>
    rcases List.mem_cons.mp h with h | h
    · cases h
    · obtain ⟨l', rest', hsuffix, hread⟩ := ih h
      exact ⟨l', rest', hsuffix.trans (List.suffix_cons l rest), hread⟩

/-- A blank line is no part of an asset. -/
theorem isBlank_of_stray {l : Line} {lines : List Line} (h : stray l ∈ ofLines lines) :
    l.isBlank = false := by
  fun_induction ofLines lines with
  | case1 => cases h
  | case2 l' rest hl ih =>
    rcases List.mem_cons.mp h with h | h
    · cases h
    · exact ih h
  | case3 l' rest hl hblank ih => exact ih h
  | case4 l' rest hl hblank ih =>
    rcases List.mem_cons.mp h with h | h
    · cases h
      exact Bool.eq_false_iff.mpr hblank
    · exact ih h

end Section

end Adventure.Markup
