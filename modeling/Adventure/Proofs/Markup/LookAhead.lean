import Adventure.Markup.Report
import Adventure.Proofs.Markup.Reading

/-!
Looking ahead for an option line and reading up to it agree on every row of lines
(`lookAhead_agrees`): an option line is seen ahead if and only if the bracket above it is closed and
the line stands at the front once the bracket and blank lines have been passed
(`upcomingShape_eq_some_iff`).
-/

namespace Adventure.Markup

/-! ### Brackets that are never closed -/

/-- A bracket is closed exactly if there are lines behind it to look at. -/
theorem Bracket.closed_take (lines : List Line) :
    (take lines).2.1 = (behindBracket? lines).isSome := by
  induction lines with
  | nil => rfl
  | cons l lines ih =>
    rw [take, behindBracket?]
    split
    · rfl
    · split
      · rfl
      · exact ih

/-- A bracket from whose first line on none closes it is read as unclosed. -/
theorem Bracket.read_of_not_closed {lines rest : List Line} {l : Line}
    (h : Line.skipBlank lines = l :: rest) (hopen : l.opensBracket = true)
    (hbehind : behindBracket? (l :: rest) = none) : (read lines).1 = unclosed l.number := by
  have hclosed := closed_take (l :: rest)
  rw [hbehind] at hclosed
  unfold read
  rw [h]
  simp only [hopen, if_true]
  rcases htake : take (l :: rest) with ⟨inside, closed, behind⟩
  rw [htake] at hclosed
  cases hclosed
  rfl

/-- A bracket that a line closes is not read as unclosed, and what is behind that line is left. -/
theorem Bracket.read_of_closed {lines rest behind : List Line} {l : Line}
    (h : Line.skipBlank lines = l :: rest) (hopen : l.opensBracket = true)
    (hbehind : behindBracket? (l :: rest) = some behind) :
    (∀ n, (read lines).1 ≠ unclosed n) ∧ (read lines).2 = behind := by
  obtain ⟨inside, htake⟩ := take_of_behindBracket? hbehind
  unfold read
  rw [h]
  simp only [hopen, if_true, htake]
  refine ⟨?_, trivial⟩
  intro n h
  split at h <;> cases h

theorem Bracket.read_of_nil {lines : List Line} (h : Line.skipBlank lines = []) :
    read lines = (absent, []) := by
  unfold read
  rw [h]

/-- Where no bracket opens, none is read, and only blank lines are passed over. -/
theorem Bracket.read_of_not_open {lines rest : List Line} {l : Line}
    (h : Line.skipBlank lines = l :: rest) (hopen : l.opensBracket = false) :
    read lines = (absent, l :: rest) := by
  unfold read
  rw [h]
  simp [hopen]

/-- Whether the faults of a bracket tell that it is never closed. -/
def Bracket.ToldUnclosed (s : Settings) (b : Bracket) : Prop :=
  .unclosedCondition ∈ (b.faults s).map Prod.snd

/-- Only a bracket that is never closed is told to be so. -/
theorem Bracket.toldUnclosed_iff (s : Settings) (b : Bracket) :
    b.ToldUnclosed s ↔ ∃ n, b = unclosed n := by
  unfold ToldUnclosed
  cases b with
  | absent => simp [faults]
  | empty => simp [faults]
  | unclosed line => simp [faults]
  | guard g =>
    simp only [faults, reduceCtorEq, exists_false, iff_false]
    split
    · split <;> simp
    · simp

/-! ### Looking ahead -/

/-- What is seen ahead, by the bracket at the front. -/
theorem upcomingShape_eq_some_iff (lines : List Line) (shape : OptionShape) :
    upcomingShape lines = some shape ↔
      (∀ n, (Bracket.read lines).1 ≠ .unclosed n) ∧
        ∃ line rest, Line.skipBlank (Bracket.read lines).2 = line :: rest ∧
          line.startsWith '-' = true ∧ OptionShape.ofLine line = shape := by
  constructor
  · intro h
    refine ⟨?_, exists_of_upcomingShape h⟩
    unfold upcomingShape at h
    cases hskip : Line.skipBlank lines with
    | nil => simp [hskip] at h
    | cons l rest =>
      simp only [hskip] at h
      cases hopen : l.opensBracket with
      | false => simp [Bracket.read_of_not_open hskip hopen]
      | true =>
        rw [hopen, if_pos rfl] at h
        cases hbehind : behindBracket? (l :: rest) with
        | none => simp [hbehind] at h
        | some behind => exact (Bracket.read_of_closed hskip hopen hbehind).1
  · rintro ⟨hclosed, line, rest, hline, hdash, rfl⟩
    unfold upcomingShape
    cases hskip : Line.skipBlank lines with
    | nil => simp [Bracket.read_of_nil hskip, Line.skipBlank] at hline
    | cons l more =>
      simp only
      cases hopen : l.opensBracket with
      | false =>
        have hl := Line.isBlank_of_skipBlank hskip
        rw [Bracket.read_of_not_open hskip hopen, Line.skipBlank_of_not_isBlank hl] at hline
        cases hline
        simp [hdash]
      | true =>
        cases hbehind : behindBracket? (l :: more) with
        | none => exact absurd (Bracket.read_of_not_closed hskip hopen hbehind) (hclosed _)
        | some behind =>
          rw [(Bracket.read_of_closed hskip hopen hbehind).2] at hline
          simp [hline, hdash]

/-- **Looking ahead and reading agree.** If an option line is seen ahead, the bracket above it is not
told to be unclosed, and behind the bracket and blank lines stands an option line of the shape that
was seen; whatever row of options accepts that shape goes on with this line. If none is seen although
a bracket opens, the bracket is told to be unclosed, or no option line stands behind it. -/
theorem lookAhead_agrees (s : Settings) (lines : List Line) :
    (∀ shape, upcomingShape lines = some shape →
      ¬ (Bracket.read lines).1.ToldUnclosed s ∧
        ∃ line rest, Line.skipBlank (Bracket.read lines).2 = line :: rest ∧
          line.startsWith '-' = true ∧ OptionShape.ofLine line = shape ∧
          ∀ accepts : OptionShape → Bool, accepts shape = true →
            Item.takeEntries accepts lines =
              (⟨(Bracket.read lines).1, line⟩ :: (Item.takeEntries accepts rest).1,
                (Item.takeEntries accepts rest).2)) ∧
      (upcomingShape lines = none →
        ∀ l rest, Line.skipBlank lines = l :: rest → l.opensBracket = true →
          (Bracket.read lines).1.ToldUnclosed s ∨
            ∀ next more, Line.skipBlank (Bracket.read lines).2 = next :: more →
              next.startsWith '-' = false) := by
  constructor
  · intro shape hshape
    obtain ⟨hclosed, line, rest, hline, hdash, rfl⟩ :=
      (upcomingShape_eq_some_iff lines shape).mp hshape
    refine ⟨?_, line, rest, hline, hdash, rfl, ?_⟩
    · rw [Bracket.toldUnclosed_iff, not_exists]
      exact hclosed
    · intro accepts ha
      exact Item.takeEntries_of_accepts hline hshape ha
  · intro hnone l rest _ _
    rw [Bracket.toldUnclosed_iff, Classical.or_iff_not_imp_left, not_exists]
    intro hclosed next more hnext
    cases hdash : next.startsWith '-' with
    | false => rfl
    | true =>
      have hsome := (upcomingShape_eq_some_iff lines (.ofLine next)).mpr
        ⟨hclosed, next, more, hnext, hdash, rfl⟩
      rw [hnone] at hsome
      cases hsome

/-- A guard on two lines, behind a blank line and with another one below it, and the branch option
that it guards; and a guard that no line closes. -/
theorem lookAhead_agrees_cellar :
    let option : Line := ⟨5, "-1-<cellar".toList⟩
    let guarded : List Line :=
      [⟨1, []⟩, ⟨2, "[str".toList⟩, ⟨3, "> 1]".toList⟩, ⟨4, []⟩, option]
    let unclosed : List Line := [⟨2, "[str".toList⟩, ⟨4, []⟩, option]
    (upcomingShape guarded = some .branch ∧ ¬ (Bracket.read guarded).1.ToldUnclosed {} ∧
      ∃ line rest, Line.skipBlank (Bracket.read guarded).2 = line :: rest ∧
        OptionShape.ofLine line = .branch) ∧
      upcomingShape unclosed = none ∧
        ((Bracket.read unclosed).1.ToldUnclosed {} ∨
          ∀ next more, Line.skipBlank (Bracket.read unclosed).2 = next :: more →
            next.startsWith '-' = false) := by
  intro option guarded unclosed
  have hshape : upcomingShape guarded = some .branch := by decide
  have hnone : upcomingShape unclosed = none := by decide
  obtain ⟨hclosed, line, rest, hline, -, hbranch, -⟩ := (lookAhead_agrees {} guarded).1 _ hshape
  exact ⟨⟨hshape, hclosed, line, rest, hline, hbranch⟩, hnone,
    (lookAhead_agrees {} unclosed).2 hnone _ _ rfl (by decide)⟩

end Adventure.Markup
