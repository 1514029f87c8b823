import Adventure.Markup.Guard

/-!
Items: the lines of a storyboard, put together into the pieces that mean something. Which lines
belong together depends on the lines alone, not on any setting.

Every reader gives back what it read and the lines behind, and none reads past the start of the next
storyboard.
-/

namespace Adventure.Markup

/-- An option line and what stands above it. -/
structure Entry where
  bracket : Bracket
  line : Line
deriving DecidableEq, Repr

/-- Whether the entry's line has the shape of a branch option with a usable order and target. -/
def Entry.isBranchOption (e : Entry) : Bool :=
  ((OptionParts.ofBranch? e.line.text).bind OptionParts.usable?).isSome

/-- What is left over where a branch was expected and no usable option was found: a bracket, which
may stand right at the front or behind a blank line, and an option line below it. -/
structure Leftover where
  atFront : Bool
  bracket : Bracket
  line : Option Line
deriving DecidableEq, Repr

/-- A piece of a storyboard. -/
inductive Item where
  | boardProperty (line : Line)
  | panelProperty (line : Line)
  /-- Narration lines and the effect lines below them. -/
  | narration (lines effects : List Line)
  /-- Prompt lines and the options below them. -/
  | decision (prompt : List Line) (entries : List Entry)
  /-- Branch options, of which at least one is usable. -/
  | branch (entries : List Entry)
  /-- Option lines of which no panel can be made. -/
  | refused (entries : List Entry) (leftover : Leftover)
  | other (line : Line)
deriving DecidableEq, Repr

namespace Item

/-- The effect lines at the front, and the lines behind them. Blank lines may stand in between, and
those behind the last effect line go with them. -/
def takeEffects (lines : List Line) : List Line × List Line :=
  match _h : Line.skipBlank lines with
  | [] => ([], [])
  | l :: rest =>
    if l.startsWith ':' then
      let (effects, behind) := takeEffects rest
      (l :: effects, behind)
    else ([], l :: rest)
termination_by lines.length
decreasing_by
  have := Line.length_skipBlank_le lines
  simp only [_h, List.length_cons] at this
  omega

/-- The options at the front whose shape a panel accepts, and the lines behind them. -/
def takeEntries (accepts : OptionShape → Bool) (lines : List Line) : List Entry × List Line :=
  match upcomingShape lines with
  | none => ([], lines)
  | some shape =>
    if accepts shape then
      match _h : Line.skipBlank (Bracket.read lines).2 with
      | [] => ([], [])
      | line :: rest =>
        let (entries, behind) := takeEntries accepts rest
        (⟨(Bracket.read lines).1, line⟩ :: entries, behind)
    else ([], lines)
termination_by lines.length
decreasing_by
  have h₁ := Line.length_skipBlank_le (Bracket.read lines).2
  have h₂ := Bracket.length_read_le lines
  simp only [_h, List.length_cons] at h₁
  omega

/-- A decision takes every option line that does not read as a branch. -/
def decisionAccepts (s : OptionShape) : Bool := s ≠ .branch

/-- A branch takes every option line that does not read as a decision. -/
def branchAccepts (s : OptionShape) : Bool := s ≠ .decision

/-- Takes a bracket and an option line off the front, whatever their shape. -/
def takeLeftover (lines : List Line) : Leftover × List Line :=
  let atFront := (lines.head?.map Line.opensBracket).getD false
  let (bracket, behind) := Bracket.read lines
  match Line.skipBlank behind with
  | [] => (⟨atFront, bracket, none⟩, [])
  | l :: rest =>
    if l.startsWith '-' then (⟨atFront, bracket, some l⟩, rest)
    else (⟨atFront, bracket, none⟩, l :: rest)

/-- Reads option lines where a branch is expected. -/
def readBranch (lines : List Line) : Item × List Line :=
  let (entries, behind) := takeEntries branchAccepts lines
  if entries.any Entry.isBranchOption then (branch entries, behind)
  else
    let (leftover, rest) := takeLeftover behind
    (refused entries leftover, rest)

/-- Reads the item that starts with line `l`. Blank lines make no item. -/
def read (l : Line) (rest : List Line) : Option Item × List Line :=
  match l.kind with
  | .boardStart => (none, rest)
  | .blank => (none, rest)
  | .boardProperty => (some (boardProperty l), rest)
  | .panelProperty => (some (panelProperty l), rest)
  | .narration =>
    let more := rest.takeWhile (Line.startsWith '|')
    let (effects, behind) := takeEffects (rest.dropWhile (Line.startsWith '|'))
    (some (narration (l :: more) effects), behind)
  | .prompt =>
    let more := rest.takeWhile (Line.startsWith '?')
    let (entries, behind) := takeEntries decisionAccepts (rest.dropWhile (Line.startsWith '?'))
    (some (decision (l :: more) entries), behind)
  | .option =>
    let (item, behind) := readBranch (l :: rest)
    (some item, behind)
  | .other => (some (other l), rest)

/-! ### Readers get on -/

theorem length_takeEffects_le (lines : List Line) :
    (takeEffects lines).2.length ≤ lines.length := by
  fun_induction takeEffects lines with
  | case1 => simp
  | case2 lines l rest h _ effects behind he ih =>
    have := Line.length_skipBlank_le lines
    rw [he] at ih
    simp only [h, List.length_cons] at this ih ⊢
    omega
  | case3 lines l rest h _ =>
    have := Line.length_skipBlank_le lines
    rw [h] at this
    exact this

theorem length_takeEntries_le (accepts : OptionShape → Bool) (lines : List Line) :
    (takeEntries accepts lines).2.length ≤ lines.length := by
  fun_induction takeEntries accepts lines with
  | case1 => simp
  | case2 => simp
  | case3 lines shape _ _ line rest h entries behind he ih =>
    have h₁ := Line.length_skipBlank_le (Bracket.read lines).2
    have h₂ := Bracket.length_read_le lines
    rw [he] at ih
    simp only [h, List.length_cons] at h₁ ih ⊢
    omega
  | case4 => simp

/-- Entries were taken, or everything is still there. -/
theorem takeEntries_eq_or_lt (accepts : OptionShape → Bool) (lines : List Line) :
    takeEntries accepts lines = ([], lines) ∨
      (takeEntries accepts lines).2.length < lines.length ∨ lines = [] := by
  unfold takeEntries
  split
  · exact Or.inl rfl
  · split
    · right
      split
      · cases lines <;> simp
      · rename_i line rest h
        have h₁ := Line.length_skipBlank_le (Bracket.read lines).2
        have h₂ := Bracket.length_read_le lines
        have h₃ := length_takeEntries_le accepts rest
        left
        simp only [h, List.length_cons] at h₁ h₃ ⊢
        omega
    · exact Or.inl rfl

theorem length_takeLeftover_le (lines : List Line) :
    (takeLeftover lines).2.length ≤ lines.length := by
  have h₁ := Line.length_skipBlank_le (Bracket.read lines).2
  have h₂ := Bracket.length_read_le lines
  unfold takeLeftover
  simp only
  split
  · simp
  · rename_i l rest h
    simp only [h, List.length_cons] at h₁
    split
    · simp only; omega
    · simp only [List.length_cons]; omega

/-- A guard or an option line at the front is always taken. -/
theorem length_takeLeftover_lt {l : Line} (rest : List Line) (h : l.kind = .option) :
    (takeLeftover (l :: rest)).2.length < (l :: rest).length := by
  have hb : l.isBlank = false := by
    unfold Line.kind at h
    unfold Line.isBlank
    split at h <;> simp_all
  have hskip : Line.skipBlank (l :: rest) = l :: rest := by
    simp [Line.skipBlank, hb]
  by_cases ho : l.opensBracket
  · have hk : l.isBoardStart = false := by simp [Line.isBoardStart, h]
    have hread : (Bracket.read (l :: rest)).2.length < (l :: rest).length := by
      unfold Bracket.read
      simp only [hskip, ho, if_true, Bracket.take, hk, Bool.false_eq_true, if_false]
      by_cases hc : l.closesBracket
      · simp [hc]
      · have hle := Bracket.length_take_le rest
        rcases ht : Bracket.take rest with ⟨inside, closed, behind⟩
        rw [ht] at hle
        simp only at hle
        cases closed <;> simp only [hc, Bool.false_eq_true, if_false, List.length_cons] <;> omega
    have h₁ := Line.length_skipBlank_le (Bracket.read (l :: rest)).2
    unfold takeLeftover
    simp only
    split
    · simp
    · rename_i l' rest' h'
      simp only [h', List.length_cons] at h₁ hread
      split
      · simp only [List.length_cons]; omega
      · simp only [List.length_cons]; omega
  · have hd : l.startsWith '-' = true := by
      unfold Line.kind at h
      unfold Line.opensBracket Line.startsWith at ho
      unfold Line.startsWith
      split at h <;> simp_all
    have hread : Bracket.read (l :: rest) = (.absent, l :: rest) := by
      simp [Bracket.read, hskip, ho]
    simp [takeLeftover, hread, hskip, hd]

theorem length_readBranch_lt {l : Line} (rest : List Line) (h : l.kind = .option) :
    (readBranch (l :: rest)).2.length < (l :: rest).length := by
  unfold readBranch
  simp only
  have hle := length_takeLeftover_le (takeEntries branchAccepts (l :: rest)).2
  rcases takeEntries_eq_or_lt branchAccepts (l :: rest) with he | he | he
  · have := length_takeLeftover_lt rest h
    simp only [he, List.any_nil, Bool.false_eq_true, if_false]
    exact this
  · split
    · exact he
    · simp only; omega
  · simp at he

theorem length_read_le (l : Line) (rest : List Line) : (read l rest).2.length ≤ rest.length := by
  unfold read
  split
  · exact Nat.le_refl _
  · exact Nat.le_refl _
  · exact Nat.le_refl _
  · exact Nat.le_refl _
  · have h₁ := length_takeEffects_le (rest.dropWhile (Line.startsWith '|'))
    have h₂ := (List.dropWhile_sublist (Line.startsWith '|') (l := rest)).length_le
    simp only; omega
  · have h₁ := length_takeEntries_le decisionAccepts (rest.dropWhile (Line.startsWith '?'))
    have h₂ := (List.dropWhile_sublist (Line.startsWith '?') (l := rest)).length_le
    simp only; omega
  · have := length_readBranch_lt rest (by assumption : l.kind = .option)
    simp only [List.length_cons] at this ⊢
    omega
  · exact Nat.le_refl _

/-! ### All items of a storyboard -/

/-- The items up to the start of the next storyboard, and the lines from there on. -/
def readAll : List Line → List Item × List Line
  | [] => ([], [])
  | l :: rest =>
    if l.isBoardStart then ([], l :: rest)
    else
      let (items, behind) := readAll (read l rest).2
      ((read l rest).1.toList ++ items, behind)
termination_by lines => lines.length
decreasing_by
  have := length_read_le l rest
  simp only [List.length_cons]
  omega

theorem length_readAll_le (lines : List Line) : (readAll lines).2.length ≤ lines.length := by
  fun_induction readAll lines with
  | case1 => simp
  | case2 => simp
  | case3 l rest _ items behind h ih =>
    have := length_read_le l rest
    rw [h] at ih
    simp only [List.length_cons] at ih ⊢
    omega

end Item

/-- A part of an asset: a storyboard with its items, or a line in front of all storyboards. -/
inductive Section where
  | board (start : Line) (items : List Item)
  | stray (line : Line)
deriving DecidableEq, Repr

/-- The parts of an asset. Blank lines in front of all storyboards make no part. -/
def Section.ofLines : List Line → List Section
  | [] => []
  | l :: rest =>
    if l.isBoardStart then .board l (Item.readAll rest).1 :: ofLines (Item.readAll rest).2
    else if l.isBlank then ofLines rest
    else .stray l :: ofLines rest
termination_by lines => lines.length
decreasing_by
  · have := Item.length_readAll_le rest
    simp only [List.length_cons]
    omega
  · simp
  · simp

end Adventure.Markup
