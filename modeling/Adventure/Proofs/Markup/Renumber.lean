import Adventure.Proofs.Markup.Report
import Adventure.Proofs.Markup.Reading

/-!
Line numbers decide nothing. With the lines numbered in another way, whatever that may be, the same
parts are read, with the other numbers (`Section.ofLines_renumber`), and they make the same
storyboards, with the same faults at the other numbers (`addSections_renumber`).
-/

namespace Adventure.Markup

/-- The line with its number replaced. -/
def Line.renumber (f : Nat → Nat) (l : Line) : Line := ⟨f l.number, l.text⟩

/-- What stands where a guard may stand, with other numbers. -/
def Bracket.renumber (f : Nat → Nat) : Bracket → Bracket
  | absent => absent
  | empty => empty
  | unclosed line => unclosed (f line)
  | guard g => guard ⟨f g.line, g.text⟩

/-- The entry with other numbers. -/
def Entry.renumber (f : Nat → Nat) (e : Entry) : Entry := ⟨e.bracket.renumber f, e.line.renumber f⟩

/-- What is left over, with other numbers. -/
def Leftover.renumber (f : Nat → Nat) (l : Leftover) : Leftover :=
  ⟨l.atFront, l.bracket.renumber f, l.line.map (Line.renumber f)⟩

/-- The item with other numbers. -/
def Item.renumber (f : Nat → Nat) : Item → Item
  | boardProperty l => boardProperty (l.renumber f)
  | panelProperty l => panelProperty (l.renumber f)
  | narration lines effects =>
    narration (lines.map (Line.renumber f)) (effects.map (Line.renumber f))
  | decision prompt entries =>
    decision (prompt.map (Line.renumber f)) (entries.map (Entry.renumber f))
  | branch entries => branch (entries.map (Entry.renumber f))
  | refused entries leftover => refused (entries.map (Entry.renumber f)) (leftover.renumber f)
  | other l => other (l.renumber f)

/-- The part of an asset with other numbers. -/
def Section.renumber (f : Nat → Nat) : Section → Section
  | board start items => board (start.renumber f) (items.map (Item.renumber f))
  | stray l => stray (l.renumber f)

/-- Faults at other numbers. -/
def renumberFaults (f : Nat → Nat) (faults : List (List Nat × Fault)) : List (List Nat × Fault) :=
  faults.map fun fault => (fault.1.map f, fault.2)

/-- The warning with other numbers. -/
def Warning.renumber (f : Nat → Nat) (w : Warning) : Warning := ⟨w.asset, w.lines.map f, w.fault⟩

variable (f : Nat → Nat)

/-! ### Lines -/

namespace Line

@[simp] theorem text_renumber (l : Line) : (l.renumber f).text = l.text := rfl

@[simp] theorem number_renumber (l : Line) : (l.renumber f).number = f l.number := rfl

@[simp] theorem kind_renumber (l : Line) : (l.renumber f).kind = l.kind := rfl

@[simp] theorem startsWith_renumber (mark : Char) (l : Line) :
    (l.renumber f).startsWith mark = l.startsWith mark := rfl

@[simp] theorem isBlank_renumber (l : Line) : (l.renumber f).isBlank = l.isBlank := rfl

@[simp] theorem isBoardStart_renumber (l : Line) :
    (l.renumber f).isBoardStart = l.isBoardStart := rfl

@[simp] theorem opensBracket_renumber (l : Line) :
    (l.renumber f).opensBracket = l.opensBracket := rfl

@[simp] theorem closesBracket_renumber (l : Line) :
    (l.renumber f).closesBracket = l.closesBracket := rfl

theorem skipBlank_renumber (lines : List Line) :
    skipBlank (lines.map (renumber f)) = (skipBlank lines).map (renumber f) := by
  rw [skipBlank, List.dropWhile_map]
  rfl

end Line

/-! ### Guards -/

namespace Bracket

theorem take_renumber (lines : List Line) :
    take (lines.map (Line.renumber f)) =
      ((take lines).1.map (Line.renumber f), (take lines).2.1,
        (take lines).2.2.map (Line.renumber f)) := by
  induction lines with
  | nil => rfl
  | cons l lines ih =>
    rw [List.map_cons, take, take, Line.isBoardStart_renumber, Line.closesBracket_renumber]
    split
    · rfl
    · split
      · rfl
      · rw [ih]
        rfl

theorem inner_renumber (lines : List Line) : inner (lines.map (Line.renumber f)) = inner lines := by
  rw [inner, List.map_map]
  rfl

theorem read_renumber (lines : List Line) :
    read (lines.map (Line.renumber f)) =
      ((read lines).1.renumber f, (read lines).2.map (Line.renumber f)) := by
  unfold read
  rw [Line.skipBlank_renumber]
  cases Line.skipBlank lines with
  | nil => rfl
  | cons l rest =>
    rw [List.map_cons]
    simp only
    rw [Line.opensBracket_renumber]
    split
    · rw [← List.map_cons, take_renumber]
      rcases take (l :: rest) with ⟨inside, closed, behind⟩
      cases closed with
      | false => rfl
      | true =>
        simp only
        rw [inner_renumber]
        split
        · rfl
        · rfl
    · rfl

theorem guard?_renumber (b : Bracket) : (b.renumber f).guard? = b.guard? := by
  cases b <;> rfl

end Bracket

theorem behindBracket?_renumber (lines : List Line) :
    behindBracket? (lines.map (Line.renumber f)) =
      (behindBracket? lines).map (List.map (Line.renumber f)) := by
  induction lines with
  | nil => rfl
  | cons l lines ih =>
    rw [List.map_cons, behindBracket?, behindBracket?, Line.isBoardStart_renumber,
      Line.closesBracket_renumber]
    split
    · rfl
    · split
      · rfl
      · exact ih

theorem upcomingShape_renumber (lines : List Line) :
    upcomingShape (lines.map (Line.renumber f)) = upcomingShape lines := by
  unfold upcomingShape
  rw [Line.skipBlank_renumber]
  cases Line.skipBlank lines with
  | nil => rfl
  | cons l rest =>
    rw [List.map_cons]
    simp only
    rw [Line.opensBracket_renumber]
    by_cases hopen : l.opensBracket = true
    · rw [if_pos hopen, if_pos hopen, ← List.map_cons, behindBracket?_renumber]
      cases behindBracket? (l :: rest) with
      | none => rfl
      | some behind =>
        simp only [Option.map_some]
        rw [Line.skipBlank_renumber]
        cases Line.skipBlank behind with
        | nil => rfl
        | cons l' behind => rfl
    · rw [if_neg hopen, if_neg hopen]
      rfl

/-! ### Items -/

namespace Item

theorem takeEffects_renumber (lines : List Line) :
    takeEffects (lines.map (Line.renumber f)) =
      ((takeEffects lines).1.map (Line.renumber f),
        (takeEffects lines).2.map (Line.renumber f)) := by
  fun_induction takeEffects lines with
  | case1 lines hskip =>
    exact takeEffects_of_nil (by rw [Line.skipBlank_renumber, hskip]; rfl)
  | case2 lines l rest hskip hl effects behind hmore ih =>
    have hskip' := Line.skipBlank_renumber f lines
    rw [hskip, List.map_cons] at hskip'
    rw [takeEffects_of_effect hskip' hl, ih, hmore]
    rfl
  | case3 lines l rest hskip hl =>
    have hskip' := Line.skipBlank_renumber f lines
    rw [hskip, List.map_cons] at hskip'
    exact takeEffects_of_other hskip' (by simpa using hl)

theorem takeEntries_renumber (accepts : OptionShape → Bool) (lines : List Line) :
    takeEntries accepts (lines.map (Line.renumber f)) =
      ((takeEntries accepts lines).1.map (Entry.renumber f),
        (takeEntries accepts lines).2.map (Line.renumber f)) := by
  induction lines using takeEntries_induction accepts with
  | stop lines hstop =>
    rw [takeEntries_of_not_accepts hstop, takeEntries_of_not_accepts]
    · rfl
    · rw [upcomingShape_renumber]
      exact hstop
  | more lines line rest hline hshape ha ih =>
    have hread := Bracket.read_renumber f lines
    have hline' : Line.skipBlank (Bracket.read (lines.map (Line.renumber f))).2 =
        line.renumber f :: rest.map (Line.renumber f) := by
      rw [hread, Line.skipBlank_renumber, hline, List.map_cons]
    have hshape' : upcomingShape (lines.map (Line.renumber f)) =
        some (.ofLine (line.renumber f)) := by
      rw [upcomingShape_renumber, hshape]
      rfl
    rw [takeEntries_of_accepts hline hshape ha, takeEntries_of_accepts hline' hshape' ha, ih, hread]
    rfl

theorem takeLeftover_renumber (lines : List Line) :
    takeLeftover (lines.map (Line.renumber f)) =
      ((takeLeftover lines).1.renumber f, (takeLeftover lines).2.map (Line.renumber f)) := by
  have hfront : ((lines.map (Line.renumber f)).head?.map Line.opensBracket).getD false =
      (lines.head?.map Line.opensBracket).getD false := by
    cases lines with
    | nil => rfl
    | cons l rest => rfl
  rw [takeLeftover_eq, takeLeftover_eq, hfront, Bracket.read_renumber]
  simp only
  rw [Line.skipBlank_renumber]
  cases Line.skipBlank (Bracket.read lines).2 with
  | nil => rfl
  | cons l rest =>
    rw [List.map_cons]
    simp only
    rw [Line.startsWith_renumber]
    split
    · rfl
    · rfl

theorem any_isBranchOption_renumber (entries : List Entry) :
    (entries.map (Entry.renumber f)).any Entry.isBranchOption =
      entries.any Entry.isBranchOption := by
  rw [List.any_map]
  rfl

theorem readBranch_renumber (lines : List Line) :
    readBranch (lines.map (Line.renumber f)) =
      ((readBranch lines).1.renumber f, (readBranch lines).2.map (Line.renumber f)) := by
  have hentries := takeEntries_renumber f branchAccepts lines
  have hany := any_isBranchOption_renumber f (takeEntries branchAccepts lines).1
  cases husable : (takeEntries branchAccepts lines).1.any Entry.isBranchOption with
  | true =>
    rw [readBranch_of_usable husable,
      readBranch_of_usable (by rw [hentries]; exact hany.trans husable), hentries]
    rfl
  | false =>
    rw [readBranch_of_unusable husable,
      readBranch_of_unusable (by rw [hentries]; exact hany.trans husable), hentries,
      takeLeftover_renumber]
    rfl

theorem span_renumber (mark : Char) (lines : List Line) :
    (lines.map (Line.renumber f)).takeWhile (Line.startsWith mark) =
        (lines.takeWhile (Line.startsWith mark)).map (Line.renumber f) ∧
      (lines.map (Line.renumber f)).dropWhile (Line.startsWith mark) =
        (lines.dropWhile (Line.startsWith mark)).map (Line.renumber f) := by
  rw [List.takeWhile_map, List.dropWhile_map]
  exact ⟨rfl, rfl⟩

theorem read_renumber (l : Line) (rest : List Line) :
    read (l.renumber f) (rest.map (Line.renumber f)) =
      ((read l rest).1.map (Item.renumber f), (read l rest).2.map (Line.renumber f)) := by
  unfold read
  rw [Line.kind_renumber]
  split
  · rfl
  · rfl
  · rfl
  · rfl
  · obtain ⟨htake, hdrop⟩ := span_renumber f '|' rest
    rw [htake, hdrop, takeEffects_renumber]
    rfl
  · obtain ⟨htake, hdrop⟩ := span_renumber f '?' rest
    rw [htake, hdrop, takeEntries_renumber]
    rfl
  · rw [← List.map_cons, readBranch_renumber]
    rfl
  · rfl

theorem readAll_renumber (lines : List Line) :
    readAll (lines.map (Line.renumber f)) =
      ((readAll lines).1.map (Item.renumber f), (readAll lines).2.map (Line.renumber f)) := by
  fun_induction readAll lines with
  | case1 => rw [List.map_nil, readAll]; rfl
  | case2 l rest hl => exact readAll_of_isBoardStart (l := l.renumber f) hl _
  | case3 l rest hl items behind hmore ih =>
    rw [hmore] at ih
    rw [List.map_cons, readAll_of_not_isBoardStart (by simpa using hl), read_renumber, ih]
    cases (read l rest).1 with
    | none => rfl
    | some item => rfl

end Item

/-- **The parts that are read do not depend on line numbers.** -/
theorem Section.ofLines_renumber (lines : List Line) :
    ofLines (lines.map (Line.renumber f)) = (ofLines lines).map (Section.renumber f) := by
  fun_induction ofLines lines with
  | case1 => rw [List.map_nil, ofLines]; rfl
  | case2 l rest hl ih =>
    rw [List.map_cons, ofLines, Line.isBoardStart_renumber, if_pos hl, Item.readAll_renumber, ih]
    rfl
  | case3 l rest hl hblank ih =>
    rw [List.map_cons, ofLines, Line.isBoardStart_renumber, if_neg hl, Line.isBlank_renumber,
      if_pos hblank, ih]
  | case4 l rest hl hblank ih =>
    rw [List.map_cons, ofLines, Line.isBoardStart_renumber, if_neg hl, Line.isBlank_renumber,
      if_neg hblank, ih]
    rfl

/-! ### Storyboards and faults -/

section Report

variable {s : Settings} {asset : String}

theorem renumberFaults_append (xs ys : List (List Nat × Fault)) :
    renumberFaults f (xs ++ ys) = renumberFaults f xs ++ renumberFaults f ys := List.map_append

theorem renumberFaults_flatMap {α : Type} {g h : α → List (List Nat × Fault)} {r : α → α}
    (hr : ∀ x, h (r x) = renumberFaults f (g x)) (xs : List α) :
    (xs.map r).flatMap h = renumberFaults f (xs.flatMap g) := by
  rw [List.flatMap_map, renumberFaults, List.map_flatMap]
  exact congrArg (xs.flatMap ·) (funext hr)

theorem Bracket.faults_renumber (b : Bracket) :
    (b.renumber f).faults s = renumberFaults f (b.faults s) := by
  cases b with
  | absent => rfl
  | empty => rfl
  | unclosed line => rfl
  | guard g =>
    rw [renumber, faults, faults]
    split
    · cases Condition.parse g.text with
      | ok t => rfl
      | error e => rfl
    · rfl

theorem Entry.decisionOption?_renumber (e : Entry) :
    (e.renumber f).decisionOption? asset = e.decisionOption? asset := by
  rw [decisionOption?, decisionOption?]
  simp only [renumber, Line.text_renumber, Bracket.guard?_renumber]

theorem Entry.branchOption?_renumber (e : Entry) :
    (e.renumber f).branchOption? asset = e.branchOption? asset := by
  rw [branchOption?, branchOption?]
  simp only [renumber, Line.text_renumber, Bracket.guard?_renumber]

theorem Leftover.faults_renumber (l : Leftover) :
    (l.renumber f).faults s asset = renumberFaults f (l.faults s asset) := by
  obtain ⟨atFront, bracket, line⟩ := l
  rw [faults, faults, renumberFaults_append, renumber]
  simp only [Bracket.faults_renumber]
  congr 1
  cases line with
  | some line =>
    simp only [Option.map_some]
    rw [Line.text_renumber, show (⟨.absent, line.renumber f⟩ : Entry) =
      Entry.renumber f ⟨.absent, line⟩ from rfl, Entry.decisionOption?_renumber]
    split
    · rfl
    · rfl
  | none =>
    cases bracket with
    | guard g => cases atFront <;> rfl
    | _ => rfl

namespace Item

theorem effectText_renumber (effects : List Line) :
    effectText (effects.map (Line.renumber f)) = effectText effects := by
  rw [effectText, List.map_map]
  rfl

theorem textUpTo_renumber (limit : Nat) (lines : List Line) :
    textUpTo limit (lines.map (Line.renumber f)) = textUpTo limit lines := by
  rw [textUpTo, ← List.map_take, List.map_map]
  rfl

theorem filterMap_decisionOption?_renumber (entries : List Entry) :
    (entries.map (Entry.renumber f)).filterMap (Entry.decisionOption? asset) =
      entries.filterMap (Entry.decisionOption? asset) := by
  rw [List.filterMap_map]
  exact congrArg (entries.filterMap ·) (funext (Entry.decisionOption?_renumber f))

theorem filterMap_branchOption?_renumber (entries : List Entry) :
    (entries.map (Entry.renumber f)).filterMap (Entry.branchOption? asset) =
      entries.filterMap (Entry.branchOption? asset) := by
  rw [List.filterMap_map]
  exact congrArg (entries.filterMap ·) (funext (Entry.branchOption?_renumber f))

theorem body?_renumber (item : Item) :
    (item.renumber f).body? s asset = item.body? s asset := by
  cases item with
  | narration lines effects =>
    simp only [renumber, body?, textUpTo_renumber, effectText_renumber]
  | decision prompt entries =>
    simp only [renumber, body?, textUpTo_renumber, filterMap_decisionOption?_renumber]
  | branch entries => simp only [renumber, body?, filterMap_branchOption?_renumber]
  | _ => rfl

theorem overflow_renumber (limit : Nat) (fault : Fault) (lines : List Line) :
    overflow limit fault (lines.map (Line.renumber f)) =
      renumberFaults f (overflow limit fault lines) := by
  rw [overflow, ← List.map_drop, List.map_map, renumberFaults, overflow, List.map_map]
  rfl

theorem propertyFaults_renumber (l : Line) :
    propertyFaults (l.renumber f) = renumberFaults f (propertyFaults l) := by
  rw [propertyFaults, propertyFaults, show property? (l.renumber f) = property? l from rfl]
  split
  · rfl
  · rfl

theorem decisionFaults_renumber (e : Entry) :
    decisionFaults s asset (e.renumber f) = renumberFaults f (decisionFaults s asset e) := by
  rw [decisionFaults, decisionFaults, renumberFaults_append, Entry.decisionOption?_renumber,
    show (e.renumber f).bracket = e.bracket.renumber f from rfl, Bracket.faults_renumber]
  split
  · rfl
  · rfl

theorem branchFaults_renumber (e : Entry) :
    branchFaults s asset (e.renumber f) = renumberFaults f (branchFaults s asset e) := by
  rw [branchFaults, branchFaults, renumberFaults_append, Entry.branchOption?_renumber,
    show (e.renumber f).bracket = e.bracket.renumber f from rfl, Bracket.faults_renumber]
  split
  · rfl
  · rfl

theorem faults_renumber (item : Item) :
    (item.renumber f).faults s asset = renumberFaults f (item.faults s asset) := by
  cases item with
  | boardProperty l => exact propertyFaults_renumber f l
  | panelProperty l => exact propertyFaults_renumber f l
  | narration lines effects =>
    simp only [renumber, faults, renumberFaults_append, overflow_renumber, effectText_renumber]
    congr 1
    rw [renumberFaults, List.map_map, List.map_map]
    refine congrArg (List.map · _) (funext fun issue => ?_)
    simp only [Function.comp_apply, List.map_map]
    rfl
  | decision prompt entries =>
    simp only [renumber, faults, renumberFaults_append, overflow_renumber,
      filterMap_decisionOption?_renumber,
      renumberFaults_flatMap f (decisionFaults_renumber f)]
    congr 1
    split
    · rw [← List.map_take, List.map_map]
      simp [renumberFaults, Function.comp_def]
    · rfl
  | branch entries => exact renumberFaults_flatMap f (branchFaults_renumber f) entries
  | refused entries leftover =>
    simp only [renumber, faults, renumberFaults_append, Leftover.faults_renumber,
      renumberFaults_flatMap f (branchFaults_renumber f)]
  | other l => rfl

end Item

/-- The waiting properties with other numbers. -/
def Waiting.renumber (w : Waiting) : Waiting := ⟨w.properties, w.lines.map f⟩

theorem Waiting.add_renumber (w : Waiting) (l : Line) :
    (w.renumber f).add (l.renumber f) = (w.add l).renumber f := by
  simp [add, renumber, show property? (l.renumber f) = property? l from rfl]

theorem panelsOf_renumber (waiting : Waiting) (items : List Item) :
    panelsOf s asset (waiting.renumber f) (items.map (Item.renumber f)) =
      ((panelsOf s asset waiting items).1, (panelsOf s asset waiting items).2.renumber f) := by
  fun_induction panelsOf s asset waiting items with
  | case1 waiting => rfl
  | case2 waiting l rest ih =>
    rw [List.map_cons, Item.renumber, panelsOf, Waiting.add_renumber, ih]
  | case3 waiting item rest hprop body hbody panels left hrest ih =>
    have hprop' : ∀ l, item.renumber f ≠ .panelProperty l := by
      intro l hl
      cases item with
      | panelProperty l' => exact hprop l' rfl
      | _ => cases hl
    have hbody' := (Item.body?_renumber f item).trans hbody
    rw [hrest] at ih
    rw [List.map_cons, panelsOf]
    · rw [hbody']
      simp only
      rw [show ({} : Waiting) = Waiting.renumber f {} from rfl, ih]
      rfl
    · exact hprop'
  | case4 waiting item rest hprop hbody ih =>
    have hprop' : ∀ l, item.renumber f ≠ .panelProperty l := by
      intro l hl
      cases item with
      | panelProperty l' => exact hprop l' rfl
      | _ => cases hl
    rw [List.map_cons, panelsOf]
    · rw [(Item.body?_renumber f item).trans hbody]
      exact ih
    · exact hprop'

theorem boardProperties_renumber (items : List Item) :
    boardProperties (items.map (Item.renumber f)) = boardProperties items := by
  rw [boardProperties, List.filterMap_map]
  refine congrArg (fun g => Keyed.ofList (items.filterMap g)) (funext fun item => ?_)
  cases item <;> rfl

theorem boardOf_renumber (name : String) (items : List Item) :
    boardOf s asset name (items.map (Item.renumber f)) = boardOf s asset name items := by
  rw [boardOf, boardProperties_renumber, show ({} : Waiting) = Waiting.renumber f {} from rfl,
    panelsOf_renumber]
  rfl

theorem boardFaults_renumber (items : List Item) :
    boardFaults s asset (items.map (Item.renumber f)) =
      renumberFaults f (boardFaults s asset items) := by
  have hpanels : panelsOf s asset {} (items.map (Item.renumber f)) = _ :=
    panelsOf_renumber f {} items
  rw [boardFaults, boardFaults, renumberFaults_append, hpanels,
    renumberFaults_flatMap f (Item.faults_renumber f)]
  congr 1
  cases hleft : (panelsOf s asset {} items).2.properties.isEmpty with
  | true => simp [Waiting.renumber, renumberFaults, hleft]
  | false => simp [Waiting.renumber, renumberFaults, hleft]

theorem boardName_renumber (start : Line) :
    boardName asset (start.renumber f) = boardName asset start := rfl

/-- **What the parts of an asset make does not depend on line numbers.** -/
theorem addSections_renumber (boards : Keyed Storyboard) (sections : List Section) :
    addSections s asset boards (sections.map (Section.renumber f)) =
      ((addSections s asset boards sections).1,
        renumberFaults f (addSections s asset boards sections).2) := by
  fun_induction addSections s asset boards sections with
  | case1 boards => rfl
  | case2 boards l rest all faults hrest ih =>
    rw [hrest] at ih
    rw [List.map_cons, Section.renumber, addSections, ih]
    rfl
  | case3 boards start items rest name hused all faults hrest ih =>
    rw [hrest] at ih
    rw [List.map_cons, Section.renumber, addSections, boardName_renumber]
    simp only
    rw [if_pos hused, ih]
    rfl
  | case4 boards start items rest name hnew all faults hrest ih =>
    rw [hrest] at ih
    rw [List.map_cons, Section.renumber, addSections, boardName_renumber]
    simp only
    rw [if_neg hnew, boardOf_renumber, ih, boardFaults_renumber, renumberFaults_append]

end Report

end Adventure.Markup
