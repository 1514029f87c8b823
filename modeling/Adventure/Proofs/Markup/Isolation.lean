import Adventure.Proofs.Markup.Boundary
import Adventure.Proofs.Markup.Lines

/-!
Storyboards are isolated from each other. Whatever is wrong in front of a storyboard, such as a guard
that is never closed, properties that no panel takes or options without a panel, ends where the
storyboard starts: the report of a text with a storyboard written behind it is the report of the text
and that of the storyboard, one after the other (`Report.ofAsset_append_board`).
-/

namespace Adventure

namespace Markup

variable {s : Settings} {asset : String}

/-- Parts that follow others are added to the storyboards of those. -/
theorem addSections_append (boards : Keyed Storyboard) (xs ys : List Section) :
    addSections s asset boards (xs ++ ys) =
      ((addSections s asset (addSections s asset boards xs).1 ys).1,
        (addSections s asset boards xs).2 ++
          (addSections s asset (addSections s asset boards xs).1 ys).2) := by
  fun_induction addSections s asset boards xs with
  | case1 boards => rfl
  | case2 boards l rest all faults hrest ih =>
    rw [hrest] at ih
    rw [List.cons_append, addSections, ih]
    rfl
  | case3 boards start items rest name hused all faults hrest ih =>
    rw [hrest] at ih
    rw [List.cons_append, addSections]
    simp only
    rw [if_pos hused, ih]
    rfl
  | case4 boards start items rest name hnew all faults hrest ih =>
    rw [hrest] at ih
    rw [List.cons_append, addSections]
    simp only
    rw [if_neg hnew, ih, List.append_assoc]

/-- A storyboard with a new name is added behind the others. -/
theorem addSections_board_of_not_mem (s : Settings) {boards : Keyed Storyboard} {start : Line}
    (items : List Item) (h : boardName asset start ∉ boards.keys) :
    (addSections s asset boards [.board start items]).1.entries =
        boards.entries ++
          [(boardName asset start, boardOf s asset (boardName asset start) items)] ∧
      (addSections s asset boards [.board start items]).2 = boardFaults s asset items := by
  have hnew : ¬boards.contains (boardName asset start) = true := by
    rw [Keyed.contains, List.contains_iff_mem]
    exact h
  rw [addSections]
  simp only
  rw [if_neg hnew, addSections, List.append_nil]
  exact ⟨Keyed.entries_insert_of_not_mem h, rfl⟩

/-- A storyboard with a name that is used is told of and left out. -/
theorem addSections_board_of_mem (s : Settings) {boards : Keyed Storyboard} {start : Line}
    (items : List Item) (h : boardName asset start ∈ boards.keys) :
    addSections s asset boards [.board start items] =
      (boards, [([start.number], .duplicateStoryboard (boardName asset start))]) := by
  have hused : boards.contains (boardName asset start) = true := List.contains_iff_mem.mpr h
  rw [addSections]
  simp only
  rw [if_pos hused, addSections]

section Block

variable {block : String} {first : List Char} {others : List (List Char)}

theorem Line.isBoardStart_of_prefix (h : ['>', '>'] <+: Text.trim first) (n : Nat) :
    isBoardStart ⟨n, Text.trim first⟩ = true := by
  obtain ⟨name, hname⟩ := h
  exact isBoardStart_of_text hname.symm

/-- The lines that count of a text that starts with a storyboard. -/
theorem Line.ofAsset_block (hblock : Text.lines block.toList = first :: others)
    (hfirst : ['>', '>'] <+: Text.trim first) :
    ofAsset block = ⟨1, Text.trim first⟩ :: counting (numbered 2 others) := by
  have hstart := isBoardStart_of_prefix hfirst 1
  rw [ofAsset_eq, hblock, numbered_cons]
  exact counting_append (startsWith_of_isBoardStart hstart (by decide))
    (isBlank_of_isBoardStart hstart) [] _

/-- A text of which the first line alone starts a storyboard has one part. -/
theorem Section.exists_items_of_block (hblock : Text.lines block.toList = first :: others)
    (hfirst : ['>', '>'] <+: Text.trim first)
    (hothers : ∀ l ∈ others, ¬['>', '>'] <+: Text.trim l) :
    ∃ items, ofLines (Line.ofAsset block) = [.board ⟨1, Text.trim first⟩ items] := by
  have hrest : ∀ l ∈ Line.counting (Line.numbered 2 others), l.isBoardStart = false := by
    intro l hl
    obtain ⟨i, raw, -, hraw, htext⟩ := Line.exists_of_mem_counting hl
    rw [← Bool.not_eq_true]
    intro hboard
    obtain ⟨name, hname⟩ := Line.text_of_isBoardStart hboard
    exact hothers raw (List.mem_of_getElem? hraw) ⟨name, by rw [← htext, hname]; rfl⟩
  refine ⟨(Item.readAll (Line.counting (Line.numbered 2 others))).1, ?_⟩
  rw [Line.ofAsset_block hblock hfirst, ofLines, if_pos (Line.isBoardStart_of_prefix hfirst 1),
    Item.readAll_rest_eq_nil hrest, ofLines]

/-- The parts of a text with a storyboard written behind it. -/
theorem Section.ofLines_append_block {before : String} (hbefore : Text.EndsLine before.toList)
    (hblock : Text.lines block.toList = first :: others)
    (hfirst : ['>', '>'] <+: Text.trim first) :
    ofLines (Line.ofAsset (before ++ block)) =
      ofLines (Line.ofAsset before) ++ (ofLines (Line.ofAsset block)).map
        (renumber (· + (Text.lines before.toList).length)) := by
  obtain ⟨name, hname⟩ := hfirst
  have hcomment : (Text.trim first).head? ≠ some '#' := by
    rw [← hname]
    intro h
    cases h
  have hblank : Text.trim first ≠ [] := by
    rw [← hname]
    intro h
    cases h
  have hfirst : ['>', '>'] <+: Text.trim first := ⟨name, hname⟩
  rw [Line.ofAsset_append hbefore hblock hcomment hblank, ← ofLines_renumber,
    Line.ofAsset_block hblock hfirst, List.map_cons]
  exact ofLines_append (Line.isBoardStart_of_prefix hfirst _) _ _

end Block

/-- The warning that tells of a fault. -/
def Warning.ofFault (asset : String) (f : List Nat × Fault) : Warning := ⟨asset, f.1, f.2⟩

theorem Warning.map_ofFault_renumber (f : Nat → Nat) (faults : List (List Nat × Fault)) :
    (renumberFaults f faults).map (ofFault asset) =
      (faults.map (ofFault asset)).map (Warning.renumber f) := by
  rw [renumberFaults, List.map_map, List.map_map]
  rfl

/-- What is read from further parts comes behind what is read from the first ones. -/
theorem Report.ofAsset_of_sections (s : Settings) (asset : String) {before text : String}
    {more : List Section}
    (h : Section.ofLines (Line.ofAsset text) = Section.ofLines (Line.ofAsset before) ++ more) :
    let front := Report.ofAsset s asset before
    let added := addSections s asset front.storyboards more
    (Report.ofAsset s asset text).storyboards = added.1 ∧
      (Report.ofAsset s asset text).warnings =
        front.warnings ++ added.2.map (Warning.ofFault asset) := by
  intro front added
  have hparts : addSections s asset ∅ (Section.ofLines (Line.ofAsset text)) =
      (added.1, (addSections s asset ∅ (Section.ofLines (Line.ofAsset before))).2 ++ added.2) := by
    rw [h]
    exact addSections_append ∅ _ more
  constructor
  · have hboards := congrArg Prod.fst hparts
    exact hboards
  · have hwarnings := congrArg (fun parts => parts.2.map (Warning.ofFault asset)) hparts
    rw [List.map_append] at hwarnings
    exact hwarnings

/-- **Storyboards are isolated from each other.** Let a text end its last line, or be empty, and let
a storyboard be written behind it: a text of which the first line alone starts a storyboard. If the
name of the storyboard is new, what is read is what is read from the text, and then the storyboard as
it is read on its own, with the warnings of both, those of the storyboard numbered on. If the name is
used, the storyboard adds one warning, about its first line, and nothing else. -/
theorem Report.ofAsset_append_board (s : Settings) (asset : String) {before block : String}
    {first : List Char} {others : List (List Char)} (hbefore : Text.EndsLine before.toList)
    (hblock : Text.lines block.toList = first :: others)
    (hfirst : ['>', '>'] <+: Text.trim first)
    (hothers : ∀ l ∈ others, ¬['>', '>'] <+: Text.trim l) :
    let front := Report.ofAsset s asset before
    let back := Report.ofAsset s asset block
    let both := Report.ofAsset s asset (before ++ block)
    let count := (Text.lines before.toList).length
    let name := boardName asset ⟨1, Text.trim first⟩
    (∃ board, back.storyboards.entries = [(name, board)]) ∧
    (name ∉ front.storyboards.keys →
      both.storyboards.entries = front.storyboards.entries ++ back.storyboards.entries ∧
        both.warnings = front.warnings ++ back.warnings.map (Warning.renumber (· + count))) ∧
    (name ∈ front.storyboards.keys →
      both.storyboards = front.storyboards ∧
        both.warnings = front.warnings ++ [⟨asset, [count + 1], .duplicateStoryboard name⟩]) := by
  intro front back both count name
  obtain ⟨items, hitems⟩ := Section.exists_items_of_block hblock hfirst hothers
  -- The storyboard on its own.
  have hback : back.storyboards.entries = [(name, boardOf s asset name items)] ∧
      back.warnings = (boardFaults s asset items).map (Warning.ofFault asset) := by
    have hnew : name ∉ (∅ : Keyed Storyboard).keys := List.not_mem_nil
    have halone := addSections_board_of_not_mem s items hnew
    rw [← hitems] at halone
    exact ⟨halone.1, congrArg (List.map (Warning.ofFault asset)) halone.2⟩
  -- The storyboard numbered on behind the text.
  let start : Line := Line.renumber (· + count) ⟨1, Text.trim first⟩
  have hboth : Section.ofLines (Line.ofAsset (before ++ block)) =
      Section.ofLines (Line.ofAsset before) ++
        [.board start (items.map (Item.renumber (· + count)))] := by
    rw [Section.ofLines_append_block hbefore hblock hfirst, hitems]
    rfl
  obtain ⟨hboards, hwarnings⟩ := Report.ofAsset_of_sections s asset hboth
  refine ⟨⟨_, hback.1⟩, ?_, ?_⟩
  · intro hnew
    have hadded := addSections_board_of_not_mem s
      (items.map (Item.renumber (· + count))) (show boardName asset start ∉ _ from hnew)
    rw [hboards, hwarnings, hback.1, hback.2, hadded.1, hadded.2, boardOf_renumber,
      boardFaults_renumber, Warning.map_ofFault_renumber]
    exact ⟨rfl, rfl⟩
  · intro hused
    have hskipped := addSections_board_of_mem s
      (items.map (Item.renumber (· + count))) (show boardName asset start ∈ _ from hused)
    rw [hboards, hwarnings, hskipped, Nat.add_comm count 1]
    exact ⟨rfl, rfl⟩

/-- Properties without a panel and a guard that is never closed stay with the storyboard that has
them, whether the next one has a name of its own or not. -/
theorem Report.ofAsset_append_board_door :
    let before := ">>Door\n&mood=dark\n[party money > 10\n"
    let inn := Report.ofAsset {} "tale" (before ++ ">>Inn\n&cosy\n|Hi")
    let door := Report.ofAsset {} "tale" (before ++ ">>Door\n&cosy\n|Hi")
    (inn.storyboards.keys = ["Door", "Inn"] ∧
      inn.warnings = [⟨"tale", [3], .unclosedCondition⟩, ⟨"tale", [2], .unusedPanelProperties⟩,
        ⟨"tale", [5], .invalidProperty "&cosy"⟩]) ∧
    door.storyboards.keys = ["Door"] ∧
      door.warnings = [⟨"tale", [3], .unclosedCondition⟩, ⟨"tale", [2], .unusedPanelProperties⟩,
        ⟨"tale", [4], .duplicateStoryboard "Door"⟩] := by
  intro before inn door
  have hbefore : Text.EndsLine before.toList := Or.inr (by decide)
  have hkeys : (Report.ofAsset {} "tale" before).storyboards.keys = ["Door"] := by decide +kernel
  have hwarnings : (Report.ofAsset {} "tale" before).warnings =
      [⟨"tale", [3], .unclosedCondition⟩, ⟨"tale", [2], .unusedPanelProperties⟩] := by
    decide +kernel
  have hcosy : ∀ l ∈ ["&cosy".toList, "|Hi".toList], ¬['>', '>'] <+: Text.trim l := by decide
  constructor
  · have hlines : Text.lines ">>Inn\n&cosy\n|Hi".toList =
        [">>Inn".toList, "&cosy".toList, "|Hi".toList] := by decide +kernel
    obtain ⟨⟨board, hback⟩, hnew, -⟩ :=
      Report.ofAsset_append_board {} "tale" hbefore hlines (by decide) hcosy
    obtain ⟨hboards, hall⟩ := hnew (by rw [hkeys]; decide)
    constructor
    · rw [Keyed.keys, hboards, List.map_append, hback]
      exact congrArg (· ++ ["Inn"]) hkeys
    · rw [hall, hwarnings]
      decide +kernel
  · have hlines : Text.lines ">>Door\n&cosy\n|Hi".toList =
        [">>Door".toList, "&cosy".toList, "|Hi".toList] := by decide +kernel
    obtain ⟨-, -, hused⟩ :=
      Report.ofAsset_append_board {} "tale" hbefore hlines (by decide) hcosy
    obtain ⟨hboards, hall⟩ := hused (by rw [hkeys]; decide)
    rw [hboards, hall, hkeys, hwarnings]
    exact ⟨rfl, by decide +kernel⟩

end Markup

end Adventure
