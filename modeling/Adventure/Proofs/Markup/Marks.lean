import Adventure.Proofs.Markup.Numbers

/-!
What is read stands on lines with its mark. Readers take brackets, options, effects, narrations and
prompts from lines that start with the mark of each, and lines of panel properties in order
(`Section.placedOn_ofLines`).
-/

namespace Adventure.Markup

open scoped List

/-! ### Marks -/

/-- Whether a line starts with a mark. -/
def Line.HasMark (mark : String) (l : Line) : Prop := mark.toList <+: l.text

/-- The mark that makes a line one of a kind. -/
def LineKind.mark : LineKind → String
  | boardStart => ">>"
  | boardProperty => "^&"
  | panelProperty => "&"
  | narration => "|"
  | prompt => "?"
  | _ => ""

theorem Line.hasMark_kind (l : Line) : l.HasMark l.kind.mark := by
  obtain ⟨number, text⟩ := l
  unfold HasMark kind
  split <;> simp_all [LineKind.mark]

theorem Line.hasMark_empty (l : Line) : l.HasMark "" := List.nil_prefix

theorem Line.hasMark_of_kind {l : Line} {kind : LineKind} (h : l.kind = kind) :
    l.HasMark kind.mark := h ▸ l.hasMark_kind

theorem Line.hasMark_of_startsWith {l : Line} {c : Char} {mark : String}
    (h : l.startsWith c = true) (hmark : mark.toList = [c]) : l.HasMark mark := by
  obtain ⟨rest, hrest⟩ := List.head?_eq_some_iff.mp (of_decide_eq_true h)
  rw [HasMark, hmark, hrest]
  exact ⟨rest, rfl⟩

variable {lines : List Line}

/-! ### Items and their lines -/

/-- Whether a bracket starts on one of the lines. -/
def Bracket.PlacedOn (lines : List Line) (b : Bracket) : Prop :=
  ∀ n ∈ b.numbers, ∃ l ∈ lines, l.number = n ∧ l.HasMark "["

/-- Whether an entry stands on some of the lines. -/
def Entry.PlacedOn (lines : List Line) (e : Entry) : Prop :=
  e.bracket.PlacedOn lines ∧ e.line ∈ lines ∧ e.line.HasMark "-"

/-- Whether what is left over stands on some of the lines. -/
def Leftover.PlacedOn (lines : List Line) (l : Leftover) : Prop :=
  l.bracket.PlacedOn lines ∧ ∀ line ∈ l.line, line ∈ lines ∧ line.HasMark "-"

/-- Whether some lines are among the lines, in order, and have a mark. -/
def MarkedAmong (lines : List Line) (mark : String) (ls : List Line) : Prop :=
  ls <+ lines ∧ ∀ l ∈ ls, l.HasMark mark

theorem MarkedAmong.mono {xs ls : List Line} {mark : String} (h : MarkedAmong xs mark ls)
    (hxs : xs <:+ lines) : MarkedAmong lines mark ls := ⟨h.1.trans hxs.sublist, h.2⟩

/-- Whether an item is made of some of the lines, with the marks of its parts. -/
def Item.PlacedOn (lines : List Line) : Item → Prop
  | boardProperty l => l ∈ lines ∧ l.HasMark "^&"
  | panelProperty l => l ∈ lines ∧ l.HasMark "&"
  | narration texts effects => MarkedAmong lines "|" texts ∧ MarkedAmong lines ":" effects
  | decision prompt entries =>
    prompt ≠ [] ∧ MarkedAmong lines "?" prompt ∧ ∀ e ∈ entries, e.PlacedOn lines
  | branch entries => ∀ e ∈ entries, e.PlacedOn lines
  | refused entries leftover => (∀ e ∈ entries, e.PlacedOn lines) ∧ leftover.PlacedOn lines
  | other l => l ∈ lines

/-- The line of panel properties that an item is. -/
def Item.waitingLines : Item → List Line
  | panelProperty l => [l]
  | _ => []

/-- Whether a part of an asset is made of some of the lines. -/
def Section.PlacedOn (lines : List Line) : Section → Prop
  | board start items =>
    start ∈ lines ∧ start.HasMark ">>" ∧ (∀ item ∈ items, item.PlacedOn lines) ∧
      items.flatMap Item.waitingLines <+ lines
  | stray l => l ∈ lines

/-! ### Readers -/

section Readers

variable {xs : List Line}

theorem Bracket.placedOn_read (h : xs <:+ lines) : (read xs).1.PlacedOn lines := by
  have hskip := (Line.skipBlank_suffix xs).trans h
  unfold read
  cases hxs : Line.skipBlank xs with
  | nil => exact List.forall_mem_nil _
  | cons l rest =>
    rw [hxs] at hskip
    simp only
    split
    · rename_i hopen
      have hplace : ∀ n ∈ [l.number], ∃ l' ∈ lines, l'.number = n ∧ l'.HasMark "[" := by
        intro n hn
        exact ⟨l, hskip.subset List.mem_cons_self, (List.mem_singleton.mp hn).symm,
          Line.hasMark_of_startsWith hopen rfl⟩
      rcases take (l :: rest) with ⟨inside, closed, behind⟩
      cases closed with
      | false => exact hplace
      | true =>
        simp only
        split
        · exact List.forall_mem_nil _
        · exact hplace
    · exact List.forall_mem_nil _

namespace Item

theorem markedAmong_takeEffects (xs : List Line) : MarkedAmong xs ":" (takeEffects xs).1 := by
  fun_induction takeEffects xs with
  | case1 => exact ⟨List.nil_sublist _, List.forall_mem_nil _⟩
  | case2 xs l rest hskip hl effects behind hmore ih =>
    rw [hmore] at ih
    have hrest : l :: rest <+ xs := (hskip ▸ Line.skipBlank_suffix xs).sublist
    exact ⟨(ih.1.cons_cons l).trans hrest,
      List.forall_mem_cons.mpr ⟨Line.hasMark_of_startsWith hl rfl, ih.2⟩⟩
  | case3 => exact ⟨List.nil_sublist _, List.forall_mem_nil _⟩

theorem placedOn_takeEntries (accepts : OptionShape → Bool) (h : xs <:+ lines) :
    ∀ e ∈ (takeEntries accepts xs).1, e.PlacedOn lines := by
  induction xs using takeEntries_induction accepts with
  | stop xs hstop =>
    rw [takeEntries_of_not_accepts hstop]
    intro e he
    cases he
  | more xs line rest hline hshape ha ih =>
    obtain ⟨line', rest', hline', hdash, -⟩ := exists_of_upcomingShape hshape
    cases hline.symm.trans hline'
    have hrest : line :: rest <:+ lines := (skipBlank_read_suffix hline).trans h
    rw [takeEntries_of_accepts hline hshape ha, List.forall_mem_cons]
    refine ⟨⟨Bracket.placedOn_read h, hrest.subset List.mem_cons_self,
      Line.hasMark_of_startsWith hdash rfl⟩, ?_⟩
    exact ih ((List.suffix_cons line rest).trans hrest)

theorem placedOn_takeLeftover (h : xs <:+ lines) : (takeLeftover xs).1.PlacedOn lines := by
  have hbracket := Bracket.placedOn_read h
  rw [takeLeftover_eq]
  cases hline : Line.skipBlank (Bracket.read xs).2 with
  | nil =>
    refine ⟨hbracket, ?_⟩
    intro line hnone
    cases hnone
  | cons l rest =>
    simp only
    split
    · rename_i hdash
      refine ⟨hbracket, ?_⟩
      intro line hsome
      cases hsome
      exact ⟨((skipBlank_read_suffix hline).trans h).subset List.mem_cons_self,
        Line.hasMark_of_startsWith hdash rfl⟩
    · refine ⟨hbracket, ?_⟩
      intro line hnone
      cases hnone

theorem placedOn_readBranch (h : xs <:+ lines) : (readBranch xs).1.PlacedOn lines := by
  have hentries := placedOn_takeEntries branchAccepts h
  cases husable : (takeEntries branchAccepts xs).1.any Entry.isBranchOption with
  | true =>
    rw [readBranch_of_usable husable]
    exact hentries
  | false =>
    rw [readBranch_of_unusable husable]
    exact ⟨hentries, placedOn_takeLeftover ((takeEntries_suffix _ _).trans h)⟩

/-- A line and those of the same mark behind it. -/
theorem markedAmong_span {l : Line} {rest : List Line} {c : Char} {mark : String}
    (h : l :: rest <:+ lines) (hl : l.HasMark mark) (hmark : mark.toList = [c]) :
    MarkedAmong lines mark (l :: rest.takeWhile (Line.startsWith c)) := by
  refine ⟨((List.takeWhile_sublist _).cons_cons l).trans h.sublist, ?_⟩
  rw [List.forall_mem_cons]
  refine ⟨hl, ?_⟩
  intro l' hl'
  exact Line.hasMark_of_startsWith (List.all_eq_true.mp List.all_takeWhile l' hl') hmark

theorem placedOn_read {l : Line} {rest : List Line} (h : l :: rest <:+ lines) {item : Item}
    (hitem : (read l rest).1 = some item) : item.PlacedOn lines := by
  have hl : l ∈ lines := h.subset List.mem_cons_self
  have hrest : rest <:+ lines := (List.suffix_cons l rest).trans h
  unfold read at hitem
  split at hitem
  · cases hitem
  · cases hitem
  · rename_i hkind
    cases hitem
    exact ⟨hl, Line.hasMark_of_kind hkind⟩
  · rename_i hkind
    cases hitem
    exact ⟨hl, Line.hasMark_of_kind hkind⟩
  · rename_i hkind
    cases hitem
    exact ⟨markedAmong_span h (Line.hasMark_of_kind hkind) rfl,
      (markedAmong_takeEffects _).mono ((List.dropWhile_suffix _).trans hrest)⟩
  · rename_i hkind
    cases hitem
    exact ⟨List.cons_ne_nil _ _, markedAmong_span h (Line.hasMark_of_kind hkind) rfl,
      placedOn_takeEntries _ ((List.dropWhile_suffix _).trans hrest)⟩
  · cases hitem
    exact placedOn_readBranch h
  · cases hitem
    exact hl

theorem placedOn_readAll (h : xs <:+ lines) : ∀ item ∈ (readAll xs).1, item.PlacedOn lines := by
  fun_induction readAll xs with
  | case1 => exact List.forall_mem_nil _
  | case2 => exact List.forall_mem_nil _
  | case3 l rest hl items behind hmore ih =>
    rw [hmore] at ih
    have hbehind := (read_suffix l rest).trans ((List.suffix_cons l rest).trans h)
    intro item hitem
    rcases List.mem_append.mp hitem with hitem | hitem
    · exact placedOn_read h (Option.mem_toList.mp hitem)
    · exact ih hbehind item hitem

theorem waitingLines_read (l : Line) (rest : List Line) :
    (read l rest).1.toList.flatMap waitingLines <+ [l] := by
  unfold read
  split
  · exact List.nil_sublist _
  · exact List.nil_sublist _
  · exact List.nil_sublist _
  · exact List.Sublist.refl _
  · exact List.nil_sublist _
  · exact List.nil_sublist _
  · cases husable : (takeEntries branchAccepts (l :: rest)).1.any Entry.isBranchOption with
    | true =>
      rw [readBranch_of_usable husable]
      exact List.nil_sublist _
    | false =>
      rw [readBranch_of_unusable husable]
      exact List.nil_sublist _
  · exact List.nil_sublist _

/-- Lines of panel properties are read in order. -/
theorem waitingLines_readAll (xs : List Line) :
    (readAll xs).1.flatMap waitingLines <+ xs := by
  fun_induction readAll xs with
  | case1 => exact List.nil_sublist _
  | case2 => exact List.nil_sublist _
  | case3 l rest hl items behind hmore ih =>
    rw [hmore] at ih
    rw [List.flatMap_append]
    exact (waitingLines_read l rest).append (ih.trans (read_suffix l rest).sublist)

end Item

/-- **All that is read of an asset is read from the lines with its marks.** -/
theorem Section.placedOn_ofLines (h : xs <:+ lines) : ∀ part ∈ ofLines xs, part.PlacedOn lines := by
  fun_induction ofLines xs with
  | case1 => exact List.forall_mem_nil _
  | case2 l rest hl ih =>
    have hrest : rest <:+ lines := (List.suffix_cons l rest).trans h
    rw [List.forall_mem_cons]
    refine ⟨⟨h.subset List.mem_cons_self, Line.hasMark_of_kind (of_decide_eq_true hl),
      Item.placedOn_readAll hrest, (Item.waitingLines_readAll rest).trans hrest.sublist⟩, ?_⟩
    exact ih ((Item.readAll_suffix rest).trans hrest)
  | case3 l rest hl hblank ih => exact ih ((List.suffix_cons l rest).trans h)
  | case4 l rest hl hblank ih =>
    rw [List.forall_mem_cons]
    exact ⟨h.subset List.mem_cons_self, ih ((List.suffix_cons l rest).trans h)⟩

end Readers

end Adventure.Markup
