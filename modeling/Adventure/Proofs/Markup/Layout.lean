import Adventure.Proofs.Markup.Lines
import Adventure.Proofs.Markup.ReadBack

/-!
The lines of storyboards that are written are the lines that count: they are trimmed, none is a
comment, and of the blank lines behind a panel one is kept (`Line.ofAsset_boardLines`).
-/

namespace Adventure.Markup

/-- A line with something on it that is no comment. -/
structure IsMarked (line : List Char) : Prop where
  is_line : Text.IsLine line
  ne : line ≠ []
  no_comment : line.head? ≠ some '#'

/-- The layout that is left once rows of blank lines are collapsed. -/
def Layout.collapsed (layout : Layout) : Layout :=
  { layout with gap := fun ps => min (layout.gap ps) 1 }

theorem Layout.Separates.collapsed {layout : Layout} (h : layout.Separates) :
    layout.collapsed.Separates := by
  rcases h with hgap | hbare
  · exact Or.inl fun p ps => Nat.lt_min.mpr ⟨hgap p ps, Nat.one_pos⟩
  · exact Or.inr hbare

variable {layout : Layout} {s : Settings}

/-! ### Lines that are kept -/

theorem IsMarked.cons {mark : Char} (hmark : Text.isBlank mark = false) (hcomment : mark ≠ '#')
    {line : List Char} (h : Text.IsLine line) : IsMarked (mark :: line) :=
  ⟨h.cons hmark, List.cons_ne_nil _ _, fun hhead => hcomment (Option.some.inj hhead)⟩

theorem IsMarked.append {mark sign : Char} (hmark : Text.isBlank mark = false)
    (hcomment : mark ≠ '#') (hsign : Text.isBlank sign = false) {front line : List Char}
    (hfront : '\n' ∉ front) (h : Text.IsLine line) : IsMarked (mark :: (front ++ sign :: line)) :=
  ⟨h.append hmark hsign hfront, List.cons_ne_nil _ _, fun hhead => hcomment (Option.some.inj hhead)⟩

theorem isMarked_propertyLine {e : String × String} (h : IsProperty e) :
    IsMarked (propertyLine e) :=
  IsMarked.append rfl (by decide) rfl h.key.2 h.value

theorem isMarked_of_mem_textLines {mark : Char} (hmark : Text.isBlank mark = false)
    (hcomment : mark ≠ '#') {limit : Nat} {text : String} (h : IsText limit text) :
    ∀ line ∈ textLines mark text, IsMarked line := by
  intro line hline
  obtain ⟨piece, hpiece, rfl⟩ := List.mem_map.mp hline
  exact IsMarked.cons hmark hcomment ⟨h.2 piece hpiece, Text.not_mem_of_mem_splitOn hpiece⟩

/-- Names that can stand in quotes make one line, and no other mutations than the written ones. -/
theorem quiet_of_wellFormed {e : Effect} (h : e.WellFormed) :
    ∀ name ∈ e.traits, '"' ∉ name.toList ∧ Effect.Quiet name.toList := by
  intro name hname
  constructor
  · intro hquote
    exact (h name hname '"' hquote).1 rfl
  · apply Effect.quiet_of_no_sign
    intro c hc
    obtain ⟨-, -, hplus, hminus, hequals⟩ := h name hname c hc
    unfold Effect.Sign.ofChar?
    split
    · exact absurd rfl hplus
    · exact absurd rfl hminus
    · exact absurd rfl hequals
    · rfl

theorem isLine_mutations {e : Effect} (h : e.WellFormed) :
    Text.IsLine (Effect.Mutation.line e.mutations) := by
  have honeLine : ∀ m ∈ e.mutations, m.OneLine := by
    refine Effect.forall_mutations (P := Effect.Mutation.OneLine) (fun _ => trivial) ?_
    intro owner name hname hfeed
    exact (h name hname '\n' hfeed).2.1 rfl
  apply Effect.Mutation.isLine_line
  intro m hm
  exact ⟨Effect.wellFormed_mutations (quiet_of_wellFormed h) m hm, honeLine m hm⟩

theorem isMarked_of_mem_effectLines {e : Effect} (h : e.WellFormed) :
    ∀ line ∈ effectLines layout e, IsMarked line := by
  intro line hline
  rw [effectLines] at hline
  split at hline
  · cases hline
  · rw [List.mem_singleton.mp hline]
    exact IsMarked.cons rfl (by decide) (isLine_mutations h)

theorem isMarked_of_mem_guardedLines {guard : Option String} (hguard : ∀ g ∈ guard, IsGuard g)
    {option : List Char} (hoption : IsMarked option) :
    ∀ line ∈ guardedLines guard option, IsMarked line := by
  intro line hline
  rcases List.mem_append.mp hline with hline | hline
  · obtain ⟨g, hg, rfl⟩ := List.mem_map.mp hline
    have hg := hguard g (Option.mem_toList.mp hg)
    exact IsMarked.append rfl (by decide) rfl hg.line.2 (Text.IsLine.of_all (List.forall_mem_nil _))
  · rw [List.mem_singleton.mp hline]
    exact hoption

/-- A number holds no line feed. -/
theorem not_mem_signed (n : Int) : '\n' ∉ Decimal.signed n := by
  obtain ⟨c, ds, hcons, hc, hds⟩ := Decimal.signed_eq_cons n
  rw [hcons]
  apply List.not_mem_cons_of_ne_of_not_mem
  · rintro rfl
    exact absurd hc (by decide)
  · intro hmem
    exact absurd (List.all_eq_true.mp hds '\n' hmem) (by decide)

theorem isMarked_decisionLine {o : DecisionOption} (h : o.WellFormed) :
    IsMarked (decisionLine o) := by
  have hfront : '\n' ∉ Decimal.signed o.order.val ++ '-' :: (o.text.toList ++ ['-']) := by
    simp [not_mem_signed, h.text.2]
  have hline : decisionLine o = '-' :: ((Decimal.signed o.order.val ++
      '-' :: (o.text.toList ++ ['-'])) ++ '<' :: o.targetUri.toList) := by
    simp [decisionLine]
  rw [hline]
  exact IsMarked.append rfl (by decide) rfl hfront h.target.1

theorem isMarked_branchLine {o : BranchOption} (h : o.WellFormed) : IsMarked (branchLine o) :=
  IsMarked.append rfl (by decide) rfl (not_mem_signed _) (h.target.1.cons rfl)

theorem isMarked_of_mem_bodyLines {body : PanelBody} (h : body.WellFormed s) :
    ∀ line ∈ bodyLines layout body, IsMarked line := by
  intro line hline
  cases body with
  | narration text effect =>
    obtain ⟨htext, heffect⟩ := h
    rcases List.mem_append.mp hline with hline | hline
    · exact isMarked_of_mem_textLines rfl (by decide) htext line hline
    · exact isMarked_of_mem_effectLines heffect line hline
  | decision prompt options =>
    obtain ⟨hprompt, -, hoptions⟩ := h
    rcases List.mem_append.mp hline with hline | hline
    · exact isMarked_of_mem_textLines rfl (by decide) hprompt line hline
    · obtain ⟨o, ho, hline⟩ := List.mem_flatMap.mp hline
      have ho := hoptions o ho
      exact isMarked_of_mem_guardedLines ho.guard (isMarked_decisionLine ho) line hline
  | branch options =>
    obtain ⟨o, ho, hline⟩ := List.mem_flatMap.mp hline
    have ho := h.2 o ho
    exact isMarked_of_mem_guardedLines ho.guard (isMarked_branchLine ho) line hline

theorem isMarked_of_mem_panelLines {p : Panel} (h : p.WellFormed s) :
    ∀ line ∈ panelLines layout p, IsMarked line := by
  intro line hline
  rcases List.mem_append.mp hline with hline | hline
  · obtain ⟨e, he, rfl⟩ := List.mem_map.mp hline
    exact isMarked_propertyLine (h.properties e he)
  · exact isMarked_of_mem_bodyLines h.body line hline

theorem isMarked_of_mem_headLines {b : Storyboard} (h : b.WellFormed s) :
    ∀ line ∈ headLines b, IsMarked line := by
  intro line hline
  rcases List.mem_cons.mp hline with rfl | hline
  · exact IsMarked.cons rfl (by decide) (h.name.cons rfl)
  · obtain ⟨e, he, rfl⟩ := List.mem_map.mp hline
    exact IsMarked.cons rfl (by decide) (isMarked_propertyLine (h.properties e he)).is_line

theorem isMarked_or_blank_of_panels {panels : List Panel} (h : ∀ p ∈ panels, p.WellFormed s) :
    ∀ line ∈ panelsLines layout panels, line = [] ∨ IsMarked line := by
  induction panels with
  | nil => nofun
  | cons p ps ih =>
    obtain ⟨hp, hps⟩ := List.forall_mem_cons.mp h
    intro line hline
    rcases List.mem_append.mp hline with hline | hline
    · exact Or.inr (isMarked_of_mem_panelLines hp line hline)
    · rcases List.mem_append.mp hline with hline | hline
      · exact Or.inl (List.eq_of_mem_replicate hline)
      · exact ih hps line hline

/-- Every line of a storyboard is blank or has a mark in front. -/
theorem isMarked_or_blank_of_board {b : Storyboard} (h : b.WellFormed s) :
    ∀ line ∈ boardLines layout b, line = [] ∨ IsMarked line := by
  intro line hline
  rcases List.mem_append.mp hline with hline | hline
  · exact Or.inr (isMarked_of_mem_headLines h line hline)
  · exact isMarked_or_blank_of_panels h.panels line hline

/-! ### Blank lines -/

namespace Line

/-- Lines that start with something that is not blank. -/
def StartsFilled (lines : List Line) : Prop := ∀ l ∈ lines.head?, l.isBlank = false

theorem isBlank_unnumbered {line : List Char} (h : IsMarked line) :
    (unnumbered line).isBlank = false := List.isEmpty_eq_false_iff.mpr h.ne

/-- What comes before lines that start filled does not matter to them. -/
theorem collapse_of_startsFilled {lines : List Line} (h : StartsFilled lines)
    (afterBlank : Bool) : collapse afterBlank lines = collapse false lines := by
  cases lines with
  | nil => rfl
  | cons l rest => rw [collapse, collapse, h l rfl, Bool.false_and, Bool.false_and]

/-- Filled lines are kept. -/
theorem collapse_filled {filled : List (List Char)} (h : ∀ line ∈ filled, IsMarked line)
    (rest : List Line) :
    collapse false (filled.map unnumbered ++ rest) =
      filled.map unnumbered ++ collapse false rest := by
  induction filled with
  | nil => rfl
  | cons line filled ih =>
    obtain ⟨hline, hfilled⟩ := List.forall_mem_cons.mp h
    rw [List.map_cons, List.cons_append, collapse, isBlank_unnumbered hline, ih hfilled]
    rfl

/-- Of a row of blank lines the first is kept. -/
theorem collapse_blanks {rest : List Line} (h : StartsFilled rest) (n : Nat) :
    collapse false (blanks n ++ rest) = blanks (min n 1) ++ collapse false rest := by
  have htrue : ∀ n : Nat, collapse true (blanks n ++ rest) = collapse false rest := by
    intro n
    induction n with
    | zero => exact collapse_of_startsFilled h true
    | succ n ih => exact ih
  cases n with
  | zero => rfl
  | succ n =>
    have hone : min (n + 1) 1 = 1 := by omega
    have hcollapse : collapse false (blanks (n + 1) ++ rest) =
        unnumbered [] :: collapse true (blanks n ++ rest) := rfl
    rw [hcollapse, htrue, hone]
    rfl

/-- A panel starts filled. -/
theorem startsFilled_panelsLines {panels : List Panel} (h : ∀ p ∈ panels, p.WellFormed s)
    {rest : List Line} (hrest : StartsFilled rest) :
    StartsFilled ((panelsLines layout panels).map unnumbered ++ rest) := by
  cases panels with
  | nil => exact hrest
  | cons p ps =>
    obtain ⟨mark, cs, more, hlines, -⟩ := Item.head_panelLines layout (h p List.mem_cons_self)
    rw [panelsLines, hlines]
    intro l hl
    cases hl
    rfl

/-- Between panels, rows of blank lines are collapsed. -/
theorem collapse_panelsLines {panels : List Panel} (h : ∀ p ∈ panels, p.WellFormed s)
    {rest : List Line} (hrest : StartsFilled rest) :
    collapse false ((panelsLines layout panels).map unnumbered ++ rest) =
      (panelsLines layout.collapsed panels).map unnumbered ++ collapse false rest := by
  induction panels with
  | nil => rfl
  | cons p ps ih =>
    obtain ⟨hp, hps⟩ := List.forall_mem_cons.mp h
    have hlines : ∀ l : Layout, (panelsLines l (p :: ps)).map unnumbered =
        (panelLines l p).map unnumbered ++
          (blanks (l.gap ps) ++ (panelsLines l ps).map unnumbered) := by
      intro l
      rw [panelsLines, List.map_append, List.map_append]
      rfl
    rw [hlines, hlines, List.append_assoc, List.append_assoc,
      collapse_filled (isMarked_of_mem_panelLines hp),
      collapse_blanks (startsFilled_panelsLines hps hrest), ih hps, List.append_assoc,
      List.append_assoc]
    rfl

/-- In storyboards, rows of blank lines are collapsed. -/
theorem collapse_boards {boards : List Storyboard} (h : ∀ b ∈ boards, b.WellFormed s) :
    collapse false ((boards.flatMap (boardLines layout)).map unnumbered) =
      (boards.flatMap (boardLines layout.collapsed)).map unnumbered := by
  induction boards with
  | nil => rfl
  | cons b bs ih =>
    obtain ⟨hb, hbs⟩ := List.forall_mem_cons.mp h
    have hrest : StartsFilled ((bs.flatMap (boardLines layout)).map unnumbered) := by
      cases bs with
      | nil => nofun
      | cons b' bs =>
        intro l hl
        cases hl
        rfl
    rw [List.flatMap_cons, boardLines, List.append_assoc, List.map_append, List.map_append,
      collapse_filled (isMarked_of_mem_headLines hb), collapse_panelsLines hb.panels hrest, ih hbs,
      List.flatMap_cons, boardLines, List.map_append, List.map_append, List.append_assoc]

/-- Of the lines of storyboards, those count that the collapsed layout has. -/
theorem counting_boardLines {boards : List Storyboard} (hboards : ∀ b ∈ boards, b.WellFormed s) :
    counting ((boards.flatMap (boardLines layout)).map unnumbered) =
      (boards.flatMap (boardLines layout.collapsed)).map unnumbered := by
  have hcomments : ((boards.flatMap (boardLines layout)).map unnumbered).filter
      (fun l => !l.startsWith '#') = (boards.flatMap (boardLines layout)).map unnumbered := by
    rw [List.filter_eq_self]
    intro l hl
    obtain ⟨line, hline, rfl⟩ := List.mem_map.mp hl
    obtain ⟨b, hb, hline⟩ := List.mem_flatMap.mp hline
    rw [Bool.not_eq_true', startsWith, decide_eq_false_iff_not]
    rcases isMarked_or_blank_of_board (hboards b hb) line hline with rfl | hmarked
    · intro hhead
      cases hhead
    · exact hmarked.no_comment
  rw [counting, hcomments, collapse_boards hboards]

/-- **The lines of storyboards that are written are the lines that count**, but for their numbers. -/
theorem ofAsset_boardLines {boards : List Storyboard} (hboards : ∀ b ∈ boards, b.WellFormed s) :
    (ofAsset (written layout boards)).map (renumber fun _ => 0) =
      (boards.flatMap (boardLines layout.collapsed)).map unnumbered := by
  have hline : ∀ line ∈ boards.flatMap (boardLines layout), Text.IsLine line := by
    intro line hline
    obtain ⟨b, hb, hline⟩ := List.mem_flatMap.mp hline
    rcases isMarked_or_blank_of_board (hboards b hb) line hline with rfl | hmarked
    · exact Text.IsLine.of_all (List.forall_mem_nil _)
    · exact hmarked.is_line
  have hnumbered : ∀ (first : Nat) (ls : List (List Char)), (∀ line ∈ ls, Text.IsLine line) →
      (numbered first ls).map (renumber fun _ => 0) = ls.map unnumbered := by
    intro first ls hls
    induction ls generalizing first with
    | nil => rfl
    | cons l ls ih =>
      obtain ⟨hl, hls⟩ := List.forall_mem_cons.mp hls
      rw [numbered_cons, List.map_cons, List.map_cons, ih _ hls, hl.1]
      rfl
  rw [ofAsset_eq, ← counting_renumber, written, String.toList_ofList,
    Text.lines_unlines fun line h => (hline line h).2, hnumbered 1 _ hline,
    counting_boardLines hboards]

end Line

end Adventure.Markup
