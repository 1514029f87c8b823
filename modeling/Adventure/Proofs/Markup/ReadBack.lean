import Adventure.Proofs.Markup.Boundary
import Adventure.Proofs.Markup.OptionLine

/-!
The lines of storyboards that are written, read back as items: every panel gives its properties and
one item (`Item.readAll_panelLines`), and every storyboard is a section of its own
(`Section.ofLines_boardLines`).

A panel ends where the next one starts, which a reader of options finds out by looking ahead. It sees
an option behind a panel only where a branch without properties follows, and then only a panel that
is no branch stands in front (`Panel.MayFollow`). Numbers do not matter here: every line is numbered
zero.
-/

namespace Adventure.Markup

/-- A line without a number of its own. -/
def Line.unnumbered (text : List Char) : Line := ⟨0, text⟩

/-- What the guard of an option is read as. -/
def Bracket.ofGuard : Option String → Bracket
  | none => absent
  | some g => guard ⟨0, g⟩

/-- What the body of a panel is read as. -/
def Item.ofBody (layout : Layout) : PanelBody → Item
  | .narration text effect =>
    narration ((textLines '|' text).map Line.unnumbered)
      ((effectLines layout effect).map Line.unnumbered)
  | .decision prompt options =>
    decision ((textLines '?' prompt).map Line.unnumbered)
      (options.map fun o => ⟨Bracket.ofGuard o.guard, Line.unnumbered (decisionLine o)⟩)
  | .branch options =>
    branch (options.map fun o => ⟨Bracket.ofGuard o.guard, Line.unnumbered (branchLine o)⟩)

/-- What a panel is read as. -/
def Item.ofPanel (layout : Layout) (p : Panel) : List Item :=
  p.properties.entries.map (fun e => panelProperty (Line.unnumbered (propertyLine e))) ++
    [ofBody layout p.body]

/-- What a storyboard is read as. -/
def Item.ofBoard (layout : Layout) (b : Storyboard) : List Item :=
  b.properties.entries.map (fun e => boardProperty (Line.unnumbered ('^' :: propertyLine e))) ++
    b.panels.flatMap (ofPanel layout)

/-- A row of blank lines. -/
def blanks (n : Nat) : List Line := (List.replicate n []).map Line.unnumbered

variable {layout : Layout} {s : Settings}

/-! ### Blank lines -/

theorem isBlank_of_mem_blanks {n : Nat} {l : Line} (h : l ∈ blanks n) : l.isBlank = true := by
  obtain ⟨text, htext, rfl⟩ := List.mem_map.mp h
  rw [List.eq_of_mem_replicate htext]
  rfl

theorem not_startsWith_of_isBlank {l : Line} (h : l.isBlank = true) (c : Char) :
    l.startsWith c = false := by
  rw [Line.startsWith, List.isEmpty_iff.mp h]
  rfl

theorem skipBlank_blanks (n : Nat) (rest : List Line) :
    Line.skipBlank (blanks n ++ rest) = Line.skipBlank rest :=
  List.dropWhile_append_of_pos fun _ => isBlank_of_mem_blanks

/-- Blank lines make no item. -/
theorem Item.readAll_skipBlank (lines : List Line) :
    readAll (Line.skipBlank lines) = readAll lines := by
  induction lines with
  | nil => rfl
  | cons l lines ih =>
    cases hl : l.isBlank with
    | false => rw [Line.skipBlank_of_not_isBlank hl]
    | true =>
      have htext : l.text = [] := List.isEmpty_iff.mp hl
      have hkind : l.kind = .blank := by rw [Line.kind, htext]
      have hstart : l.isBoardStart = false := by rw [Line.isBoardStart, hkind]; rfl
      have hread : read l lines = (none, lines) := by rw [read, hkind]
      rw [Line.skipBlank_of_isBlank hl, ih, readAll_of_not_isBoardStart hstart, hread]
      rfl

/-- Blank lines are passed over when looking ahead. -/
theorem upcomingShape_skipBlank (lines : List Line) :
    upcomingShape (Line.skipBlank lines) = upcomingShape lines := by
  rw [upcomingShape, upcomingShape, Line.skipBlank_skipBlank]

theorem Item.readAll_blanks (n : Nat) (rest : List Line) :
    readAll (blanks n ++ rest) = readAll rest := by
  rw [← readAll_skipBlank, skipBlank_blanks, readAll_skipBlank]

theorem upcomingShape_blanks (n : Nat) (rest : List Line) :
    upcomingShape (blanks n ++ rest) = upcomingShape rest := by
  rw [← upcomingShape_skipBlank, skipBlank_blanks, upcomingShape_skipBlank]

/-! ### Options -/

/-- A guard and the option line below it are read, and seen ahead, as they are written. -/
theorem Bracket.read_guardedLines {guard : Option String} (hguard : ∀ g ∈ guard, IsGuard g)
    (line : List Char) (rest : List Line) :
    let lines := (guardedLines guard ('-' :: line)).map Line.unnumbered ++ rest
    read lines = (ofGuard guard, Line.unnumbered ('-' :: line) :: rest) ∧
      upcomingShape lines = some (.ofLine (Line.unnumbered ('-' :: line))) := by
  intro lines
  have hoption : Line.skipBlank (Line.unnumbered ('-' :: line) :: rest) =
      Line.unnumbered ('-' :: line) :: rest := Line.skipBlank_of_not_isBlank rfl rest
  cases guard with
  | none =>
    have hlines : lines = Line.unnumbered ('-' :: line) :: rest := rfl
    rw [hlines, read, upcomingShape, hoption]
    exact ⟨rfl, rfl⟩
  | some g =>
    obtain ⟨⟨htrim, -⟩, hne, -⟩ := hguard g rfl
    let above := Line.unnumbered ('[' :: (g.toList ++ [']']))
    have hlines : lines = above :: Line.unnumbered ('-' :: line) :: rest := rfl
    have habove : Line.skipBlank (above :: Line.unnumbered ('-' :: line) :: rest) =
        above :: Line.unnumbered ('-' :: line) :: rest := Line.skipBlank_of_not_isBlank rfl _
    have hopens : above.opensBracket = true := rfl
    have hstart : above.isBoardStart = false := rfl
    have hcloses : above.closesBracket = true := by
      simp [above, Line.unnumbered, Line.closesBracket, List.getLast?_cons]
    have hinner : inner [above] = g.toList := by
      simp [inner, above, Line.unnumbered, htrim]
    rw [hlines, read, upcomingShape, habove]
    simp only [hopens, if_true, take, hstart, hcloses, Bool.false_eq_true, if_false, hinner, hne,
      behindBracket?, Option.map_some, hoption, String.ofList_toList]
    exact ⟨rfl, rfl⟩

/-- Options that are written are taken one after another. -/
theorem Item.takeEntries_written {α : Type} (accepts : OptionShape → Bool) {options : List α}
    (guard : α → Option String) (line : α → List Char)
    (hguard : ∀ o ∈ options, ∀ g ∈ guard o, IsGuard g)
    (hline : ∀ o ∈ options, ∃ cs, line o = '-' :: cs)
    (haccepts : ∀ o ∈ options, accepts (.ofLine (Line.unnumbered (line o))) = true)
    (rest : List Line) :
    takeEntries accepts
        ((options.flatMap fun o => guardedLines (guard o) (line o)).map Line.unnumbered ++ rest) =
      (options.map (fun o => ⟨Bracket.ofGuard (guard o), Line.unnumbered (line o)⟩) ++
        (takeEntries accepts rest).1, (takeEntries accepts rest).2) := by
  induction options with
  | nil => rfl
  | cons o options ih =>
    obtain ⟨hguard, hguards⟩ := List.forall_mem_cons.mp hguard
    obtain ⟨⟨cs, hcs⟩, hlines⟩ := List.forall_mem_cons.mp hline
    obtain ⟨haccept, haccepts⟩ := List.forall_mem_cons.mp haccepts
    rw [List.flatMap_cons, List.map_append, List.append_assoc]
    let more :=
      (options.flatMap fun o => guardedLines (guard o) (line o)).map Line.unnumbered ++ rest
    obtain ⟨hread, hshape⟩ := Bracket.read_guardedLines hguard cs more
    rw [← hcs] at hread hshape
    have hnext : Line.skipBlank (Bracket.read
        ((guardedLines (guard o) (line o)).map Line.unnumbered ++ more)).2 =
          Line.unnumbered (line o) :: more := by
      rw [hread]
      exact Line.skipBlank_of_not_isBlank (by rw [hcs]; rfl) more
    rw [takeEntries_of_accepts hnext hshape haccept, hread, ih hguards hlines haccepts]
    rfl

/-! ### Panels -/

namespace Item

/-- Lines that are items of their own. -/
theorem readAll_alone {α : Type} {f : α → Line} {g : α → Item}
    (hstart : ∀ x, (f x).isBoardStart = false)
    (hread : ∀ x rest, read (f x) rest = (some (g x), rest)) (xs : List α) (rest : List Line) :
    readAll (xs.map f ++ rest) = (xs.map g ++ (readAll rest).1, (readAll rest).2) := by
  induction xs with
  | nil => rfl
  | cons x xs ih =>
    rw [List.map_cons, List.cons_append, readAll_of_not_isBoardStart (hstart x), hread, ih]
    rfl

theorem exists_textLines (mark : Char) (text : String) :
    ∃ first more, textLines mark text = (mark :: first) :: more ∧
      (more.map Line.unnumbered).all (Line.startsWith mark) = true := by
  obtain ⟨first, more, hsplit⟩ :=
    List.exists_cons_of_ne_nil (List.splitOn_ne_nil '\n' text.toList)
  refine ⟨first, more.map (mark :: ·), by rw [textLines, hsplit, List.map_cons], ?_⟩
  rw [List.all_eq_true]
  intro l hl
  obtain ⟨line, hline, rfl⟩ := List.mem_map.mp hl
  obtain ⟨piece, -, rfl⟩ := List.mem_map.mp hline
  exact decide_eq_true rfl

/-- Whether what stands behind a panel is not taken for a part of it: neither for an effect, nor for
an option, nor for a further line of narration. -/
structure Follows (layout : Layout) (p : Panel) (rest : List Line) : Prop where
  no_effect : ∀ l more, Line.skipBlank rest = l :: more → l.startsWith ':' = false
  no_option : ∀ shape, upcomingShape rest = some shape → shape = .branch ∧ p.kind ≠ .branch
  apart : (∀ l ∈ rest.head?, l.startsWith '|' = false) ∨ layout.bareEffects = true

variable {rest : List Line}

/-- Behind the effect line of a narration, if it has one, no further one is taken. -/
theorem takeEffects_written (e : Effect)
    (h : ∀ l more, Line.skipBlank rest = l :: more → l.startsWith ':' = false) :
    takeEffects ((effectLines layout e).map Line.unnumbered ++ rest) =
      ((effectLines layout e).map Line.unnumbered, Line.skipBlank rest) := by
  have hstop : takeEffects rest = ([], Line.skipBlank rest) := by
    cases hrest : Line.skipBlank rest with
    | nil => exact takeEffects_of_nil hrest
    | cons l more => exact takeEffects_of_other hrest (h l more hrest)
  rw [effectLines]
  split
  · exact hstop
  · rw [List.map_singleton, List.singleton_append,
      takeEffects_of_effect (Line.skipBlank_of_not_isBlank rfl _) rfl, hstop]

theorem readAll_narration (text : String) (e : Effect)
    (heffect : ∀ l more, Line.skipBlank rest = l :: more → l.startsWith ':' = false)
    (hapart : (∀ l ∈ rest.head?, l.startsWith '|' = false) ∨ layout.bareEffects = true) :
    readAll ((bodyLines layout (.narration text e)).map Line.unnumbered ++ rest) =
      (ofBody layout (.narration text e) :: (readAll rest).1, (readAll rest).2) := by
  obtain ⟨first, more, hlines, hmore⟩ := exists_textLines '|' text
  -- The lines of a narration end at its effect line, or else where it is kept apart.
  have hend : ∀ l ∈ ((effectLines layout e).map Line.unnumbered ++ rest).head?,
      l.startsWith '|' = false := by
    intro l hl
    rw [effectLines] at hl
    split at hl
    · rename_i hbare
      rcases hapart with hapart | hall
      · exact hapart l hl
      · rw [hall, Bool.not_true, Bool.and_false] at hbare
        cases hbare
    · cases hl
      rfl
  rw [bodyLines, ofBody, hlines, List.map_append, List.append_assoc, List.map_cons, List.cons_append,
    readAll_of_not_isBoardStart rfl]
  have hkind : (Line.unnumbered ('|' :: first)).kind = .narration := rfl
  rw [read, hkind]
  simp only
  rw [Text.takeWhile_run hmore hend, Text.dropWhile_run hmore hend, takeEffects_written e heffect,
    readAll_skipBlank]
  rfl

/-- A guard or an option stands first where an option is written. -/
theorem head_guardedLines (guard : Option String) {line cs : List Char} (hline : line = '-' :: cs) :
    ∃ mark cs more, guardedLines guard line = (mark :: cs) :: more ∧ (mark = '[' ∨ mark = '-') := by
  rw [hline]
  cases guard with
  | none => exact ⟨'-', cs, [], rfl, Or.inr rfl⟩
  | some g => exact ⟨'[', g.toList ++ [']'], ['-' :: cs], rfl, Or.inl rfl⟩

theorem readAll_decision {prompt : String} {options : List DecisionOption}
    (hne : options ≠ []) (hoptions : ∀ o ∈ options, o.WellFormed)
    (h : ∀ shape, upcomingShape rest = some shape → shape = .branch) :
    readAll ((bodyLines layout (.decision prompt options)).map Line.unnumbered ++ rest) =
      (ofBody layout (.decision prompt options) :: (readAll rest).1, (readAll rest).2) := by
  obtain ⟨first, more, hlines, hmore⟩ := exists_textLines '?' prompt
  have hentries := takeEntries_written decisionAccepts DecisionOption.guard decisionLine
    (fun o ho => (hoptions o ho).guard) (fun o ho => ⟨_, rfl⟩)
    (fun o ho => by rw [Line.unnumbered, OptionShape.ofLine_decisionLine (hoptions o ho)]; rfl) rest
  have hstop : takeEntries decisionAccepts rest = ([], rest) := by
    apply takeEntries_of_not_accepts
    intro shape hshape
    rw [h shape hshape]
    rfl
  rw [hstop, List.append_nil] at hentries
  -- The lines of a prompt end where the first option stands.
  have hend : ∀ l ∈ ((options.flatMap fun o => guardedLines o.guard (decisionLine o)).map
      Line.unnumbered ++ rest).head?, l.startsWith '?' = false := by
    obtain ⟨o, others, rfl⟩ := List.exists_cons_of_ne_nil hne
    obtain ⟨mark, cs, more, hguarded, hmark⟩ :=
      head_guardedLines o.guard (show decisionLine o = '-' :: _ from rfl)
    rw [List.flatMap_cons, hguarded]
    intro l hl
    cases hl
    rcases hmark with rfl | rfl
    · rfl
    · rfl
  rw [bodyLines, ofBody, hlines, List.map_append, List.append_assoc, List.map_cons, List.cons_append,
    readAll_of_not_isBoardStart rfl]
  have hkind : (Line.unnumbered ('?' :: first)).kind = .prompt := rfl
  rw [read, hkind]
  simp only
  rw [Text.takeWhile_run hmore hend, Text.dropWhile_run hmore hend, hentries]
  rfl

theorem readAll_branch {options : List BranchOption} (hne : options ≠ [])
    (hoptions : ∀ o ∈ options, o.WellFormed) (h : upcomingShape rest = none) :
    readAll ((bodyLines layout (.branch options)).map Line.unnumbered ++ rest) =
      (ofBody layout (.branch options) :: (readAll rest).1, (readAll rest).2) := by
  have hentries := takeEntries_written branchAccepts BranchOption.guard branchLine
    (fun o ho => (hoptions o ho).guard) (fun o ho => ⟨_, rfl⟩)
    (fun o ho => by rw [Line.unnumbered, OptionShape.ofLine_branchLine (hoptions o ho)]; rfl) rest
  have hstop : takeEntries branchAccepts rest = ([], rest) := by
    apply takeEntries_of_not_accepts
    intro shape hshape
    rw [h] at hshape
    cases hshape
  rw [hstop, List.append_nil] at hentries
  obtain ⟨o, others, rfl⟩ := List.exists_cons_of_ne_nil hne
  have husable : (takeEntries branchAccepts (((o :: others).flatMap fun o =>
      guardedLines o.guard (branchLine o)).map Line.unnumbered ++ rest)).1.any
        Entry.isBranchOption = true := by
    rw [hentries, List.map_cons, List.any_cons, Bool.or_eq_true]
    exact Or.inl (Entry.isBranchOption_written (hoptions o List.mem_cons_self) _ _)
  have hread := readBranch_of_usable husable
  rw [hentries] at hread
  obtain ⟨mark, cs, more, hguarded, hmark⟩ :=
    head_guardedLines o.guard (show branchLine o = '-' :: _ from rfl)
  rw [bodyLines, List.flatMap_cons, hguarded, List.cons_append, List.map_cons, List.cons_append]
  rw [List.flatMap_cons, hguarded, List.cons_append, List.map_cons, List.cons_append] at hread
  have hkind : (Line.unnumbered (mark :: cs)).kind = .option := by
    rcases hmark with rfl | rfl
    · rfl
    · rfl
  rw [readAll_of_not_isBoardStart (by rw [Line.isBoardStart, hkind]; rfl), read, hkind]
  simp only
  rw [hread]
  rfl

/-- **A panel that is written is read back.** -/
theorem readAll_panelLines {p : Panel} (hp : p.WellFormed s) (h : Follows layout p rest) :
    readAll ((panelLines layout p).map Line.unnumbered ++ rest) =
      (ofPanel layout p ++ (readAll rest).1, (readAll rest).2) := by
  obtain ⟨properties, body⟩ := p
  have hbody : readAll ((bodyLines layout body).map Line.unnumbered ++ rest) =
      (ofBody layout body :: (readAll rest).1, (readAll rest).2) := by
    cases body with
    | narration text effect => exact readAll_narration text effect h.no_effect h.apart
    | decision prompt options =>
      obtain ⟨-, hne, hoptions⟩ := hp.body
      exact readAll_decision hne hoptions fun shape hshape => (h.no_option shape hshape).1
    | branch options =>
      obtain ⟨hne, hoptions⟩ := hp.body
      apply readAll_branch hne hoptions
      cases hshape : upcomingShape rest with
      | none => rfl
      | some shape => exact absurd rfl (h.no_option shape hshape).2
  have hproperties := readAll_alone (f := fun e => Line.unnumbered (propertyLine e))
    (g := fun e => panelProperty (Line.unnumbered (propertyLine e))) (fun _ => rfl)
    (fun _ _ => rfl) properties.entries
  rw [panelLines, List.map_append, List.map_map, List.append_assoc]
  rw [Function.comp_def, hproperties, hbody, ofPanel, List.append_assoc]
  rfl

/-! ### Storyboards -/

/-- The first line of a panel is of a kind that only some panels start with. -/
theorem head_panelLines (layout : Layout) {p : Panel} (hp : p.WellFormed s) :
    ∃ mark cs more, panelLines layout p = (mark :: cs) :: more ∧
      (mark ∈ ['&', '|', '?'] ∨
        p.properties.entries = [] ∧ p.kind = .branch ∧ (mark = '[' ∨ mark = '-')) := by
  obtain ⟨properties, body⟩ := p
  rw [panelLines]
  cases hentries : properties.entries with
  | cons e es => exact ⟨'&', _, _, rfl, Or.inl (by decide)⟩
  | nil =>
    cases body with
    | narration text effect =>
      obtain ⟨first, more, hlines, -⟩ := exists_textLines '|' text
      exact ⟨'|', first, _, by rw [bodyLines, hlines]; rfl, Or.inl (by decide)⟩
    | decision prompt options =>
      obtain ⟨first, more, hlines, -⟩ := exists_textLines '?' prompt
      exact ⟨'?', first, _, by rw [bodyLines, hlines]; rfl, Or.inl (by decide)⟩
    | branch options =>
      obtain ⟨o, others, rfl⟩ := List.exists_cons_of_ne_nil hp.body.1
      obtain ⟨mark, cs, more, hguarded, hmark⟩ :=
        head_guardedLines o.guard (show branchLine o = '-' :: _ from rfl)
      exact ⟨mark, cs, _, by rw [bodyLines, List.flatMap_cons, hguarded]; rfl,
        Or.inr ⟨rfl, rfl, hmark⟩⟩

/-- An option that is seen ahead of a panel is one of a branch without properties. -/
theorem upcomingShape_panelLines {p : Panel} (hp : p.WellFormed s) (rest : List Line)
    {shape : OptionShape}
    (h : upcomingShape ((panelLines layout p).map Line.unnumbered ++ rest) = some shape) :
    shape = .branch ∧ p.kind = .branch ∧ p.properties.entries = [] := by
  obtain ⟨mark, cs, more, hlines, hmark⟩ := head_panelLines layout hp
  rcases hmark with hmark | ⟨hentries, hkind, -⟩
  · -- A line with another mark in front is neither a guard nor an option.
    rw [hlines, List.map_cons, List.cons_append, upcomingShape,
      Line.skipBlank_of_not_isBlank rfl] at h
    simp only [List.mem_cons, List.not_mem_nil, or_false] at hmark
    rcases hmark with rfl | rfl | rfl
    · cases h
    · cases h
    · cases h
  · obtain ⟨properties, body⟩ := p
    cases body with
    | branch options =>
      obtain ⟨hne, hoptions⟩ := hp.body
      obtain ⟨o, others, rfl⟩ := List.exists_cons_of_ne_nil hne
      have ho := hoptions o List.mem_cons_self
      simp only at hentries
      rw [panelLines, hentries, bodyLines, List.flatMap_cons, List.map_nil, List.nil_append,
        List.map_append, List.append_assoc] at h
      obtain ⟨-, hshape⟩ := Bracket.read_guardedLines ho.guard _ _
      rw [branchLine, hshape] at h
      cases h
      exact ⟨OptionShape.ofLine_branchLine ho 0, rfl, hentries⟩
    | _ => cases hkind

/-- Further panels are not taken for a part of a panel that they may follow. -/
theorem follows_panels (hlayout : layout.Separates) {p : Panel} {ps : List Panel}
    (hps : ∀ q ∈ ps, q.WellFormed s) (hparted : (p :: ps).IsChain Panel.MayFollow) :
    Follows layout p (blanks (layout.gap ps) ++ (panelsLines layout ps).map Line.unnumbered) := by
  cases ps with
  | nil =>
    rw [panelsLines, List.map_nil, List.append_nil]
    constructor
    · intro l more hl
      rw [← List.append_nil (blanks _), skipBlank_blanks] at hl
      cases hl
    · intro shape hshape
      rw [← List.append_nil (blanks _), upcomingShape_blanks] at hshape
      cases hshape
    · left
      intro l hl
      exact not_startsWith_of_isBlank (isBlank_of_mem_blanks (List.mem_of_mem_head? hl)) _
  | cons q qs =>
    have hq := hps q List.mem_cons_self
    obtain ⟨hfollow, -⟩ := List.isChain_cons_cons.mp hparted
    rw [panelsLines, List.map_append]
    constructor
    · obtain ⟨mark, cs, more, hlines, hmark⟩ := head_panelLines layout hq
      intro l rest hl
      rw [skipBlank_blanks, hlines, List.map_cons, List.cons_append,
        Line.skipBlank_of_not_isBlank rfl] at hl
      cases hl
      rcases hmark with hmark | ⟨-, -, rfl | rfl⟩
      · apply decide_eq_false
        rintro ⟨⟩
        exact absurd hmark (by decide)
      · rfl
      · rfl
    · intro shape hshape
      rw [upcomingShape_blanks] at hshape
      obtain ⟨hbranch, hkind, hentries⟩ := upcomingShape_panelLines hq _ hshape
      exact ⟨hbranch, fun hp => hfollow hp hkind hentries⟩
    · refine hlayout.imp_left fun hgap => ?_
      obtain ⟨n, hn⟩ := Nat.exists_eq_add_one_of_ne_zero (Nat.pos_iff_ne_zero.mp (hgap q qs))
      rw [blanks, hn, List.replicate_succ]
      intro l hl
      cases hl
      rfl

/-- **The panels of a storyboard are read back, one after another.** -/
theorem readAll_panels (hlayout : layout.Separates) {panels : List Panel}
    (hpanels : ∀ p ∈ panels, p.WellFormed s) (hparted : panels.IsChain Panel.MayFollow) :
    readAll ((panelsLines layout panels).map Line.unnumbered) =
      (panels.flatMap (ofPanel layout), []) := by
  induction panels with
  | nil => exact readAll.eq_1
  | cons p ps ih =>
    obtain ⟨hp, hps⟩ := List.forall_mem_cons.mp hpanels
    rw [panelsLines, List.map_append, List.map_append]
    have hread := readAll_panelLines hp (follows_panels hlayout hps hparted)
    rw [readAll_blanks, ih hps hparted.tail] at hread
    exact hread

theorem readAll_boardLines (hlayout : layout.Separates) {b : Storyboard} (hb : b.WellFormed s) :
    readAll (((boardLines layout b).tail).map Line.unnumbered) = (ofBoard layout b, []) := by
  have hproperties := readAll_alone (f := fun e => Line.unnumbered ('^' :: propertyLine e))
    (g := fun e => boardProperty (Line.unnumbered ('^' :: propertyLine e))) (fun _ => rfl)
    (fun _ _ => rfl) b.properties.entries
  have hlines : ((boardLines layout b).tail).map Line.unnumbered =
      b.properties.entries.map (fun e => Line.unnumbered ('^' :: propertyLine e)) ++
        (panelsLines layout b.panels).map Line.unnumbered := by
    simp [boardLines, headLines]
  rw [hlines, hproperties, readAll_panels hlayout hb.panels hb.parted]
  rfl

end Item

/-- The line that starts a storyboard. -/
def Line.starting (b : Storyboard) : Line := unnumbered ('>' :: '>' :: b.id.toList)

theorem map_boardLines (b : Storyboard) :
    (boardLines layout b).map Line.unnumbered =
      Line.starting b :: (boardLines layout b).tail.map Line.unnumbered := rfl

/-- **Every storyboard that is written is read as a part of its own.** -/
theorem Section.ofLines_boardLines (hlayout : layout.Separates) {boards : List Storyboard}
    (hboards : ∀ b ∈ boards, b.WellFormed s) :
    ofLines ((boards.flatMap (boardLines layout)).map Line.unnumbered) =
      boards.map fun b => board (Line.starting b) (Item.ofBoard layout b) := by
  have hstart : ∀ b, (Line.starting b).isBoardStart = true := fun _ => rfl
  have hone : ∀ b ∈ boards, ofLines ((boardLines layout b).map Line.unnumbered) =
      [board (Line.starting b) (Item.ofBoard layout b)] := by
    intro b hb
    rw [map_boardLines, ofLines, if_pos (hstart b), Item.readAll_boardLines hlayout (hboards b hb),
      ofLines]
  induction boards with
  | nil => exact ofLines.eq_1
  | cons b bs ih =>
    obtain ⟨hb, hbs⟩ := List.forall_mem_cons.mp hone
    have hmore := ih (fun b' hb' => hboards b' (List.mem_cons_of_mem b hb')) hbs
    rw [List.flatMap_cons, List.map_append, List.map_cons, ← hmore]
    cases bs with
    | nil => rw [List.flatMap_nil, List.map_nil, List.append_nil, hb, ofLines]
    | cons b' bs =>
      rw [List.flatMap_cons, List.map_append, map_boardLines b', List.cons_append,
        ofLines_append (hstart b'), hb, List.singleton_append]

end Adventure.Markup
