import Adventure.Proofs.Markup.Kept

/-!
What settings can do: cut texts short, and say more or less about it. An asset has drafts of its
storyboards, with all lines of narrations and prompts, and a report has these drafts, cut as the
settings say (`panelsOf_eq`). What is told besides depends on the settings only for lines beyond a
limit (`Section.told_faults`) and for guards, which are checked all or not at all
(`Section.guardFaults_faults`).
-/

namespace Adventure.Markup

/-! ### Drafts -/

/-- The body of a panel before its text is cut short: with all its lines. -/
inductive BodyDraft where
  | narration (lines : List String) (effect : Effect)
  | decision (prompt : List String) (options : List DecisionOption)
  | branch (options : List BranchOption)

/-- The first lines of a narration or a prompt, as many as the settings allow. -/
def BodyDraft.cut (s : Settings) : BodyDraft → PanelBody
  | narration lines effect => .narration (Text.join "\n" (lines.take s.maxNarrationLines)) effect
  | decision prompt options => .decision (Text.join "\n" (prompt.take s.maxPromptLines)) options
  | branch options => .branch options

/-- A panel before its text is cut short. -/
structure PanelDraft where
  properties : Keyed String
  body : BodyDraft

/-- The panel with its text cut short. -/
def PanelDraft.cut (s : Settings) (p : PanelDraft) : Panel := ⟨p.properties, p.body.cut s⟩

/-- A storyboard before its texts are cut short. -/
structure StoryboardDraft where
  id : String
  properties : Keyed String
  panels : List PanelDraft

/-- The storyboard with its texts cut short. -/
def StoryboardDraft.cut (s : Settings) (b : StoryboardDraft) : Storyboard :=
  ⟨b.id, b.properties, b.panels.map (PanelDraft.cut s)⟩

/-- The draft of the panel that an item is, if it is one. -/
def Item.draft? (asset : String) : Item → Option BodyDraft
  | narration lines effects =>
    some (.narration (lines.map Line.content) (Effect.ofLine (effectText effects)).1)
  | decision prompt entries =>
    some (.decision (prompt.map Line.content) (entries.filterMap (Entry.decisionOption? asset)))
  | branch entries => some (.branch (entries.filterMap (Entry.branchOption? asset)))
  | _ => none

/-- The drafts of the panels of some items, and the properties that still wait at the end. -/
def panelDrafts (asset : String) (waiting : Waiting) : List Item → List PanelDraft × Waiting
  | [] => ([], waiting)
  | .panelProperty l :: rest => panelDrafts asset (waiting.add l) rest
  | item :: rest =>
    match item.draft? asset with
    | some body =>
      let (panels, left) := panelDrafts asset {} rest
      (⟨waiting.properties, body⟩ :: panels, left)
    | none => panelDrafts asset waiting rest

/-- The draft of the storyboard that some items make up. -/
def boardDraft (asset name : String) (items : List Item) : StoryboardDraft :=
  { id := name
    properties := boardProperties items
    panels := (panelDrafts asset {} items).1 }

/-- The drafts of the storyboards of an asset, by their names. -/
def draftsOf (asset text : String) : List (String × StoryboardDraft) :=
  (Section.kept asset [] (Section.ofLines (Line.ofAsset text))).map fun b =>
    (boardName asset b.1, boardDraft asset (boardName asset b.1) b.2)

theorem Item.body?_eq (s : Settings) (asset : String) (item : Item) :
    item.body? s asset = (item.draft? asset).map (BodyDraft.cut s) := by
  cases item with
  | narration lines effects =>
    rw [body?, draft?, Option.map_some, BodyDraft.cut, textUpTo, List.map_take]
  | decision prompt entries =>
    rw [body?, draft?, Option.map_some, BodyDraft.cut, textUpTo, List.map_take]
  | _ => rfl

/-- **Panels are cut drafts.** What waits at the end is the same under all settings. -/
theorem panelsOf_eq (s : Settings) (asset : String) (waiting : Waiting) (items : List Item) :
    panelsOf s asset waiting items =
      ((panelDrafts asset waiting items).1.map (PanelDraft.cut s),
        (panelDrafts asset waiting items).2) := by
  fun_induction panelDrafts asset waiting items with
  | case1 waiting => rfl
  | case2 waiting l rest ih => exact ih
  | case3 waiting item rest hprop body hbody panels left hrest ih =>
    rw [hrest] at ih
    rw [panelsOf, Item.body?_eq, hbody, Option.map_some, ih]
    · rfl
    · exact hprop
  | case4 waiting item rest hprop hbody ih =>
    rw [panelsOf, Item.body?_eq, hbody, Option.map_none, ih]
    exact hprop

theorem boardOf_eq (s : Settings) (asset name : String) (items : List Item) :
    boardOf s asset name items = (boardDraft asset name items).cut s := by
  rw [boardOf, panelsOf_eq]
  rfl

/-! ### Faults -/

/-- Whether settings decide that there is such a fault. -/
def Fault.hangsOnSettings : Fault → Bool
  | tooManyNarrationLines _ => true
  | tooManyPromptLines _ => true
  | invalidCondition _ _ => true
  | _ => false

/-- Whether the fault is that of a guard that cannot be parsed. -/
def Fault.isInvalidCondition : Fault → Bool
  | invalidCondition _ _ => true
  | _ => false

/-- The faults that no settings decide about. -/
def told (faults : List (List Nat × Fault)) : List (List Nat × Fault) :=
  faults.filter fun f => !f.2.hangsOnSettings

/-- The faults of guards that cannot be parsed. -/
def guardFaults (faults : List (List Nat × Fault)) : List (List Nat × Fault) :=
  faults.filter fun f => f.2.isInvalidCondition

@[simp] theorem told_append (xs ys : List (List Nat × Fault)) :
    told (xs ++ ys) = told xs ++ told ys := List.filter_append _ _

@[simp] theorem guardFaults_append (xs ys : List (List Nat × Fault)) :
    guardFaults (xs ++ ys) = guardFaults xs ++ guardFaults ys := List.filter_append _ _

theorem told_flatMap {α : Type} (f : α → List (List Nat × Fault)) (xs : List α) :
    told (xs.flatMap f) = xs.flatMap fun x => told (f x) := List.filter_flatMap

theorem guardFaults_flatMap {α : Type} (f : α → List (List Nat × Fault)) (xs : List α) :
    guardFaults (xs.flatMap f) = xs.flatMap fun x => guardFaults (f x) := List.filter_flatMap

/-- Whether lines are beyond a limit is for the settings to say. -/
theorem told_overflow {fault : Fault} (h : fault.hangsOnSettings = true) (limit : Nat)
    (lines : List Line) : told (Item.overflow limit fault lines) = [] := by
  rw [told, List.filter_eq_nil_iff]
  intro f hf
  obtain ⟨l, -, rfl⟩ := List.mem_map.mp hf
  simp [h]

theorem guardFaults_overflow {fault : Fault} (h : fault.isInvalidCondition = false) (limit : Nat)
    (lines : List Line) : guardFaults (Item.overflow limit fault lines) = [] := by
  rw [guardFaults, List.filter_eq_nil_iff]
  intro f hf
  obtain ⟨l, -, rfl⟩ := List.mem_map.mp hf
  simp [h]

theorem guardFaults_propertyFaults (l : Line) : guardFaults (Item.propertyFaults l) = [] := by
  rw [Item.propertyFaults]
  split <;> rfl

theorem guardFaults_ofIssue (lines : List Nat) (issues : List Effect.Issue) :
    guardFaults (issues.map fun i => (lines, Fault.ofIssue i)) = [] := by
  rw [guardFaults, List.filter_eq_nil_iff]
  intro f hf
  obtain ⟨i, -, rfl⟩ := List.mem_map.mp hf
  cases i <;> simp [Fault.ofIssue, Fault.isInvalidCondition]

/-! ### Guards -/

/-- What is wrong with the guard of a bracket, if it cannot be parsed. -/
def Bracket.broken : Bracket → List (List Nat × Fault)
  | guard g =>
    match Condition.parse g.text with
    | .ok _ => []
    | .error e => [([g.line], .invalidCondition g.text e)]
  | _ => []

/-- Settings have a guard checked or not. -/
theorem Bracket.guardFaults_faults (s : Settings) (b : Bracket) :
    guardFaults (b.faults s) = if s.validateConditions then b.broken else [] := by
  cases b with
  | guard g =>
    rw [faults, broken]
    cases Condition.parse g.text with
    | ok t => split <;> rfl
    | error e => split <;> rfl
  | _ => simp [faults, broken, guardFaults, Fault.isInvalidCondition]

/-- Apart from that they have no say about a bracket. -/
theorem Bracket.told_faults (s t : Settings) (b : Bracket) :
    told (b.faults s) = told (b.faults t) := by
  cases b with
  | guard g =>
    have hnone : ∀ s : Settings, told ((guard g).faults s) = [] := by
      intro s
      rw [faults]
      split
      · split <;> rfl
      · rfl
    rw [hnone s, hnone t]
  | _ => rfl

/-- The brackets that are read with an item. -/
def Item.brackets : Item → List Bracket
  | decision _ entries => entries.map Entry.bracket
  | branch entries => entries.map Entry.bracket
  | refused entries leftover => entries.map Entry.bracket ++ [leftover.bracket]
  | _ => []

/-! ### Items -/

namespace Item

variable (s t : Settings) (asset : String)

theorem told_decisionFaults (e : Entry) :
    told (decisionFaults s asset e) = told (decisionFaults t asset e) := by
  rw [decisionFaults, decisionFaults, told_append, told_append, Bracket.told_faults s t]

theorem told_branchFaults (e : Entry) :
    told (branchFaults s asset e) = told (branchFaults t asset e) := by
  rw [branchFaults, branchFaults, told_append, told_append, Bracket.told_faults s t]

/-- **Settings decide only about lines beyond a limit and about guards.** -/
theorem told_faults (item : Item) : told (item.faults s asset) = told (item.faults t asset) := by
  cases item with
  | narration lines effects =>
    rw [faults, faults, told_append, told_append, told_overflow rfl, told_overflow rfl]
  | decision prompt entries =>
    have hprompt : ∀ limit, told (overflow limit (.tooManyPromptLines limit) prompt) = [] :=
      fun limit => told_overflow rfl limit prompt
    simp only [faults, told_append, told_flatMap, told_decisionFaults s t, hprompt]
  | branch entries => simp [faults, told_flatMap, told_branchFaults s t]
  | refused entries leftover =>
    simp [faults, Leftover.faults, told_flatMap, told_branchFaults s t, Bracket.told_faults s t]
  | _ => rfl

theorem guardFaults_decisionFaults (e : Entry) :
    guardFaults (decisionFaults s asset e) = guardFaults (e.bracket.faults s) := by
  rw [decisionFaults, guardFaults_append]
  split
  · exact List.append_nil _
  · exact List.append_nil _

theorem guardFaults_branchFaults (e : Entry) :
    guardFaults (branchFaults s asset e) = guardFaults (e.bracket.faults s) := by
  rw [branchFaults, guardFaults_append]
  split
  · exact List.append_nil _
  · exact List.append_nil _

theorem guardFaults_leftover (l : Leftover) :
    guardFaults (l.faults s asset) = guardFaults (l.bracket.faults s) := by
  obtain ⟨atFront, bracket, line⟩ := l
  rw [Leftover.faults, guardFaults_append, List.append_right_eq_self]
  cases line with
  | some line => simp only; split <;> rfl
  | none =>
    cases bracket with
    | guard g => simp only; split <;> rfl
    | _ => rfl

/-- What is told of the guards of an item are the faults of its brackets, in order. -/
theorem guardFaults_faults (item : Item) :
    guardFaults (item.faults s asset) =
      item.brackets.flatMap fun b => guardFaults (b.faults s) := by
  cases item with
  | boardProperty l => exact guardFaults_propertyFaults l
  | panelProperty l => exact guardFaults_propertyFaults l
  | narration lines effects =>
    rw [faults, guardFaults_append, guardFaults_overflow rfl, guardFaults_ofIssue]
    rfl
  | decision prompt entries =>
    have hempty : guardFaults (if (entries.filterMap (Entry.decisionOption? asset)).isEmpty then
        [((prompt.take 1).map Line.number, Fault.emptyDecision)] else []) = [] := by
      split <;> rfl
    rw [faults, guardFaults_append, guardFaults_append, guardFaults_overflow rfl, hempty,
      guardFaults_flatMap, brackets, List.flatMap_map, List.nil_append, List.append_nil]
    simp only [guardFaults_decisionFaults]
  | branch entries =>
    rw [faults, guardFaults_flatMap, brackets, List.flatMap_map]
    simp only [guardFaults_branchFaults]
  | refused entries leftover =>
    rw [faults, guardFaults_append, guardFaults_flatMap, guardFaults_leftover, brackets,
      List.flatMap_append, List.flatMap_map, List.flatMap_singleton]
    simp only [guardFaults_branchFaults]
  | other l => rfl

end Item

/-! ### Parts of an asset -/

section Sections

variable (s t : Settings) (asset : String)

theorem told_boardFaults (items : List Item) :
    told (boardFaults s asset items) = told (boardFaults t asset items) := by
  simp only [boardFaults, panelsOf_eq, told_append, told_flatMap, Item.told_faults s t]

theorem guardFaults_boardFaults (items : List Item) :
    guardFaults (boardFaults s asset items) =
      (items.flatMap Item.brackets).flatMap fun b => guardFaults (b.faults s) := by
  have hleft : ∀ left : Waiting, guardFaults
      (if left.properties.isEmpty then [] else [(left.lines, .unusedPanelProperties)]) = [] := by
    intro left
    split <;> rfl
  simp only [boardFaults, guardFaults_append, guardFaults_flatMap, Item.guardFaults_faults, hleft,
    List.append_nil, List.flatMap_assoc]

theorem Section.told_faults (used : List String) (sections : List Section) :
    told (faults s asset used sections) = told (faults t asset used sections) := by
  induction sections generalizing used with
  | nil => rfl
  | cons part rest ih =>
    cases part with
    | stray l => exact congrArg (([l.number], .outsideStoryboard l.string) :: ·) (ih used)
    | board start items =>
      rw [faults, faults]
      split
      · exact congrArg (([start.number], .duplicateStoryboard (boardName asset start)) :: ·) (ih used)
      · rw [told_append, told_append, told_boardFaults s t, ih]

/-- What is told of the guards of an asset are the faults of the brackets that are read with its
storyboards, in order. -/
theorem Section.guardFaults_faults (used : List String) (sections : List Section) :
    guardFaults (faults s asset used sections) =
      ((kept asset used sections).flatMap fun b => b.2.flatMap Item.brackets).flatMap
        fun b => guardFaults (b.faults s) := by
  fun_induction kept asset used sections with
  | case1 => rfl
  | case2 used l rest ih => exact ih
  | case3 used start items rest hused ih =>
    rw [faults, if_pos hused]
    exact ih
  | case4 used start items rest hnew ih =>
    rw [faults, if_neg hnew, guardFaults_append, ih, guardFaults_boardFaults, List.flatMap_cons,
      List.flatMap_append]

end Sections

/-- **Settings cut texts and choose warnings, and nothing else.** An asset has drafts of its
storyboards, with all the lines of their narrations and prompts, that no settings take part in. The
storyboards of a report are these drafts, each text cut to its first lines. The warnings are the same
under all settings, in the same order, but for those about lines beyond a limit and about guards that
cannot be parsed; and the latter are all told or none, as the settings have guards checked or not. -/
theorem Report.settings_cut_and_warn (asset text : String) :
    ∃ always guards : List Warning, ∀ s : Settings,
      let report := Report.ofAsset s asset text
      report.storyboards.entries = (draftsOf asset text).map (fun d => (d.1, d.2.cut s)) ∧
        report.warnings.filter (fun w => !w.fault.hangsOnSettings) = always ∧
        report.warnings.filter (fun w => w.fault.isInvalidCondition) =
          if s.validateConditions then guards else [] := by
  let sections := Section.ofLines (Line.ofAsset text)
  let brackets := (Section.kept asset [] sections).flatMap fun b => b.2.flatMap Item.brackets
  let warn := fun f : List Nat × Fault => (⟨asset, f.1, f.2⟩ : Warning)
  refine ⟨(told (Section.faults {} asset [] sections)).map warn,
    (brackets.flatMap Bracket.broken).map warn, ?_⟩
  intro s report
  obtain ⟨hentries, -⟩ := addSections_kept s asset ∅ sections
  have hwarnings : report.warnings = (Section.faults s asset [] sections).map warn :=
    congrArg (List.map warn) (addSections_faults s asset ∅ sections)
  refine ⟨?_, ?_, ?_⟩
  · simp only [boardOf_eq] at hentries
    rw [draftsOf, List.map_map]
    exact hentries
  · rw [hwarnings, List.filter_map]
    exact congrArg (List.map warn) (Section.told_faults s {} asset [] sections)
  · have hguards : guardFaults (Section.faults s asset [] sections) =
        if s.validateConditions then brackets.flatMap Bracket.broken else [] := by
      rw [Section.guardFaults_faults]
      simp only [Bracket.guardFaults_faults]
      split
      · rfl
      · exact List.flatMap_eq_nil_iff.mpr fun _ _ => rfl
    rw [hwarnings, List.filter_map]
    refine (congrArg (List.map warn) hguards).trans ?_
    split <;> rfl

end Adventure.Markup
