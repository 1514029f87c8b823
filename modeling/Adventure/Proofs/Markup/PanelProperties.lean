import Adventure.Proofs.Markup.Isolation
import Adventure.Proofs.Markup.Kept
import Adventure.Proofs.Markup.Marks
import Mathlib.Data.List.DropRight

/-!
Properties of panels reach the next panel or are told of.

A storyboard is read item by item, with the properties that wait for a panel carried along. What
waits behind some items are the lines of panel properties since the last item that makes a panel
(`panelsOf_left`), whatever option lines were refused in between. So a panel has the properties of
these lines, the last valid line of each key (`panelsOf_of_makesPanel`), and what waits at the end
of a storyboard is told of at all its lines, if one of them is valid (`Section.unusedAmong_faults`).
`Report.panel_properties_reach` says this of all storyboards of a report.
-/

namespace Adventure.Markup

open scoped List

/-! ### Lines that wait -/

/-- Whether a panel is made of the item. -/
def Item.makesPanel : Item → Bool
  | narration _ _ => true
  | decision _ _ => true
  | branch _ => true
  | _ => false

/-- The lines of panel properties behind the last item that makes a panel. -/
def heldLines (items : List Item) : List Line :=
  (items.rtakeWhile fun item => !item.makesPanel).flatMap Item.waitingLines

/-- The value that the last valid line of a key gives to it. -/
def lastValue? (key : String) (lines : List Line) : Option String :=
  ((lines.filterMap property?).filter (·.1 = key)).getLast?.map Prod.snd

/-- Lines that wait from the beginning. -/
def Waiting.ofLines (lines : List Line) : Waiting := lines.foldl Waiting.add {}

namespace Waiting

theorem ofLines_concat (lines : List Line) (l : Line) :
    ofLines (lines ++ [l]) = (ofLines lines).add l := List.foldl_concat _ _ _ _

theorem lines_ofLines (lines : List Line) : (ofLines lines).lines = numbersOf lines := by
  induction lines using List.reverseRecOn with
  | nil => rfl
  | append_singleton lines l ih =>
    rw [ofLines_concat, add, ih, numbersOf, numbersOf, List.map_append]
    rfl

/-- Of several lines with one key the last valid one counts. -/
theorem get?_ofLines (lines : List Line) (key : String) :
    (ofLines lines).properties.get? key = lastValue? key lines := by
  induction lines using List.reverseRecOn with
  | nil => rfl
  | append_singleton lines l ih =>
    rw [ofLines_concat, add, lastValue?, List.filterMap_append, List.filter_append]
    cases hl : property? l with
    | none =>
      rw [List.filterMap_cons_none hl, List.filterMap_nil, List.filter_nil, List.append_nil]
      exact ih
    | some p =>
      rw [List.filterMap_cons_some hl, List.filterMap_nil]
      simp only
      rw [Keyed.get?_insert]
      by_cases hkey : key = p.1
      · simp [hkey]
      · rw [if_neg hkey, List.filter_cons_of_neg (by simpa using Ne.symm hkey), List.filter_nil,
          List.append_nil]
        exact ih

/-- Properties wait if one of the lines is valid. -/
theorem isEmpty_ofLines (lines : List Line) :
    (ofLines lines).properties.isEmpty = (lines.filterMap property?).isEmpty := by
  induction lines using List.reverseRecOn with
  | nil => rfl
  | append_singleton lines l ih =>
    rw [ofLines_concat, add, List.filterMap_append]
    cases hl : property? l with
    | none =>
      rw [List.filterMap_cons_none hl, List.filterMap_nil, List.append_nil]
      exact ih
    | some p =>
      have hkeys := Keyed.keys_insert (ofLines lines).properties p.1 p.2
      have hne : ((ofLines lines).properties.insert p.1 p.2).keys ≠ [] := by
        rw [hkeys]
        split
        · rename_i hmem
          exact List.ne_nil_of_mem hmem
        · exact List.concat_ne_nil _ _
      have hfull : ((ofLines lines).properties.insert p.1 p.2).isEmpty = false := by
        rw [Keyed.isEmpty, List.isEmpty_eq_false_iff]
        intro hnil
        exact hne (by rw [Keyed.keys, hnil, List.map_nil])
      rw [List.filterMap_cons_some hl, List.filterMap_nil,
        List.isEmpty_eq_false_iff.mpr (List.concat_ne_nil _ _)]
      exact hfull

end Waiting

/-! ### Panels -/

section Panels

variable (s : Settings) (asset : String)

theorem Item.isSome_body? (item : Item) : (item.body? s asset).isSome = item.makesPanel := by
  cases item <;> rfl

variable {s : Settings} {asset : String}

/-- An item that makes a panel takes all that waits. -/
theorem panelsOf_cons_of_body {waiting : Waiting} {item : Item} {body : PanelBody}
    (h : item.body? s asset = some body) (rest : List Item) :
    panelsOf s asset waiting (item :: rest) =
      (⟨waiting.properties, body⟩ :: (panelsOf s asset {} rest).1,
        (panelsOf s asset {} rest).2) := by
  rw [panelsOf, h]
  rintro l rfl
  cases h

/-- Any other item leaves what waits, and adds its line of panel properties if it is one. -/
theorem panelsOf_cons_of_not_makesPanel {item : Item} (h : item.makesPanel = false)
    (waiting : Waiting) (rest : List Item) :
    panelsOf s asset waiting (item :: rest) =
      panelsOf s asset (item.waitingLines.foldl Waiting.add waiting) rest := by
  cases item with
  | narration lines effects => cases h
  | decision prompt entries => cases h
  | branch entries => cases h
  | _ => rfl

/-- Items that follow others take over what waits behind those. -/
theorem panelsOf_append (waiting : Waiting) (xs ys : List Item) :
    panelsOf s asset waiting (xs ++ ys) =
      ((panelsOf s asset waiting xs).1 ++ (panelsOf s asset (panelsOf s asset waiting xs).2 ys).1,
        (panelsOf s asset (panelsOf s asset waiting xs).2 ys).2) := by
  induction xs generalizing waiting with
  | nil => rfl
  | cons item xs ih =>
    rw [List.cons_append]
    cases hbody : item.body? s asset with
    | some body =>
      rw [panelsOf_cons_of_body hbody, panelsOf_cons_of_body hbody, ih]
      rfl
    | none =>
      have hnone : item.makesPanel = false := by rw [← item.isSome_body? s asset, hbody]; rfl
      rw [panelsOf_cons_of_not_makesPanel hnone, panelsOf_cons_of_not_makesPanel hnone, ih]

/-- There are as many panels as items that make one. -/
theorem length_panelsOf (s : Settings) (asset : String) (waiting : Waiting) (items : List Item) :
    (panelsOf s asset waiting items).1.length = items.countP Item.makesPanel := by
  induction items generalizing waiting with
  | nil => rfl
  | cons item items ih =>
    have hpanel := item.isSome_body? s asset
    rw [List.countP_cons, ← hpanel]
    cases hbody : item.body? s asset with
    | some body =>
      rw [panelsOf_cons_of_body hbody, List.length_cons, ih]
      rfl
    | none =>
      rw [hbody] at hpanel
      rw [panelsOf_cons_of_not_makesPanel hpanel.symm, ih]
      rfl

/-- **What waits behind some items are the lines since the last panel.** -/
theorem panelsOf_left (items : List Item) :
    (panelsOf s asset {} items).2 = Waiting.ofLines (heldLines items) := by
  induction items using List.reverseRecOn with
  | nil => rfl
  | append_singleton items item ih =>
    rw [panelsOf_append, heldLines]
    have hpanel := item.isSome_body? s asset
    cases hbody : item.body? s asset with
    | some body =>
      rw [hbody, Option.isSome_some] at hpanel
      rw [panelsOf_cons_of_body hbody, List.rtakeWhile_concat_neg _ _ _ (by simp [← hpanel])]
      rfl
    | none =>
      rw [hbody, Option.isSome_none] at hpanel
      rw [panelsOf_cons_of_not_makesPanel hpanel.symm, ih,
        List.rtakeWhile_concat_pos _ _ _ (by simp [← hpanel]), List.flatMap_append,
        List.flatMap_singleton, Waiting.ofLines, ← List.foldl_append]
      rfl

/-- **A panel has the properties of the lines that wait for it,** and stands behind the panels of
the items before its own. -/
theorem panelsOf_of_makesPanel (s : Settings) (asset : String) {item : Item}
    (h : item.makesPanel = true) (before after : List Item) :
    ∃ p,
      (panelsOf s asset {} (before ++ item :: after)).1[before.countP Item.makesPanel]? = some p ∧
      item.body? s asset = some p.body ∧
      ∀ key, p.property? key = lastValue? key (heldLines before) := by
  rw [← item.isSome_body? s asset] at h
  obtain ⟨body, hbody⟩ := Option.isSome_iff_exists.mp h
  refine ⟨⟨(Waiting.ofLines (heldLines before)).properties, body⟩, ?_, hbody, ?_⟩
  · rw [panelsOf_append, panelsOf_cons_of_body hbody, ← length_panelsOf s asset {},
      panelsOf_left, List.getElem?_append_right (Nat.le_refl _), Nat.sub_self]
    rfl
  · intro key
    exact Waiting.get?_ofLines (heldLines before) key

/-- Options that are refused leave the panels and what waits as they are without them. -/
theorem panelsOf_refused (before after : List Item) (entries : List Entry) (leftover : Leftover) :
    panelsOf s asset {} (before ++ .refused entries leftover :: after) =
      panelsOf s asset {} (before ++ after) := by
  rw [panelsOf_append, panelsOf_append, panelsOf_cons_of_not_makesPanel rfl]
  rfl

end Panels

/-! ### What is told -/

section Told

variable {s : Settings} {asset : String}

/-- What is told of lines that still wait at the end of a storyboard. -/
def unusedFaults (lines : List Line) : List (List Nat × Fault) :=
  if (lines.filterMap property?).isEmpty then [] else [(numbersOf lines, .unusedPanelProperties)]

/-- The faults that are about panel properties without a panel. -/
def unusedAmong (faults : List (List Nat × Fault)) : List (List Nat × Fault) :=
  faults.filter (·.2 = .unusedPanelProperties)

theorem unusedAmong_append (xs ys : List (List Nat × Fault)) :
    unusedAmong (xs ++ ys) = unusedAmong xs ++ unusedAmong ys := List.filter_append _ _

theorem boardFaults_eq (items : List Item) :
    boardFaults s asset items =
      items.flatMap (Item.faults s asset) ++ unusedFaults (heldLines items) := by
  rw [boardFaults, panelsOf_left, Waiting.isEmpty_ofLines, Waiting.lines_ofLines]
  rfl

theorem unusedAmong_flatMap_eq_nil {α : Type} {faultsOf : α → List (List Nat × Fault)}
    (h : ∀ x, unusedAmong (faultsOf x) = []) (xs : List α) :
    unusedAmong (xs.flatMap faultsOf) = [] := by
  have hflat : unusedAmong (xs.flatMap faultsOf) = xs.flatMap fun x => unusedAmong (faultsOf x) :=
    List.filter_flatMap
  rw [hflat, List.flatMap_eq_nil_iff]
  exact fun x _ => h x

theorem unusedAmong_map_eq_nil {α : Type} {faultOf : α → List Nat × Fault}
    (h : ∀ x, (faultOf x).2 ≠ .unusedPanelProperties) (xs : List α) :
    unusedAmong (xs.map faultOf) = [] := by
  rw [unusedAmong, List.filter_eq_nil_iff]
  intro f hf
  obtain ⟨x, -, rfl⟩ := List.mem_map.mp hf
  rw [decide_eq_true_eq]
  exact h x

theorem Bracket.unusedAmong_faults (b : Bracket) : unusedAmong (b.faults s) = [] := by
  cases b with
  | guard g =>
    rw [faults]
    split
    · split
      · rfl
      · rfl
    · rfl
  | _ => rfl

/-- What is told of an option is told of its bracket, or of its line. -/
theorem Entry.unusedAmong_faults (e : Entry) (usable : Bool) {fault : Fault}
    (hfault : unusedAmong [([e.line.number], fault)] = []) :
    unusedAmong (e.bracket.faults s ++ if usable then [] else [([e.line.number], fault)]) = [] := by
  rw [unusedAmong_append, Bracket.unusedAmong_faults, List.nil_append]
  split
  · rfl
  · exact hfault

theorem Leftover.unusedAmong_faults (l : Leftover) : unusedAmong (l.faults s asset) = [] := by
  obtain ⟨atFront, bracket, line⟩ := l
  rw [faults, unusedAmong_append, Bracket.unusedAmong_faults, List.nil_append]
  cases line with
  | some line =>
    simp only
    split
    · rfl
    · rfl
  | none =>
    cases bracket with
    | guard g => cases atFront with
      | true => rfl
      | false => rfl
    | _ => rfl

namespace Item

theorem unusedAmong_propertyFaults (l : Line) : unusedAmong (propertyFaults l) = [] := by
  rw [propertyFaults]
  split
  · rfl
  · rfl

theorem unusedAmong_decisionFaults (e : Entry) : unusedAmong (decisionFaults s asset e) = [] :=
  e.unusedAmong_faults _ rfl

theorem unusedAmong_branchFaults (e : Entry) : unusedAmong (branchFaults s asset e) = [] :=
  e.unusedAmong_faults _ rfl

/-- No fault of an item is about panel properties without a panel. -/
theorem unusedAmong_faults (item : Item) : unusedAmong (item.faults s asset) = [] := by
  cases item with
  | boardProperty l => exact unusedAmong_propertyFaults l
  | panelProperty l => exact unusedAmong_propertyFaults l
  | narration lines effects =>
    have hissues : ∀ i, Fault.ofIssue i ≠ .unusedPanelProperties := by
      intro i
      cases i with
      | _ => simp [Fault.ofIssue]
    rw [faults, unusedAmong_append, overflow, unusedAmong_map_eq_nil (by simp),
      unusedAmong_map_eq_nil hissues, List.nil_append]
  | decision prompt entries =>
    rw [faults, unusedAmong_append, unusedAmong_append, overflow, unusedAmong_map_eq_nil (by simp),
      unusedAmong_flatMap_eq_nil unusedAmong_decisionFaults]
    split
    · rfl
    · rfl
  | branch entries => exact unusedAmong_flatMap_eq_nil unusedAmong_branchFaults entries
  | refused entries leftover =>
    rw [faults, unusedAmong_append, unusedAmong_flatMap_eq_nil unusedAmong_branchFaults,
      leftover.unusedAmong_faults, List.nil_append]
  | other l => rfl

end Item

/-- Of the faults of a storyboard one is about panel properties without a panel, or none. -/
theorem unusedAmong_boardFaults (items : List Item) :
    unusedAmong (boardFaults s asset items) = unusedFaults (heldLines items) := by
  rw [boardFaults_eq, unusedAmong_append, unusedAmong_flatMap_eq_nil Item.unusedAmong_faults,
    List.nil_append, unusedFaults]
  split
  · rfl
  · rfl

namespace Section

/-- **Of panel properties without a panel one warning is told for each storyboard that has any.** -/
theorem unusedAmong_faults (used : List String) (sections : List Section) :
    unusedAmong (faults s asset used sections) =
      (kept asset used sections).flatMap fun b => unusedFaults (heldLines b.2) := by
  fun_induction kept asset used sections with
  | case1 => rfl
  | case2 used l rest ih => exact ih
  | case3 used start items rest hused ih =>
    rw [faults, if_pos hused]
    exact ih
  | case4 used start items rest hnew ih =>
    rw [faults, if_neg hnew, unusedAmong_append, ih, unusedAmong_boardFaults, List.flatMap_cons]

/-- What is told of a storyboard that is kept stands together. -/
theorem isInfix_boardFaults {used : List String} {sections : List Section} {b : Line × List Item}
    (hb : b ∈ kept asset used sections) :
    boardFaults s asset b.2 <:+: faults s asset used sections := by
  fun_induction kept asset used sections with
  | case1 => cases hb
  | case2 used l rest ih => exact (ih hb).trans (List.suffix_cons _ _).isInfix
  | case3 used start items rest hused ih =>
    rw [faults, if_pos hused]
    exact (ih hb).trans (List.suffix_cons _ _).isInfix
  | case4 used start items rest hnew ih =>
    rw [faults, if_neg hnew]
    rcases List.mem_cons.mp hb with rfl | hb
    · exact (List.prefix_append _ _).isInfix
    · exact (ih hb).trans (List.suffix_append _ _).isInfix

end Section

end Told

/-! ### Reports -/

/-- **Properties of panels reach the next panel or are told of.** The storyboards of a report are
those that are kept. Each item that makes a panel makes one with all properties that wait for it: it
has, for every key, the value of the last valid line since the panel before, and nothing else.
Options that are refused change neither panels nor what waits. At the end of a storyboard one
warning is told of all lines that still wait, valid or not, if one of them is valid; otherwise none
is. -/
theorem Report.panel_properties_reach (s : Settings) (asset text : String) :
    let report := Report.ofAsset s asset text
    let kept := Section.kept asset [] (Section.ofLines (Line.ofAsset text))
    let made := fun b : Line × List Item => boardOf s asset (boardName asset b.1) b.2
    let warn := List.map (Warning.ofFault asset)
    report.storyboards.entries = kept.map (fun b => (boardName asset b.1, made b)) ∧
      (∀ b ∈ kept,
        (made b).panels.length = b.2.countP Item.makesPanel ∧
        (∀ before item after, b.2 = before ++ item :: after → item.makesPanel = true →
          ∃ p, (made b).panels[before.countP Item.makesPanel]? = some p ∧
            item.body? s asset = some p.body ∧
            ∀ key, p.property? key = lastValue? key (heldLines before)) ∧
        (∀ before entries leftover after, b.2 = before ++ .refused entries leftover :: after →
          panelsOf s asset {} b.2 = panelsOf s asset {} (before ++ after)) ∧
        warn (b.2.flatMap (Item.faults s asset) ++ unusedFaults (heldLines b.2)) <:+:
          report.warnings) ∧
      report.warnings.filter (·.fault = .unusedPanelProperties) =
        warn (kept.flatMap fun b => unusedFaults (heldLines b.2)) := by
  intro report kept made warn
  have hwarnings : report.warnings =
      warn (Section.faults s asset [] (Section.ofLines (Line.ofAsset text))) :=
    congrArg warn (addSections_faults s asset ∅ (Section.ofLines (Line.ofAsset text)))
  refine ⟨Report.entries_storyboards s asset text, ?boards, ?unused⟩
  case boards =>
    intro b hb
    refine ⟨length_panelsOf s asset {} b.2, ?_, ?_, ?_⟩
    · intro before item after hitems hpanel
      have hplace := panelsOf_of_makesPanel s asset hpanel before after
      rwa [← hitems] at hplace
    · intro before entries leftover after hitems
      rw [hitems, panelsOf_refused]
    · rw [hwarnings, ← boardFaults_eq]
      exact (Section.isInfix_boardFaults hb).map _
  case unused =>
    rw [hwarnings, List.filter_map]
    exact congrArg warn (Section.unusedAmong_faults [] _)

/-- A mood that is set twice reaches the narration behind an option that is refused, and what is set
behind the narration is told of, with the line that is not valid. -/
theorem Report.panel_properties_reach_mood :
    let report := Report.ofAsset {} "inn"
      ">>s\n&mood=dark\n&mood=grim\n-x\n&cosy\n|Hi\n&music=low\n&loud\n"
    (∃ board, report.storyboards.get? "s" = some board ∧ ∃ p, board.panels = [p] ∧
      p.property? "mood" = some "grim" ∧ p.property? "music" = none) ∧
      report.warnings = [
        ⟨"inn", [4], .malformedBranch "-x"⟩, ⟨"inn", [5], .invalidProperty "&cosy"⟩,
        ⟨"inn", [8], .invalidProperty "&loud"⟩, ⟨"inn", [7, 8], .unusedPanelProperties⟩] := by
  intro report
  let start : Line := ⟨1, ">>s".toList⟩
  let before : List Item :=
    [.panelProperty ⟨2, "&mood=dark".toList⟩, .panelProperty ⟨3, "&mood=grim".toList⟩,
      .refused [⟨.absent, ⟨4, "-x".toList⟩⟩] ⟨false, .absent, none⟩,
      .panelProperty ⟨5, "&cosy".toList⟩]
  let narration : Item := .narration [⟨6, "|Hi".toList⟩] []
  let after : List Item :=
    [.panelProperty ⟨7, "&music=low".toList⟩, .panelProperty ⟨8, "&loud".toList⟩]
  have hkept : Section.kept "inn" [] (Section.ofLines (Line.ofAsset
      ">>s\n&mood=dark\n&mood=grim\n-x\n&cosy\n|Hi\n&music=low\n&loud\n")) =
        [(start, before ++ narration :: after)] := by
    decide +kernel
  obtain ⟨hentries, hboards, -⟩ := Report.panel_properties_reach {} "inn"
    ">>s\n&mood=dark\n&mood=grim\n-x\n&cosy\n|Hi\n&music=low\n&loud\n"
  rw [hkept] at hentries hboards
  obtain ⟨hlength, hpanels, -⟩ := hboards _ List.mem_cons_self
  obtain ⟨p, hp, -, hproperties⟩ := hpanels before narration after rfl rfl
  constructor
  · refine ⟨boardOf {} "inn" "s" (before ++ narration :: after), ?_, p, ?_, ?_, ?_⟩
    · rw [Keyed.get?, hentries]
      rfl
    · obtain ⟨p', hp'⟩ := List.length_eq_one_iff.mp hlength
      rw [hp'] at hp
      exact hp'.trans (congrArg ([·]) (Option.some.inj hp))
    · rw [hproperties]
      decide +kernel
    · rw [hproperties]
      decide +kernel
  · decide +kernel

end Adventure.Markup
