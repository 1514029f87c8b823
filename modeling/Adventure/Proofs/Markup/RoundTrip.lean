import Adventure.Proofs.Markup.Isolation
import Adventure.Proofs.Markup.Layout
import Adventure.Proofs.Text.Cuts
import Mathlib.Data.List.Nodup

/-!
Markup is read back. Storyboards that are written are what is read, without a warning, however they
are laid out, as long as the lines of two narrations are kept apart (`Report.ofAsset_written`).

The lines have been read back as items; here the items are shown to mean what was written, and to
have no faults.
-/

namespace Adventure

/-- New names come last, one after another. -/
theorem Keyed.entries_foldl_insert {α : Type} {es : List (String × α)} {t : Keyed α}
    (h : (t.keys ++ es.map Prod.fst).Nodup) :
    (es.foldl (fun t e => t.insert e.1 e.2) t).entries = t.entries ++ es := by
  induction es generalizing t with
  | nil => exact (List.append_nil _).symm
  | cons e es ih =>
    rw [List.map_cons, ← List.singleton_append, ← List.append_assoc] at h
    have hnew : e.1 ∉ t.keys := by
      intro hmem
      exact List.disjoint_of_nodup_append (List.nodup_append.mp h).1 hmem (List.mem_singleton_self _)
    have hentries : (t.insert e.1 e.2).entries = t.entries ++ [(e.1, e.2)] :=
      Keyed.entries_insert_of_not_mem hnew
    have hkeys : (t.insert e.1 e.2).keys = t.keys ++ [e.1] := by
      rw [Keyed.keys, hentries, List.map_append]
      rfl
    rw [List.foldl_cons, ih (by rw [hkeys]; exact h), hentries, List.append_assoc]
    rfl

/-- Tables with the same entries are the same. -/
theorem Keyed.ext_entries {α : Type} {t u : Keyed α} (h : t.entries = u.entries) : t = u := by
  obtain ⟨es, hes⟩ := t
  obtain ⟨es', hes'⟩ := u
  cases h
  rfl

/-- A table is made of its entries. -/
theorem Keyed.foldl_entries {α : Type} (t : Keyed α) :
    t.entries.foldl (fun u e => u.insert e.1 e.2) ∅ = t :=
  Keyed.ext_entries (Keyed.entries_foldl_insert t.distinct)

namespace Markup

variable {layout : Layout} {s : Settings} {asset : String}

/-- What can be read back one by one is read back as a list. -/
theorem filterMap_map_eq_self {α β : Type} {read : β → Option α} {write : α → β} {xs : List α}
    (h : ∀ x ∈ xs, read (write x) = some x) : (xs.map write).filterMap read = xs := by
  rw [List.filterMap_map, Function.comp_def, List.filterMap_congr h, List.filterMap_some]

/-! ### Properties -/

/-- A property is read back, whatever it is a property of. -/
theorem property?_written {e : String × String} (h : IsProperty e) (front : List Char)
    (hfront : '&' ∉ front) : property? (Line.unnumbered (front ++ propertyLine e)) = some e := by
  have hamp : ∀ x ∈ front, decide (x = '&') = false := by
    intro x hx
    rw [decide_eq_false_iff_not]
    rintro rfl
    exact hfront hx
  have hequals : ∀ x ∈ e.1.toList, decide (x = '=') = false := by
    intro x hx
    rw [decide_eq_false_iff_not]
    rintro rfl
    exact h.no_equals hx
  have htext : (Line.unnumbered (front ++ propertyLine e)).text =
      front ++ '&' :: (e.1.toList ++ '=' :: e.2.toList) := rfl
  rw [property?, htext, Text.splitAt?_append hamp rfl]
  simp only
  rw [Text.splitAt?_append hequals rfl]
  simp only
  rw [h.key.1, if_neg h.key_ne, h.value.1, String.ofList_toList, String.ofList_toList]

/-- The properties of a panel wait for it. -/
theorem panelsOf_properties (s : Settings) (asset : String) {es : List (String × String)}
    (h : ∀ e ∈ es, IsProperty e) (waiting : Waiting) (rest : List Item) :
    ∃ lines, panelsOf s asset waiting
        (es.map (fun e => .panelProperty (Line.unnumbered (propertyLine e))) ++ rest) =
      panelsOf s asset ⟨es.foldl (fun t e => t.insert e.1 e.2) waiting.properties, lines⟩ rest := by
  induction es generalizing waiting with
  | nil => exact ⟨waiting.lines, rfl⟩
  | cons e es ih =>
    obtain ⟨he, hes⟩ := List.forall_mem_cons.mp h
    have hproperty : property? (Line.unnumbered (propertyLine e)) = some e :=
      property?_written he [] List.not_mem_nil
    have hadd : (waiting.add (Line.unnumbered (propertyLine e))).properties =
        waiting.properties.insert e.1 e.2 := by
      rw [Waiting.add, hproperty]
    obtain ⟨lines, hlines⟩ := ih hes (waiting.add (Line.unnumbered (propertyLine e)))
    refine ⟨lines, ?_⟩
    rw [List.map_cons, List.cons_append, panelsOf, hlines, hadd]
    rfl

/-! ### Texts and effects -/

namespace Item

theorem textUpTo_written (mark : Char) {limit : Nat} {text : String} (h : IsText limit text) :
    textUpTo limit ((textLines mark text).map Line.unnumbered) = text := by
  obtain ⟨hlimit, htrim⟩ := h
  have hall : ((textLines mark text).map Line.unnumbered).take limit =
      (textLines mark text).map Line.unnumbered := by
    apply List.take_of_length_le
    rw [List.length_map, textLines, List.length_map]
    exact hlimit
  have hcontent : ((textLines mark text).map Line.unnumbered).map Line.content =
      (text.toList.splitOn '\n').map String.ofList := by
    rw [textLines, List.map_map, List.map_map]
    apply List.map_congr_left
    intro piece hpiece
    exact congrArg String.ofList (Text.trimStart_of_trim (htrim piece hpiece))
  rw [textUpTo, hall, hcontent, Text.join, ← String.toList_inj, String.toList_intercalate,
    List.map_map]
  simp [Function.comp_def, List.intercalate_splitOn]

theorem overflow_written (mark : Char) {limit : Nat} {text : String} (h : IsText limit text)
    (fault : Fault) : overflow limit fault ((textLines mark text).map Line.unnumbered) = [] := by
  have hnone : ((textLines mark text).map Line.unnumbered).drop limit = [] := by
    apply List.drop_of_length_le
    rw [List.length_map, textLines, List.length_map]
    exact h.1
  rw [overflow, hnone]
  rfl

/-- The effect line of a narration, or none where nothing changes, says what the effect is. -/
theorem effectText_written {e : Effect} (h : e.WellFormed) :
    effectText ((effectLines layout e).map Line.unnumbered) =
      String.ofList (Effect.Mutation.line e.mutations) := by
  rw [effectLines]
  split
  · rename_i hbare
    have hempty : e.mutations = [] := by
      simp only [Effect.isEmpty, Bool.and_eq_true, List.isEmpty_iff] at hbare
      simp [Effect.mutations, hbare]
    rw [hempty]
    rfl
  · have htrim := (isLine_mutations h).1
    simp [effectText, Text.join, Line.unnumbered, htrim]

/-! ### Bodies -/

theorem guard?_ofGuard (guard : Option String) : (Bracket.ofGuard guard).guard? = guard := by
  cases guard <;> rfl

/-- A guard that can be parsed is no fault. -/
theorem faults_ofGuard {guard : Option String} (h : ∀ g ∈ guard, IsGuard g) :
    (Bracket.ofGuard guard).faults s = [] := by
  cases guard with
  | none => rfl
  | some g =>
    obtain ⟨t, ht⟩ := (h g rfl).parses
    rw [Bracket.ofGuard, Bracket.faults, ht]
    split
    · rfl
    · rfl

theorem filterMap_decisionOption? {options : List DecisionOption}
    (h : ∀ o ∈ options, o.WellFormed) :
    (options.map fun o =>
        (⟨Bracket.ofGuard o.guard, Line.unnumbered (decisionLine o)⟩ : Entry)).filterMap
      (Entry.decisionOption? asset) = options :=
  filterMap_map_eq_self fun o ho =>
    Entry.decisionOption?_written asset (h o ho) (guard?_ofGuard o.guard) 0

theorem filterMap_branchOption? {options : List BranchOption} (h : ∀ o ∈ options, o.WellFormed) :
    (options.map fun o =>
        (⟨Bracket.ofGuard o.guard, Line.unnumbered (branchLine o)⟩ : Entry)).filterMap
      (Entry.branchOption? asset) = options :=
  filterMap_map_eq_self fun o ho =>
    Entry.branchOption?_written asset (h o ho) (guard?_ofGuard o.guard) 0

theorem ofLine_effectText {e : Effect} (h : e.WellFormed) :
    Effect.ofLine (effectText ((effectLines layout e).map Line.unnumbered)) = (e, []) := by
  rw [effectText_written h, Effect.ofLine_written (quiet_of_wellFormed h)]

/-- What the body of a panel is read as makes the body again. -/
theorem body?_ofBody {body : PanelBody} (h : body.WellFormed s) :
    (ofBody layout body).body? s asset = some body := by
  cases body with
  | narration text effect =>
    rw [ofBody, body?, textUpTo_written '|' h.1, ofLine_effectText h.2]
  | decision prompt options =>
    rw [ofBody, body?, textUpTo_written '?' h.1, filterMap_decisionOption? h.2.2]
  | branch options => rw [ofBody, body?, filterMap_branchOption? h.2]

/-- What the body of a panel is read as has no faults. -/
theorem faults_ofBody {body : PanelBody} (h : body.WellFormed s) :
    (ofBody layout body).faults s asset = [] := by
  cases body with
  | narration text effect =>
    rw [ofBody, faults, overflow_written '|' h.1, ofLine_effectText h.2]
    rfl
  | decision prompt options =>
    obtain ⟨hprompt, hne, hoptions⟩ := h
    have hentries : (options.map fun o =>
        (⟨Bracket.ofGuard o.guard, Line.unnumbered (decisionLine o)⟩ : Entry)).flatMap
          (decisionFaults s asset) = [] := by
      rw [List.flatMap_map, List.flatMap_eq_nil_iff]
      intro o ho
      have hread := Entry.decisionOption?_written asset (hoptions o ho) (guard?_ofGuard o.guard) 0
      rw [decisionFaults, faults_ofGuard (hoptions o ho).guard]
      exact if_pos (by rw [Line.unnumbered, hread]; rfl)
    rw [ofBody, faults, overflow_written '?' hprompt, hentries, filterMap_decisionOption? hoptions,
      if_neg (by simpa using hne)]
    rfl
  | branch options =>
    rw [ofBody, faults, List.flatMap_map, List.flatMap_eq_nil_iff]
    intro o ho
    have ho := h.2 o ho
    have hread := Entry.branchOption?_written asset ho (guard?_ofGuard o.guard) 0
    rw [branchFaults, faults_ofGuard ho.guard]
    exact if_pos (by rw [Line.unnumbered, hread]; rfl)

end Item

/-! ### Panels and storyboards -/

theorem ne_panelProperty_ofBody (body : PanelBody) (l : Line) :
    Item.ofBody layout body ≠ .panelProperty l := by
  cases body <;> nofun

/-- The panels that were written are made, and no properties wait behind them. -/
theorem panelsOf_written {panels : List Panel} (h : ∀ p ∈ panels, p.WellFormed s) :
    panelsOf s asset {} (panels.flatMap (Item.ofPanel layout)) = (panels, {}) := by
  induction panels with
  | nil => rfl
  | cons p panels ih =>
    obtain ⟨hp, hpanels⟩ := List.forall_mem_cons.mp h
    obtain ⟨lines, hlines⟩ := panelsOf_properties s asset hp.properties {}
      (Item.ofBody layout p.body :: panels.flatMap (Item.ofPanel layout))
    rw [List.flatMap_cons, Item.ofPanel, List.append_assoc, List.singleton_append, hlines,
      Keyed.foldl_entries, panelsOf]
    · rw [Item.body?_ofBody hp.body]
      simp only
      rw [ih hpanels]
    · exact ne_panelProperty_ofBody p.body

/-- Board properties are passed over when panels are made. -/
theorem panelsOf_ofBoard {b : Storyboard} (h : b.WellFormed s) :
    panelsOf s asset {} (Item.ofBoard layout b) = (b.panels, {}) := by
  have hskip : ∀ (es : List (String × String)) (rest : List Item),
      panelsOf s asset {} (es.map (fun e =>
        .boardProperty (Line.unnumbered ('^' :: propertyLine e))) ++ rest) =
          panelsOf s asset {} rest := by
    intro es rest
    induction es with
    | nil => rfl
    | cons e es ih => exact ih
  rw [Item.ofBoard, hskip, panelsOf_written h.panels]

/-- Of what a storyboard is read as, its properties are what only board properties give. -/
theorem filterMap_ofBoard {b : Storyboard} (h : b.WellFormed s)
    {given : Item → Option (String × String)} (hboard : ∀ l, given (.boardProperty l) = property? l)
    (hpanel : ∀ l, given (.panelProperty l) = none)
    (hbody : ∀ body, given (Item.ofBody layout body) = none) :
    (Item.ofBoard layout b).filterMap given = b.properties.entries := by
  have hproperties : (b.properties.entries.map fun e =>
      Item.boardProperty (Line.unnumbered ('^' :: propertyLine e))).filterMap given =
        b.properties.entries :=
    filterMap_map_eq_self fun e he =>
      (hboard _).trans (property?_written (h.properties e he) ['^'] (by decide))
  have hpanels : (b.panels.flatMap (Item.ofPanel layout)).filterMap given = [] := by
    rw [List.filterMap_eq_nil_iff]
    intro item hitem
    obtain ⟨p, -, hitem⟩ := List.mem_flatMap.mp hitem
    rcases List.mem_append.mp hitem with hitem | hitem
    · obtain ⟨e, -, rfl⟩ := List.mem_map.mp hitem
      exact hpanel _
    · rw [List.mem_singleton.mp hitem]
      exact hbody p.body
  rw [Item.ofBoard, List.filterMap_append, hproperties, hpanels, List.append_nil]

theorem boardProperties_ofBoard {b : Storyboard} (h : b.WellFormed s) :
    boardProperties (Item.ofBoard layout b) = b.properties := by
  rw [boardProperties, filterMap_ofBoard h (fun _ => rfl) (fun _ => rfl)
    (fun body => by cases body <;> rfl)]
  exact Keyed.foldl_entries b.properties

/-- **What a storyboard is read as makes the storyboard again.** -/
theorem boardOf_ofBoard {b : Storyboard} (h : b.WellFormed s) :
    boardOf s asset b.id (Item.ofBoard layout b) = b := by
  rw [boardOf, boardProperties_ofBoard h, panelsOf_ofBoard h]

theorem propertyFaults_written {e : String × String} (h : IsProperty e) {front : List Char}
    (hfront : '&' ∉ front) :
    Item.propertyFaults (Line.unnumbered (front ++ propertyLine e)) = [] := by
  rw [Item.propertyFaults, property?_written h front hfront]
  rfl

/-- What a storyboard is read as has no faults. -/
theorem boardFaults_ofBoard {b : Storyboard} (h : b.WellFormed s) :
    boardFaults s asset (Item.ofBoard layout b) = [] := by
  have hitems : (Item.ofBoard layout b).flatMap (Item.faults s asset) = [] := by
    rw [List.flatMap_eq_nil_iff]
    intro item hitem
    rcases List.mem_append.mp hitem with hitem | hitem
    · obtain ⟨e, he, rfl⟩ := List.mem_map.mp hitem
      have hfront : '&' ∉ ['^'] := by decide
      exact propertyFaults_written (h.properties e he) hfront
    · obtain ⟨p, hp, hitem⟩ := List.mem_flatMap.mp hitem
      have hp := h.panels p hp
      rcases List.mem_append.mp hitem with hitem | hitem
      · obtain ⟨e, he, rfl⟩ := List.mem_map.mp hitem
        exact propertyFaults_written (hp.properties e he) List.not_mem_nil
      · rw [List.mem_singleton.mp hitem]
        exact Item.faults_ofBody hp.body
  rw [boardFaults, hitems, panelsOf_ofBoard h]
  rfl

theorem boardName_starting {b : Storyboard} (h : b.WellFormed s) :
    boardName asset (Line.starting b) = b.id := by
  have hname : Text.trim ((Line.starting b).text.drop 2) = b.id.toList := h.name.1
  rw [boardName, hname]
  exact (if_neg h.name_ne).trans String.ofList_toList

/-- Storyboards with new names are added one after another. -/
theorem addSections_written (layout : Layout) (asset : String) {boards : List Storyboard}
    (h : ∀ b ∈ boards, b.WellFormed s) {before : Keyed Storyboard}
    (hnew : (before.keys ++ boards.map Storyboard.id).Nodup) :
    let added := addSections s asset before
      (boards.map fun b => .board (Line.starting b) (Item.ofBoard layout b))
    added.1.entries = before.entries ++ boards.map (fun b => (b.id, b)) ∧ added.2 = [] := by
  induction boards generalizing before with
  | nil => exact ⟨(List.append_nil _).symm, rfl⟩
  | cons b boards ih =>
    obtain ⟨hb, hboards⟩ := List.forall_mem_cons.mp h
    rw [List.map_cons, ← List.singleton_append, ← List.append_assoc] at hnew
    have hname : boardName asset (Line.starting b) ∉ before.keys := by
      rw [boardName_starting hb]
      intro hmem
      exact List.disjoint_of_nodup_append (List.nodup_append.mp hnew).1 hmem
        (List.mem_singleton_self _)
    obtain ⟨hone, hfaults⟩ := addSections_board_of_not_mem s (Item.ofBoard layout b) hname
    rw [boardName_starting hb, boardOf_ofBoard hb] at hone
    rw [boardFaults_ofBoard hb] at hfaults
    have hkeys : (addSections s asset before
        [.board (Line.starting b) (Item.ofBoard layout b)]).1.keys = before.keys ++ [b.id] := by
      rw [Keyed.keys, hone, List.map_append]
      rfl
    obtain ⟨hentries, hnone⟩ := ih hboards (by rw [hkeys]; exact hnew)
    intro added
    have hadded : added = _ := addSections_append before
      [.board (Line.starting b) (Item.ofBoard layout b)] _
    rw [hadded]
    simp only
    rw [hentries, hone, hfaults, hnone, List.append_assoc]
    exact ⟨rfl, rfl⟩

/-- **Markup is read back.** Let storyboards that are well formed and have distinct names be written
in some layout that keeps the lines of two narrations apart. What is read from the asset is those
storyboards, in their order and each under its name, without a warning. -/
theorem Report.ofAsset_written (asset : String) (hlayout : layout.Separates)
    {boards : List Storyboard} (hboards : ∀ b ∈ boards, b.WellFormed s)
    (hdistinct : (boards.map Storyboard.id).Nodup) :
    let report := Report.ofAsset s asset (written layout boards)
    report.storyboards.entries = boards.map (fun b => (b.id, b)) ∧ report.warnings = [] := by
  intro report
  let sections := Section.ofLines (Line.ofAsset (written layout boards))
  -- Numbers do not matter, so the lines may be taken without them.
  have hsections : sections.map (Section.renumber fun _ => 0) =
      boards.map fun b => .board (Line.starting b) (Item.ofBoard layout.collapsed b) := by
    rw [← Section.ofLines_renumber, Line.ofAsset_boardLines hboards,
      Section.ofLines_boardLines hlayout.collapsed hboards]
  have hadded : addSections s asset ∅ (sections.map (Section.renumber fun _ => 0)) = _ :=
    addSections_renumber (fun _ => 0) ∅ sections
  have hnew : ((∅ : Keyed Storyboard).keys ++ boards.map Storyboard.id).Nodup := hdistinct
  obtain ⟨hentries, hfaults⟩ := addSections_written layout.collapsed asset hboards hnew
  rw [← hsections, hadded] at hentries hfaults
  refine ⟨hentries, ?_⟩
  have hnone : (addSections s asset ∅ sections).2 = [] := List.map_eq_nil_iff.mp hfaults
  exact List.map_eq_nil_iff.mpr hnone

/-- A storyboard with a panel of every kind. -/
theorem Report.ofAsset_written_inn :
    let fee : StatChange := ⟨.money, ⟨-3, by decide, by decide⟩, true⟩
    let inn : Storyboard :=
      { id := "Inn"
        properties := ⟨[("cosy", "yes")], by decide⟩
        panels := [
          ⟨∅, .narration "Rain.\nA light." { statChanges := [fee], sessionTraits := ["wet"] }⟩,
          ⟨∅, .decision "Go in?" [⟨"Yes", "data:tale-Hall", some "money > 1", 0⟩]⟩,
          ⟨⟨[("merge", "")], by decide⟩, .branch [⟨"data:tale-Inn", none, 0⟩]⟩] }
    let layout : Layout := ⟨fun _ => 1, false⟩
    let report := Report.ofAsset {} "tale" (written layout [inn])
    (boardLines layout inn).map String.ofList =
        [">>Inn", "^&cosy=yes", "|Rain.", "|A light.", ":MONEY+-3 session+\"wet\"", "", "?Go in?",
          "[money > 1]", "-0-Yes-<data:tale-Hall", "", "&merge=", "-0-<data:tale-Inn", ""] ∧
      report.storyboards.entries = [("Inn", inn)] ∧ report.warnings = [] := by
  intro fee inn layout report
  have hinn : inn.WellFormed {} := by decide +kernel
  have hlayout : layout.Separates := Or.inl fun _ _ => Nat.one_pos
  refine ⟨by decide +kernel, ?_⟩
  exact Report.ofAsset_written "tale" hlayout (List.forall_mem_singleton.mpr hinn)
    (List.nodup_singleton _)

end Markup

end Adventure
