import Adventure.Proofs.Markup.Numbers
import Adventure.Proofs.Markup.Report
import Mathlib.Data.List.Pairwise

/-!
What a report is made of. Its storyboards are those of the sections that are kept, of every name the
first, each made of the items of its section, and with their faults among those that are told
(`addSections_kept`). What is told in all depends on the sections and the names used before them
(`addSections_faults`). A fault is about lines of the section and the item that it is a fault of, so
that a line on which an item lists no fault is listed nowhere (`Section.not_listed`).
-/

namespace Adventure.Markup

/-- The storyboards that are kept, each by the line that starts it and its items: of every name that
is not used yet the first. -/
def Section.kept (asset : String) (used : List String) : List Section → List (Line × List Item)
  | [] => []
  | .stray _ :: rest => kept asset used rest
  | .board start items :: rest =>
    if boardName asset start ∈ used then kept asset used rest
    else (start, items) :: kept asset (used ++ [boardName asset start]) rest

/-- The faults of the parts of an asset: those of the storyboards that are kept, and of each other
part the one that it is left out for. -/
def Section.faults (s : Settings) (asset : String) (used : List String) :
    List Section → List (List Nat × Fault)
  | [] => []
  | .stray l :: rest => ([l.number], .outsideStoryboard l.string) :: faults s asset used rest
  | .board start items :: rest =>
    if boardName asset start ∈ used then
      ([start.number], .duplicateStoryboard (boardName asset start)) :: faults s asset used rest
    else boardFaults s asset items ++ faults s asset (used ++ [boardName asset start]) rest

variable {s : Settings} {asset : String}

/-! ### Storyboards that are kept -/

theorem Section.mem_of_mem_kept {used : List String} {sections : List Section}
    {b : Line × List Item} (h : b ∈ kept asset used sections) : board b.1 b.2 ∈ sections := by
  fun_induction kept asset used sections with
  | case1 => cases h
  | case2 used l rest ih => exact List.mem_cons_of_mem _ (ih h)
  | case3 used start items rest hused ih => exact List.mem_cons_of_mem _ (ih h)
  | case4 used start items rest hnew ih =>
    rcases List.mem_cons.mp h with rfl | h
    · exact List.mem_cons_self
    · exact List.mem_cons_of_mem _ (ih h)

/-- **A report has the storyboards that are kept.** -/
theorem addSections_kept (s : Settings) (asset : String) (boards : Keyed Storyboard)
    (sections : List Section) :
    (addSections s asset boards sections).1.entries =
        boards.entries ++ (Section.kept asset boards.keys sections).map
          (fun b => (boardName asset b.1, boardOf s asset (boardName asset b.1) b.2)) ∧
      ∀ b ∈ Section.kept asset boards.keys sections, ∀ f ∈ boardFaults s asset b.2,
        f ∈ (addSections s asset boards sections).2 := by
  fun_induction addSections s asset boards sections with
  | case1 boards =>
    refine ⟨(List.append_nil _).symm, ?_⟩
    intro b hb
    cases hb
  | case2 boards l rest all faults hrest ih =>
    rw [hrest] at ih
    obtain ⟨hentries, hfaults⟩ := ih
    rw [Section.kept]
    exact ⟨hentries, fun b hb f hf => List.mem_cons_of_mem _ (hfaults b hb f hf)⟩
  | case3 boards start items rest name hused all faults hrest ih =>
    rw [hrest] at ih
    obtain ⟨hentries, hfaults⟩ := ih
    rw [Section.kept, if_pos (List.contains_iff_mem.mp hused)]
    exact ⟨hentries, fun b hb f hf => List.mem_cons_of_mem _ (hfaults b hb f hf)⟩
  | case4 boards start items rest name hnew all faults hrest ih =>
    have hname : name ∉ boards.keys := fun h => hnew (List.contains_iff_mem.mpr h)
    rw [hrest, Keyed.keys_insert, if_neg hname, Keyed.entries_insert_of_not_mem hname,
      List.append_assoc] at ih
    obtain ⟨hentries, hfaults⟩ := ih
    rw [Section.kept, if_neg hname]
    refine ⟨hentries, ?_⟩
    intro b hb f hf
    rcases List.mem_cons.mp hb with rfl | hb
    · exact List.mem_append_left _ hf
    · exact List.mem_append_right _ (hfaults b hb f hf)

/-- The storyboards of a report, by their names. -/
theorem Report.entries_storyboards (s : Settings) (asset text : String) :
    (Report.ofAsset s asset text).storyboards.entries =
      (Section.kept asset [] (Section.ofLines (Line.ofAsset text))).map
        (fun b => (boardName asset b.1, boardOf s asset (boardName asset b.1) b.2)) :=
  (addSections_kept s asset ∅ _).1

/-- What is told of an asset depends on storyboards that were read before by their names alone. -/
theorem addSections_faults (s : Settings) (asset : String) (boards : Keyed Storyboard)
    (sections : List Section) :
    (addSections s asset boards sections).2 = Section.faults s asset boards.keys sections := by
  fun_induction addSections s asset boards sections with
  | case1 boards => rfl
  | case2 boards l rest all faults hrest ih =>
    rw [hrest] at ih
    rw [Section.faults, ← ih]
  | case3 boards start items rest name hused all faults hrest ih =>
    rw [hrest] at ih
    rw [Section.faults, if_pos (List.contains_iff_mem.mp hused), ← ih]
  | case4 boards start items rest name hnew all faults hrest ih =>
    have hname : name ∉ boards.keys := fun h => hnew (List.contains_iff_mem.mpr h)
    rw [hrest, Keyed.keys_insert, if_neg hname] at ih
    rw [Section.faults, if_neg hname, ← ih]

/-- Every item that makes a panel makes one of the storyboard. -/
theorem exists_panel_of_mem {items : List Item} {item : Item} {body : PanelBody}
    (hitem : item ∈ items) (hbody : item.body? s asset = some body) (waiting : Waiting) :
    ∃ p ∈ (panelsOf s asset waiting items).1, p.body = body := by
  fun_induction panelsOf s asset waiting items with
  | case1 => cases hitem
  | case2 waiting l rest ih =>
    rcases List.mem_cons.mp hitem with rfl | hitem
    · cases hbody
    · exact ih hitem
  | case3 waiting item' rest hprop body' hbody' panels left hrest ih =>
    rw [hrest] at ih
    rcases List.mem_cons.mp hitem with rfl | hitem
    · rw [hbody] at hbody'
      cases hbody'
      exact ⟨_, List.mem_cons_self, rfl⟩
    · obtain ⟨p, hp, hpbody⟩ := ih hitem
      exact ⟨p, List.mem_cons_of_mem _ hp, hpbody⟩
  | case4 waiting item' rest hprop hnone ih =>
    rcases List.mem_cons.mp hitem with rfl | hitem
    · rw [hbody] at hnone
      cases hnone
    · exact ih hitem

/-! ### Lines that faults are about -/

/-- The numbers that the faults of an item list. A line of panel properties may be listed when no
panel follows. -/
def Item.listed (s : Settings) (asset : String) : Item → List Nat
  | panelProperty l => [l.number]
  | item => (item.faults s asset).flatMap Prod.fst

/-- The numbers that the faults of a part of an asset list. -/
def Section.listed (s : Settings) (asset : String) : Section → List Nat
  | board start items => start.number :: items.flatMap (Item.listed s asset)
  | stray l => [l.number]

variable {f : List Nat × Fault} {n : Nat}

theorem Bracket.mem_numbers_of_fault {b : Bracket} (hf : f ∈ b.faults s) (hn : n ∈ f.1) :
    n ∈ b.numbers := by
  cases b with
  | unclosed line =>
    cases List.mem_singleton.mp hf
    exact hn
  | guard g =>
    rw [faults] at hf
    split at hf
    · split at hf
      · cases hf
      · cases List.mem_singleton.mp hf
        exact hn
    · cases hf
  | _ => cases hf

theorem Item.mem_numbers_of_decisionFault {e : Entry} (hf : f ∈ decisionFaults s asset e)
    (hn : n ∈ f.1) : n ∈ e.numbers := by
  rcases List.mem_append.mp hf with hf | hf
  · exact List.mem_append_left _ (Bracket.mem_numbers_of_fault hf hn)
  · split at hf
    · cases hf
    · cases List.mem_singleton.mp hf
      exact List.mem_append_right _ hn

theorem Item.mem_numbers_of_branchFault {e : Entry} (hf : f ∈ branchFaults s asset e)
    (hn : n ∈ f.1) : n ∈ e.numbers := by
  rcases List.mem_append.mp hf with hf | hf
  · exact List.mem_append_left _ (Bracket.mem_numbers_of_fault hf hn)
  · split at hf
    · cases hf
    · cases List.mem_singleton.mp hf
      exact List.mem_append_right _ hn

theorem Item.mem_numbers_of_branchFaults {entries : List Entry}
    (hf : f ∈ entries.flatMap (branchFaults s asset)) (hn : n ∈ f.1) :
    n ∈ entries.flatMap Entry.numbers := by
  obtain ⟨e, he, hf⟩ := List.mem_flatMap.mp hf
  exact List.mem_flatMap.mpr ⟨e, he, mem_numbers_of_branchFault hf hn⟩

theorem Leftover.mem_numbers_of_fault {l : Leftover} (hf : f ∈ l.faults s asset) (hn : n ∈ f.1) :
    n ∈ l.numbers := by
  obtain ⟨atFront, bracket, line⟩ := l
  rcases List.mem_append.mp hf with hf | hf
  · exact List.mem_append_left _ (Bracket.mem_numbers_of_fault hf hn)
  · cases line with
    | some line =>
      simp only at hf
      split at hf
      · cases List.mem_singleton.mp hf
        exact List.mem_append_right _ hn
      · cases List.mem_singleton.mp hf
        exact List.mem_append_right _ hn
    | none =>
      cases bracket with
      | guard g =>
        simp only at hf
        split at hf
        · cases List.mem_singleton.mp hf
          exact List.mem_append_left _ hn
        · cases hf
      | _ => cases hf

theorem Item.mem_numbers_of_overflow {limit : Nat} {fault : Fault} {lines : List Line}
    (hf : f ∈ overflow limit fault lines) (hn : n ∈ f.1) : n ∈ numbersOf lines := by
  obtain ⟨l, hl, rfl⟩ := List.mem_map.mp hf
  rw [List.mem_singleton.mp hn]
  exact List.mem_map.mpr ⟨l, List.mem_of_mem_drop hl, rfl⟩

theorem Item.mem_numbers_of_propertyFault {l : Line} (hf : f ∈ propertyFaults l) (hn : n ∈ f.1) :
    n ∈ [l.number] := by
  rw [propertyFaults] at hf
  split at hf
  · cases hf
  · cases List.mem_singleton.mp hf
    exact hn

/-- The faults of an item are about its own lines. -/
theorem Item.mem_numbers_of_fault {item : Item} (hf : f ∈ item.faults s asset) (hn : n ∈ f.1) :
    n ∈ item.numbers := by
  cases item with
  | boardProperty l => exact mem_numbers_of_propertyFault hf hn
  | panelProperty l => exact mem_numbers_of_propertyFault hf hn
  | narration lines effects =>
    rcases List.mem_append.mp hf with hf | hf
    · exact List.mem_append_left _ (mem_numbers_of_overflow hf hn)
    · obtain ⟨issue, -, rfl⟩ := List.mem_map.mp hf
      exact List.mem_append_right _ hn
  | decision prompt entries =>
    rcases List.mem_append.mp hf with hf | hf
    · rcases List.mem_append.mp hf with hf | hf
      · exact List.mem_append_left _ (mem_numbers_of_overflow hf hn)
      · obtain ⟨e, he, hf⟩ := List.mem_flatMap.mp hf
        exact List.mem_append_right _
          (List.mem_flatMap.mpr ⟨e, he, mem_numbers_of_decisionFault hf hn⟩)
    · split at hf
      · cases List.mem_singleton.mp hf
        obtain ⟨l, hl, rfl⟩ := List.mem_map.mp hn
        exact List.mem_append_left _ (List.mem_map.mpr ⟨l, List.mem_of_mem_take hl, rfl⟩)
      · cases hf
  | branch entries => exact mem_numbers_of_branchFaults hf hn
  | refused entries leftover =>
    rcases List.mem_append.mp hf with hf | hf
    · exact List.mem_append_left _ (mem_numbers_of_branchFaults hf hn)
    · exact List.mem_append_right _ (Leftover.mem_numbers_of_fault hf hn)
  | other l =>
    cases List.mem_singleton.mp hf
    exact hn

theorem Item.listed_subset (item : Item) : item.listed s asset ⊆ item.numbers := by
  intro n hn
  cases item with
  | panelProperty l => exact hn
  | _ =>
    obtain ⟨f, hf, hn⟩ := List.mem_flatMap.mp hn
    exact mem_numbers_of_fault hf hn

theorem Item.mem_listed_of_fault {item : Item} (hf : f ∈ item.faults s asset) (hn : n ∈ f.1) :
    n ∈ item.listed s asset := by
  cases item with
  | panelProperty l => exact mem_numbers_of_propertyFault hf hn
  | _ => exact List.mem_flatMap.mpr ⟨f, hf, hn⟩

theorem Section.listed_subset (part : Section) : part.listed s asset ⊆ part.numbers := by
  cases part with
  | board start items =>
    apply List.cons_subset_cons
    intro n hn
    obtain ⟨item, hitem, hn⟩ := List.mem_flatMap.mp hn
    exact List.mem_flatMap.mpr ⟨item, hitem, item.listed_subset hn⟩
  | stray l => exact List.Subset.refl _

/-- Lines that wait at the end waited before, or are listed by the items. -/
theorem mem_listed_of_mem_left {waiting : Waiting} {items : List Item}
    (h : n ∈ (panelsOf s asset waiting items).2.lines) :
    n ∈ waiting.lines ∨ n ∈ items.flatMap (Item.listed s asset) := by
  fun_induction panelsOf s asset waiting items with
  | case1 waiting => exact Or.inl h
  | case2 waiting l rest ih =>
    rw [List.flatMap_cons, List.mem_append]
    rcases ih h with h | h
    · rcases List.mem_append.mp h with h | h
      · exact Or.inl h
      · exact Or.inr (Or.inl h)
    · exact Or.inr (Or.inr h)
  | case3 waiting item rest hprop body hbody panels left hrest ih =>
    rw [hrest] at ih
    rcases ih h with h | h
    · cases h
    · exact Or.inr (List.mem_append_right _ h)
  | case4 waiting item rest hprop hbody ih =>
    rcases ih h with h | h
    · exact Or.inl h
    · exact Or.inr (List.mem_append_right _ h)

theorem mem_listed_of_boardFault {items : List Item} (hf : f ∈ boardFaults s asset items)
    (hn : n ∈ f.1) : n ∈ items.flatMap (Item.listed s asset) := by
  rcases List.mem_append.mp hf with hf | hf
  · obtain ⟨item, hitem, hf⟩ := List.mem_flatMap.mp hf
    exact List.mem_flatMap.mpr ⟨item, hitem, Item.mem_listed_of_fault hf hn⟩
  · split at hf
    · cases hf
    · cases List.mem_singleton.mp hf
      rcases mem_listed_of_mem_left hn with hn | hn
      · cases hn
      · exact hn

/-- Every fault that is told lists lines of the parts. -/
theorem mem_listed_of_mem_addSections {boards : Keyed Storyboard} {sections : List Section}
    (hf : f ∈ (addSections s asset boards sections).2) (hn : n ∈ f.1) :
    n ∈ sections.flatMap (Section.listed s asset) := by
  fun_induction addSections s asset boards sections with
  | case1 => cases hf
  | case2 boards l rest all faults hrest ih =>
    rw [hrest] at ih
    rcases List.mem_cons.mp hf with rfl | hf
    · exact List.mem_append_left _ hn
    · exact List.mem_append_right _ (ih hf)
  | case3 boards start items rest name hused all faults hrest ih =>
    rw [hrest] at ih
    rcases List.mem_cons.mp hf with rfl | hf
    · rw [List.mem_singleton.mp hn]
      exact List.mem_append_left _ List.mem_cons_self
    · exact List.mem_append_right _ (ih hf)
  | case4 boards start items rest name hnew all faults hrest ih =>
    rw [hrest] at ih
    rcases List.mem_append.mp hf with hf | hf
    · exact List.mem_append_left _ (List.mem_cons_of_mem _ (mem_listed_of_boardFault hf hn))
    · exact List.mem_append_right _ (ih hf)

/-- Where nothing comes twice, what a part has and does not list is not listed by any other part. -/
theorem not_mem_flatMap_of_nodup {α : Type} {parts : List α} {has lists : α → List Nat}
    (hnodup : (parts.flatMap has).Nodup) (hsub : ∀ x ∈ parts, lists x ⊆ has x) {x : α}
    (hx : x ∈ parts) (hn : n ∈ has x) (hlists : n ∉ lists x) : n ∉ parts.flatMap lists := by
  intro hmem
  obtain ⟨y, hy, hny⟩ := List.mem_flatMap.mp hmem
  have hne : x ≠ y := by
    rintro rfl
    exact hlists hny
  have hsymm : Std.Symm (Function.onFun List.Disjoint has) := ⟨fun _ _ h => List.disjoint_symm h⟩
  have hapart := (List.nodup_flatMap.mp hnodup).2.forall hx hy hne
  exact hapart hn (hsub y hy hny)

/-- **A line that its own item does not list is not listed at all.** -/
theorem Section.not_listed {sections : List Section} (hnodup : (sections.flatMap numbers).Nodup)
    {start : Line} {items : List Item} (hboard : board start items ∈ sections) {item : Item}
    (hitem : item ∈ items) (hn : n ∈ item.numbers) (hlists : n ∉ item.listed s asset) :
    n ∉ sections.flatMap (listed s asset) := by
  have hnumbers : n ∈ items.flatMap Item.numbers := List.mem_flatMap.mpr ⟨item, hitem, hn⟩
  have hown := (List.nodup_flatMap.mp hnodup).1 _ hboard
  rw [numbers, List.nodup_cons] at hown
  obtain ⟨hstart, hitems⟩ := hown
  apply not_mem_flatMap_of_nodup hnodup (fun part _ => part.listed_subset) hboard
  · exact List.mem_cons_of_mem _ hnumbers
  · rw [listed, List.mem_cons, not_or]
    constructor
    · rintro rfl
      exact hstart hnumbers
    · exact not_mem_flatMap_of_nodup hitems (fun item _ => item.listed_subset) hitem hn hlists

end Adventure.Markup
