import Adventure.Markup.Report

/-!
Where the parts of a report come from: every storyboard is made of the items of one section, every
panel of one item, and all that is wrong with such an item is among the warnings
(`Report.exists_item_of_panel`).
-/

namespace Adventure

/-- What is in a table after a value was put into it was there before, or is the value. -/
theorem Keyed.mem_entries_insert {α : Type} {t : Keyed α} {key : String} {value : α}
    {e : String × α} (h : e ∈ (t.insert key value).entries) : e = (key, value) ∨ e ∈ t.entries := by
  have hentries : ∀ es : List (String × α), e ∈ insertEntry key value es →
      e = (key, value) ∨ e ∈ es := by
    intro es he
    induction es with
    | nil => exact Or.inl (List.mem_singleton.mp he)
    | cons e' es ih =>
      rw [insertEntry] at he
      split at he
      · rcases List.mem_cons.mp he with he | he
        · exact Or.inl he
        · exact Or.inr (List.mem_cons_of_mem e' he)
      · rcases List.mem_cons.mp he with he | he
        · exact Or.inr (he ▸ List.mem_cons_self)
        · rcases ih he with he | he
          · exact Or.inl he
          · exact Or.inr (List.mem_cons_of_mem e' he)
  exact hentries t.entries h

/-- A new name comes last. -/
theorem Keyed.entries_insert_of_not_mem {α : Type} {t : Keyed α} {key : String} {value : α}
    (h : key ∉ t.keys) : (t.insert key value).entries = t.entries ++ [(key, value)] := by
  have hentries : ∀ es : List (String × α), key ∉ es.map Prod.fst →
      insertEntry key value es = es ++ [(key, value)] := by
    intro es hes
    induction es with
    | nil => rfl
    | cons e es ih =>
      rw [List.map_cons, List.mem_cons, not_or] at hes
      rw [insertEntry, if_neg (Ne.symm hes.1), ih hes.2, List.cons_append]
  exact hentries t.entries h

namespace Markup

variable {s : Settings} {asset : String}

/-- Every panel is made of an item. -/
theorem exists_item_of_mem_panelsOf {waiting : Waiting} {items : List Item} {p : Panel}
    (h : p ∈ (panelsOf s asset waiting items).1) :
    ∃ item ∈ items, item.body? s asset = some p.body := by
  fun_induction panelsOf s asset waiting items with
  | case1 waiting => cases h
  | case2 waiting l rest ih =>
    obtain ⟨item, hitem, hbody⟩ := ih h
    exact ⟨item, List.mem_cons_of_mem _ hitem, hbody⟩
  | case3 waiting item rest hprop body hbody panels left hrest ih =>
    rcases List.mem_cons.mp h with rfl | h
    · exact ⟨item, List.mem_cons_self, hbody⟩
    · rw [hrest] at ih
      obtain ⟨item', hitem, hbody'⟩ := ih h
      exact ⟨item', List.mem_cons_of_mem _ hitem, hbody'⟩
  | case4 waiting item rest hprop hbody ih =>
    obtain ⟨item', hitem, hbody'⟩ := ih h
    exact ⟨item', List.mem_cons_of_mem _ hitem, hbody'⟩

/-- Every storyboard was there before, or is made of the items of a section whose faults are all
told. -/
theorem exists_items_of_mem_addSections {boards : Keyed Storyboard} {sections : List Section}
    {name : String} {board : Storyboard}
    (h : (name, board) ∈ (addSections s asset boards sections).1.entries) :
    (name, board) ∈ boards.entries ∨ ∃ items, board = boardOf s asset name items ∧
      ∀ f ∈ boardFaults s asset items, f ∈ (addSections s asset boards sections).2 := by
  fun_induction addSections s asset boards sections with
  | case1 boards => exact Or.inl h
  | case2 boards l rest all faults hrest ih =>
    rw [hrest] at ih
    rcases ih h with h | ⟨items, hboard, hfaults⟩
    · exact Or.inl h
    · exact Or.inr ⟨items, hboard, fun f hf => List.mem_cons_of_mem _ (hfaults f hf)⟩
  | case3 boards start items rest name' hused all faults hrest ih =>
    rw [hrest] at ih
    rcases ih h with h | ⟨items', hboard, hfaults⟩
    · exact Or.inl h
    · exact Or.inr ⟨items', hboard, fun f hf => List.mem_cons_of_mem _ (hfaults f hf)⟩
  | case4 boards start items rest name' hnew all faults hrest ih =>
    rw [hrest] at ih
    rcases ih h with h | ⟨items', hboard, hfaults⟩
    · rcases Keyed.mem_entries_insert h with h | h
      · obtain ⟨hname, hboard⟩ := Prod.mk.inj h
        rw [← hname] at hboard
        exact Or.inr ⟨items, hboard, fun f hf => List.mem_append_left _ hf⟩
      · exact Or.inl h
    · exact Or.inr ⟨items', hboard, fun f hf => List.mem_append_right _ (hfaults f hf)⟩

/-- **Every panel of a report is made of an item, and all that is wrong with the item is told.** -/
theorem Report.exists_item_of_panel {text name : String} {board : Storyboard} {p : Panel}
    (hboard : (name, board) ∈ (Report.ofAsset s asset text).storyboards.entries)
    (hp : p ∈ board.panels) :
    ∃ item : Item, item.body? s asset = some p.body ∧ ∀ f ∈ item.faults s asset,
      ⟨asset, f.1, f.2⟩ ∈ (Report.ofAsset s asset text).warnings := by
  rcases exists_items_of_mem_addSections hboard with hnone | ⟨items, rfl, hfaults⟩
  · cases hnone
  · obtain ⟨item, hitem, hbody⟩ := exists_item_of_mem_panelsOf hp
    refine ⟨item, hbody, ?_⟩
    intro f hf
    have hitems : f ∈ items.flatMap (Item.faults s asset) :=
      List.mem_flatMap.mpr ⟨item, hitem, hf⟩
    exact List.mem_map.mpr ⟨f, hfaults f (List.mem_append_left _ hitems), rfl⟩

end Markup

end Adventure
