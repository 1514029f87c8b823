import Adventure.Proofs.Markup.Kept
import Adventure.Proofs.Markup.Marks

/-!
Warnings point at the right lines. A fault is about lines of the asset, in order, that start with a
mark of its kind (`Section.pointsAt_of_mem_faults`), and a fault that quotes a line is about that
line alone. Lines of panel properties that wait for a panel are carried along as a sublist of the
lines that were read. With the numbers of the lines this says where every warning of a report stands
in the text (`Report.warnings_placedIn`).
-/

namespace Adventure.Markup

open scoped List

/-! ### Faults and their lines -/

/-- The marks of the lines that a fault is about. Any line may be outside of all storyboards, or not
be recognized. -/
def Fault.marks : Fault → List String
  | duplicateStoryboard _ => [">>"]
  | outsideStoryboard _ => [""]
  | invalidProperty _ => ["&", "^&"]
  | unusedPanelProperties => ["&"]
  | invalidStat _ => [":"]
  | invalidStatValue _ => [":"]
  | unknownTraitScope _ => [":"]
  | tooManyNarrationLines _ => ["|"]
  | tooManyPromptLines _ => ["?"]
  | emptyDecision => ["?"]
  | malformedDecision _ => ["-"]
  | malformedBranch _ => ["-"]
  | orphanOption _ => ["-"]
  | danglingCondition => ["["]
  | unclosedCondition => ["["]
  | invalidCondition _ _ => ["["]
  | unrecognizedLine _ => [""]

/-- The line that a fault quotes, if it quotes one. -/
def Fault.quoted? : Fault → Option String
  | outsideStoryboard line => some line
  | invalidProperty line => some line
  | malformedDecision line => some line
  | malformedBranch line => some line
  | orphanOption line => some line
  | unrecognizedLine line => some line
  | _ => none

/-- Whether some lines are those that a fault is about: there are any, all have a mark of the fault,
and a line that is quoted is the only one. -/
structure Fault.IsAbout (fault : Fault) (ls : List Line) : Prop where
  nonempty : ls ≠ []
  marked : ∀ l ∈ ls, ∃ mark ∈ fault.marks, l.HasMark mark
  quoted : ∀ line ∈ fault.quoted?, ∃ l, ls = [l] ∧ l.string = line

/-- Whether a fault is told at lines that it is about, in their order among all lines. -/
def PointsAt (lines : List Line) (f : List Nat × Fault) : Prop :=
  ∃ ls, ls <+ lines ∧ f.1 = numbersOf ls ∧ f.2.IsAbout ls

variable {lines : List Line}

/-- A fault may point at one line, and then it may quote it. -/
theorem pointsAt_singleton {l : Line} {fault : Fault} {mark : String} (hl : l ∈ lines)
    (hmark : l.HasMark mark) (hfault : mark ∈ fault.marks)
    (hquoted : fault.quoted? = none ∨ fault.quoted? = some l.string) :
    PointsAt lines ([l.number], fault) := by
  refine ⟨[l], List.singleton_sublist.mpr hl, rfl, List.cons_ne_nil _ _, ?_, ?_⟩
  · intro l' hl'
    rw [List.mem_singleton.mp hl']
    exact ⟨mark, hfault, hmark⟩
  · intro line hline
    rcases hquoted with hnone | hsome
    · rw [hnone] at hline
      cases hline
    · exact ⟨l, rfl, Option.some.inj (hsome.symm.trans hline)⟩

/-! ### Faults point at their lines -/

section Faults

variable {s : Settings} {asset : String} {f : List Nat × Fault}

/-- What is wrong with a guard is told at the line on which its bracket starts. -/
theorem Bracket.PlacedOn.pointsAt {b : Bracket} (h : b.PlacedOn lines) {n : Nat}
    (hn : n ∈ b.numbers) {fault : Fault} (hmark : "[" ∈ fault.marks)
    (hquoted : fault.quoted? = none) : PointsAt lines ([n], fault) := by
  obtain ⟨l, hl, rfl, hmarked⟩ := h n hn
  exact pointsAt_singleton hl hmarked hmark (Or.inl hquoted)

theorem Bracket.PlacedOn.pointsAt_of_mem_faults {b : Bracket} (h : b.PlacedOn lines)
    (hf : f ∈ b.faults s) : PointsAt lines f := by
  cases b with
  | unclosed line =>
    rw [List.mem_singleton.mp hf]
    exact h.pointsAt (List.mem_singleton_self _) (List.mem_singleton_self _) rfl
  | guard g =>
    rw [faults] at hf
    split at hf
    · split at hf
      · cases hf
      · rw [List.mem_singleton.mp hf]
        exact h.pointsAt (List.mem_singleton_self _) (List.mem_singleton_self _) rfl
    · cases hf
  | _ => cases hf

theorem Leftover.PlacedOn.pointsAt_of_mem_faults {l : Leftover} (h : l.PlacedOn lines)
    (hf : f ∈ l.faults s asset) : PointsAt lines f := by
  obtain ⟨atFront, bracket, line⟩ := l
  obtain ⟨hbracket, hline⟩ := h
  rcases List.mem_append.mp hf with hf | hf
  · exact hbracket.pointsAt_of_mem_faults hf
  · cases line with
    | some line =>
      obtain ⟨hmem, hmarked⟩ := hline line rfl
      simp only at hf
      split at hf
      · rw [List.mem_singleton.mp hf]
        exact pointsAt_singleton hmem hmarked (List.mem_singleton_self _) (Or.inr rfl)
      · rw [List.mem_singleton.mp hf]
        exact pointsAt_singleton hmem hmarked (List.mem_singleton_self _) (Or.inr rfl)
    | none =>
      cases bracket with
      | guard g =>
        simp only at hf
        split at hf
        · rw [List.mem_singleton.mp hf]
          exact hbracket.pointsAt (List.mem_singleton_self _) (List.mem_singleton_self _) rfl
        · cases hf
      | _ => cases hf

/-- What is wrong with an entry is told of its bracket, or of its option line, which is quoted. -/
theorem Entry.PlacedOn.pointsAt_of_mem {e : Entry} (h : e.PlacedOn lines) {usable : Bool}
    {fault : Fault} (hmark : "-" ∈ fault.marks) (hquoted : fault.quoted? = some e.line.string)
    (hf : f ∈ e.bracket.faults s ++ if usable then [] else [([e.line.number], fault)]) :
    PointsAt lines f := by
  obtain ⟨hbracket, hmem, hmarked⟩ := h
  rcases List.mem_append.mp hf with hf | hf
  · exact hbracket.pointsAt_of_mem_faults hf
  · split at hf
    · cases hf
    · rw [List.mem_singleton.mp hf]
      exact pointsAt_singleton hmem hmarked hmark (Or.inr hquoted)

namespace Item

theorem pointsAt_of_mem_decisionFaults {entries : List Entry}
    (h : ∀ e ∈ entries, e.PlacedOn lines) (hf : f ∈ entries.flatMap (decisionFaults s asset)) :
    PointsAt lines f := by
  obtain ⟨e, he, hf⟩ := List.mem_flatMap.mp hf
  exact (h e he).pointsAt_of_mem (List.mem_singleton_self _) rfl hf

theorem pointsAt_of_mem_branchFaults {entries : List Entry} (h : ∀ e ∈ entries, e.PlacedOn lines)
    (hf : f ∈ entries.flatMap (branchFaults s asset)) : PointsAt lines f := by
  obtain ⟨e, he, hf⟩ := List.mem_flatMap.mp hf
  exact (h e he).pointsAt_of_mem (List.mem_singleton_self _) rfl hf

theorem pointsAt_of_mem_overflow {limit : Nat} {fault : Fault} {mark : String} {ls : List Line}
    (h : MarkedAmong lines mark ls) (hmark : mark ∈ fault.marks) (hquoted : fault.quoted? = none)
    (hf : f ∈ overflow limit fault ls) : PointsAt lines f := by
  obtain ⟨l, hl, rfl⟩ := List.mem_map.mp hf
  have hmem : l ∈ ls := List.mem_of_mem_drop hl
  exact pointsAt_singleton (h.1.subset hmem) (h.2 l hmem) hmark (Or.inl hquoted)

theorem pointsAt_of_mem_propertyFaults {l : Line} {mark : String} (hl : l ∈ lines)
    (hmarked : l.HasMark mark) (hmark : mark ∈ ["&", "^&"]) (hf : f ∈ propertyFaults l) :
    PointsAt lines f := by
  rw [propertyFaults] at hf
  split at hf
  · cases hf
  · rw [List.mem_singleton.mp hf]
    exact pointsAt_singleton hl hmarked hmark (Or.inr rfl)

/-- Where there are no effect lines, nothing is wrong with them. -/
theorem issues_nil : (Effect.ofLine (effectText [])).2 = [] := by
  have htext : (effectText []).toList = [] := rfl
  simp [Effect.ofLine, htext, Effect.statFinds, Effect.traitFinds, Effect.issuesOf]

/-- What is wrong with effect lines is told at all of them. -/
theorem pointsAt_of_mem_issues {effects : List Line} (h : MarkedAmong lines ":" effects)
    {i : Effect.Issue} (hi : i ∈ (Effect.ofLine (effectText effects)).2) :
    PointsAt lines (effects.map Line.number, Fault.ofIssue i) := by
  have hmark : ":" ∈ (Fault.ofIssue i).marks ∧ (Fault.ofIssue i).quoted? = none := by
    cases i <;> exact ⟨List.mem_singleton_self _, rfl⟩
  refine ⟨effects, h.1, rfl, ?_, ?_, ?_⟩
  · rintro rfl
    rw [issues_nil] at hi
    cases hi
  · intro l hl
    exact ⟨":", hmark.1, h.2 l hl⟩
  · rw [hmark.2]
    intro line hnone
    cases hnone

/-- **The faults of an item point at lines with their marks.** -/
theorem pointsAt_of_mem_faults {item : Item} (h : item.PlacedOn lines)
    (hf : f ∈ item.faults s asset) : PointsAt lines f := by
  cases item with
  | boardProperty l => exact pointsAt_of_mem_propertyFaults h.1 h.2 (by decide) hf
  | panelProperty l => exact pointsAt_of_mem_propertyFaults h.1 h.2 (by decide) hf
  | narration texts effects =>
    rcases List.mem_append.mp hf with hf | hf
    · exact pointsAt_of_mem_overflow h.1 (List.mem_singleton_self _) rfl hf
    · obtain ⟨i, hi, rfl⟩ := List.mem_map.mp hf
      exact pointsAt_of_mem_issues h.2 hi
  | decision prompt entries =>
    obtain ⟨hne, hprompt, hentries⟩ := h
    rcases List.mem_append.mp hf with hf | hf
    · rcases List.mem_append.mp hf with hf | hf
      · exact pointsAt_of_mem_overflow hprompt (List.mem_singleton_self _) rfl hf
      · exact pointsAt_of_mem_decisionFaults hentries hf
    · split at hf
      · rw [List.mem_singleton.mp hf]
        obtain ⟨l, more, rfl⟩ := List.exists_cons_of_ne_nil hne
        exact pointsAt_singleton (hprompt.1.subset List.mem_cons_self)
          (hprompt.2 l List.mem_cons_self) (List.mem_singleton_self _) (Or.inl rfl)
      · cases hf
  | branch entries => exact pointsAt_of_mem_branchFaults h hf
  | refused entries leftover =>
    rcases List.mem_append.mp hf with hf | hf
    · exact pointsAt_of_mem_branchFaults h.1 hf
    · exact h.2.pointsAt_of_mem_faults hf
  | other l =>
    rw [List.mem_singleton.mp hf]
    exact pointsAt_singleton h l.hasMark_empty (List.mem_singleton_self _) (Or.inr rfl)

end Item

/-! ### Panel properties -/

/-- Whether the lines that wait are some lines, and without lines no properties wait. -/
def Waiting.IsOf (ls : List Line) (w : Waiting) : Prop :=
  w.lines = numbersOf ls ∧ (ls = [] → w.properties.isEmpty = true)

theorem Waiting.isOf_empty : ({} : Waiting).IsOf [] := ⟨rfl, fun _ => rfl⟩

theorem Waiting.IsOf.add {ls : List Line} {w : Waiting} (h : w.IsOf ls) (l : Line) :
    (w.add l).IsOf (ls ++ [l]) := by
  refine ⟨?_, fun hnil => absurd hnil (by simp)⟩
  rw [Waiting.add, h.1, numbersOf, numbersOf, List.map_append]
  rfl

/-- What waits at the end are lines that waited before and lines of panel properties, in order. -/
theorem isOf_left {waiting : Waiting} {held : List Line} (h : waiting.IsOf held)
    (items : List Item) :
    ∃ ls, ls <+ held ++ items.flatMap Item.waitingLines ∧
      (panelsOf s asset waiting items).2.IsOf ls := by
  fun_induction panelsOf s asset waiting items generalizing held with
  | case1 waiting => exact ⟨held, List.sublist_append_left _ _, h⟩
  | case2 waiting l rest ih =>
    obtain ⟨ls, hls, hof⟩ := ih (h.add l)
    rw [List.append_assoc] at hls
    exact ⟨ls, hls, hof⟩
  | case3 waiting item rest hprop body hbody panels left hrest ih =>
    rw [hrest] at ih
    obtain ⟨ls, hls, hof⟩ := ih Waiting.isOf_empty
    refine ⟨ls, hls.trans ?_, hof⟩
    exact (List.sublist_append_right _ _).trans (List.sublist_append_right _ _)
  | case4 waiting item rest hprop hbody ih =>
    obtain ⟨ls, hls, hof⟩ := ih h
    exact ⟨ls, hls.trans ((List.sublist_append_right _ _).append_left _), hof⟩

/-! ### Parts of an asset -/

theorem pointsAt_of_mem_boardFaults {items : List Item}
    (hitems : ∀ item ∈ items, item.PlacedOn lines)
    (hwaiting : items.flatMap Item.waitingLines <+ lines) (hf : f ∈ boardFaults s asset items) :
    PointsAt lines f := by
  rcases List.mem_append.mp hf with hf | hf
  · obtain ⟨item, hitem, hf⟩ := List.mem_flatMap.mp hf
    exact Item.pointsAt_of_mem_faults (hitems item hitem) hf
  · split at hf
    · cases hf
    · rename_i hunused
      rw [List.mem_singleton.mp hf]
      obtain ⟨ls, hls, hnumbers, hempty⟩ := isOf_left (s := s) Waiting.isOf_empty items
      rw [List.nil_append] at hls
      refine ⟨ls, hls.trans hwaiting, hnumbers, ?_, ?_, ?_⟩
      · intro hnil
        exact hunused (hempty hnil)
      · intro l hl
        obtain ⟨item, hitem, hl⟩ := List.mem_flatMap.mp (hls.subset hl)
        refine ⟨"&", List.mem_singleton_self _, ?_⟩
        cases item with
        | panelProperty l' =>
          rw [List.mem_singleton.mp hl]
          exact (hitems _ hitem).2
        | _ => cases hl
      · intro line hnone
        cases hnone

/-- **What is told of an asset points at its lines.** -/
theorem Section.pointsAt_of_mem_faults {used : List String} {sections : List Section}
    (h : ∀ part ∈ sections, part.PlacedOn lines) (hf : f ∈ faults s asset used sections) :
    PointsAt lines f := by
  fun_induction faults s asset used sections with
  | case1 => cases hf
  | case2 used l rest ih =>
    obtain ⟨hl, hrest⟩ := List.forall_mem_cons.mp h
    rcases List.mem_cons.mp hf with rfl | hf
    · exact pointsAt_singleton hl l.hasMark_empty (List.mem_singleton_self _) (Or.inr rfl)
    · exact ih hrest hf
  | case3 used start items rest hused ih =>
    obtain ⟨⟨hstart, hmarked, -⟩, hrest⟩ := List.forall_mem_cons.mp h
    rcases List.mem_cons.mp hf with rfl | hf
    · exact pointsAt_singleton hstart hmarked (List.mem_singleton_self _) (Or.inl rfl)
    · exact ih hrest hf
  | case4 used start items rest hnew ih =>
    obtain ⟨⟨-, -, hitems, hwaiting⟩, hrest⟩ := List.forall_mem_cons.mp h
    rcases List.mem_append.mp hf with hf | hf
    · exact pointsAt_of_mem_boardFaults hitems hwaiting hf
    · exact ih hrest hf

end Faults

/-! ### Assets -/

/-- Whether a warning points at lines of a text: at one or more, in order, each of which starts with
a mark of the fault once it is trimmed, and at one alone that it quotes. -/
structure Warning.PlacedIn (text : String) (w : Warning) : Prop where
  nonempty : w.lines ≠ []
  increasing : w.lines.Pairwise (· < ·)
  marked : ∀ n ∈ w.lines, ∃ i raw, n = i + 1 ∧ (Text.lines text.toList)[i]? = some raw ∧
    ∃ mark ∈ w.fault.marks, mark.toList <+: Text.trim raw
  quoted : ∀ line ∈ w.fault.quoted?, ∃ i raw, w.lines = [i + 1] ∧
    (Text.lines text.toList)[i]? = some raw ∧ String.ofList (Text.trim raw) = line

/-- **Warnings point at the right lines.** Every warning about an asset lists lines of the asset, at
least one, in order. Each of them, trimmed, starts with the mark of what the warning is about, and
where the warning quotes a line it is the one line that it lists. -/
theorem Report.warnings_placedIn (s : Settings) (asset text : String) :
    ∀ w ∈ (Report.ofAsset s asset text).warnings, w.PlacedIn text := by
  intro w hw
  obtain ⟨⟨ns, fault⟩, hf, rfl⟩ := List.mem_map.mp hw
  rw [addSections_faults] at hf
  have hplaced := Section.placedOn_ofLines (List.suffix_refl (Line.ofAsset text))
  obtain ⟨ls, hls, hnumbers, habout⟩ := Section.pointsAt_of_mem_faults hplaced hf
  simp only at hnumbers habout
  have hrange : ns <+ List.range' 1 (Text.lines text.toList).length := by
    rw [hnumbers]
    exact (hls.map Line.number).trans (Line.numbersOf_ofAsset text)
  refine ⟨?_, ?_, ?_, ?_⟩
  · intro hnil
    exact habout.nonempty (List.map_eq_nil_iff.mp (hnumbers.symm.trans hnil))
  · exact List.Pairwise.sublist hrange List.pairwise_lt_range'
  · intro n hn
    rw [hnumbers] at hn
    obtain ⟨l, hl, rfl⟩ := List.mem_map.mp hn
    obtain ⟨i, raw, hnumber, hraw, htext⟩ := Line.exists_of_mem_counting (hls.subset hl)
    obtain ⟨mark, hmark, hprefix⟩ := habout.marked l hl
    exact ⟨i, raw, hnumber, hraw, mark, hmark, htext ▸ hprefix⟩
  · intro line hline
    obtain ⟨l, rfl, hstring⟩ := habout.quoted line hline
    obtain ⟨i, raw, hnumber, hraw, htext⟩ :=
      Line.exists_of_mem_counting (hls.subset List.mem_cons_self)
    refine ⟨i, raw, ?_, hraw, ?_⟩
    · rw [← hnumber]
      exact hnumbers
    · rw [← htext]
      exact hstring

/-- Two effect lines with a comment between them are told of together, and a broken option is told
of on its own line. -/
theorem Report.warnings_placedIn_effects :
    let text := ">>s\n|Hi\n:luk+1\n# a comment\n\n  :strength+1\n -x\n"
    let effects : Warning := ⟨"inn", [3, 6], .invalidStat "luk"⟩
    let option : Warning := ⟨"inn", [7], .malformedBranch "-x"⟩
    (Report.ofAsset {} "inn" text).warnings = [effects, option] ∧
      effects.PlacedIn text ∧ option.PlacedIn text := by
  intro text effects option
  have hwarnings : (Report.ofAsset {} "inn" text).warnings = [effects, option] := by
    decide +kernel
  have heffects : effects ∈ (Report.ofAsset {} "inn" text).warnings :=
    hwarnings ▸ List.mem_cons_self
  have hoption : option ∈ (Report.ofAsset {} "inn" text).warnings :=
    hwarnings ▸ List.mem_cons_of_mem _ List.mem_cons_self
  exact ⟨hwarnings, Report.warnings_placedIn {} "inn" text effects heffects,
    Report.warnings_placedIn {} "inn" text option hoption⟩

end Adventure.Markup
