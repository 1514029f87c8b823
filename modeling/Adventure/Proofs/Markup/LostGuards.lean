import Adventure.Proofs.Markup.Guards
import Adventure.Proofs.Markup.Kept

/-!
Guards that come to nothing. A guard that was read and guards no option in the end is told of, by a
warning about its line or about the option line below it, with one exception: a guard that is left
over behind a blank line where a branch was expected, with no option line below it
(`Report.guard_told_iff`). Of such a guard nothing is told unless it is checked and cannot be parsed.
That no other warning is about its line follows from `Section.nodup_numbers`.
-/

namespace Adventure.Markup

/-! ### Guards that were read -/

/-- The guard of an entry, with the option line below it. -/
def Entry.guards (e : Entry) : List (Guard × Option Line) :=
  match e.bracket with
  | .guard g => [(g, some e.line)]
  | _ => []

/-- The guard that is left over, with the option line below it if there is one. -/
def Leftover.guards (l : Leftover) : List (Guard × Option Line) :=
  match l.bracket with
  | .guard g => [(g, l.line)]
  | _ => []

/-- The guards that were read with an item, each with the option line below it if there is one. -/
def Item.guards : Item → List (Guard × Option Line)
  | decision _ entries => entries.flatMap Entry.guards
  | branch entries => entries.flatMap Entry.guards
  | refused entries leftover => entries.flatMap Entry.guards ++ leftover.guards
  | _ => []

/-- Whether a guard became that of an option on one of some panels: on the panel that its item makes,
of the option that the line below it makes. -/
def Item.Stores (s : Settings) (asset : String) (panels : List Panel) (item : Item) (g : Guard)
    (below : Option Line) : Prop :=
  ∃ line ∈ below, ∃ p ∈ panels, item.body? s asset = some p.body ∧
    ((∃ prompt options, p.body = .decision prompt options ∧ ∃ o ∈ options,
        Entry.decisionOption? asset ⟨.guard g, line⟩ = some o ∧ o.guard = some g.text) ∨
      ∃ options, p.body = .branch options ∧ ∃ o ∈ options,
        Entry.branchOption? asset ⟨.guard g, line⟩ = some o ∧ o.guard = some g.text)

/-- Whether an item drops a guard without a word: nothing is wrong with the guard itself, but it is
left over behind a blank line, with no option line below it. -/
def Item.Drops (s : Settings) (g : Guard) (below : Option Line) : Item → Prop
  | refused _ leftover => below = none ∧ leftover = ⟨false, .guard g, none⟩ ∧
      (s.validateConditions = true → ∃ t, Condition.parse g.text = .ok t)
  | _ => False

variable {s : Settings} {asset : String}

theorem Entry.bracket_of_mem_guards {e : Entry} {g : Guard} {below : Option Line}
    (h : (g, below) ∈ e.guards) : e = ⟨.guard g, e.line⟩ ∧ below = some e.line := by
  obtain ⟨bracket, line⟩ := e
  cases bracket with
  | guard g' =>
    cases List.mem_singleton.mp h
    exact ⟨rfl, rfl⟩
  | _ => cases h

theorem Leftover.bracket_of_mem_guards {l : Leftover} {g : Guard} {below : Option Line}
    (h : (g, below) ∈ l.guards) : l = ⟨l.atFront, .guard g, below⟩ := by
  obtain ⟨atFront, bracket, line⟩ := l
  cases bracket with
  | guard g' =>
    cases List.mem_singleton.mp h
    rfl
  | _ => cases h

/-! ### Guards that are told of -/

/-- Whether some faults tell of a guard, by its line or by the line below it. -/
def TellsOf (faults : List (List Nat × Fault)) (g : Guard) (below : Option Line) : Prop :=
  ∃ f ∈ faults, g.line ∈ f.1 ∨ ∃ l ∈ below, l.number ∈ f.1

theorem TellsOf.mono {xs ys : List (List Nat × Fault)} {g : Guard} {below : Option Line}
    (hsub : ∀ f ∈ xs, f ∈ ys) (h : TellsOf xs g below) : TellsOf ys g below := by
  obtain ⟨f, hf, hlists⟩ := h
  exact ⟨f, hsub f hf, hlists⟩

/-- An entry has the shape of a branch option that can be used exactly when it makes one. -/
theorem Entry.isBranchOption_eq (asset : String) (e : Entry) :
    e.isBranchOption = (e.branchOption? asset).isSome := by
  rw [isBranchOption, branchOption?]
  cases OptionParts.ofBranch? e.line.text with
  | none => rfl
  | some parts =>
    rw [Option.bind_some, Option.isSome_map]

section Options

variable {entries : List Entry} {e : Entry} {g : Guard} {below : Option Line} {panels : List Panel}

/-- An option of a decision is made, or its line is told of. -/
theorem Item.stores_or_tellsOf_decision {prompt : List Line}
    (hpanels : ∃ p ∈ panels, (decision prompt entries).body? s asset = some p.body)
    (he : e ∈ entries) (hg : (g, below) ∈ e.guards) :
    (decision prompt entries).Stores s asset panels g below ∨
      TellsOf ((decision prompt entries).faults s asset) g below := by
  obtain ⟨heq, rfl⟩ := Entry.bracket_of_mem_guards hg
  cases hoption : e.decisionOption? asset with
  | some o =>
    left
    obtain ⟨p, hp, hbody⟩ := hpanels
    refine ⟨e.line, rfl, p, hp, hbody, Or.inl ⟨_, _, (Option.some.inj hbody).symm, o,
      List.mem_filterMap.mpr ⟨e, he, hoption⟩, ?_, ?_⟩⟩
    · rw [← heq]
      exact hoption
    · rw [Entry.guard_of_decisionOption? hoption, heq]
      rfl
  | none =>
    right
    have hfault : ([e.line.number], Fault.malformedDecision e.line.string) ∈
        decisionFaults s asset e := by
      rw [decisionFaults, hoption]
      exact List.mem_append_right _ (List.mem_singleton_self _)
    have hentries := List.mem_flatMap.mpr ⟨e, he, hfault⟩
    exact ⟨_, List.mem_append_left _ (List.mem_append_right _ hentries),
      Or.inr ⟨e.line, rfl, List.mem_singleton_self _⟩⟩

theorem Item.mem_branchFaults (h : e.branchOption? asset = none) :
    ([e.line.number], Fault.malformedBranch e.line.string) ∈ branchFaults s asset e := by
  rw [branchFaults, h]
  exact List.mem_append_right _ (List.mem_singleton_self _)

/-- An option of a branch is made, or its line is told of. -/
theorem Item.stores_or_tellsOf_branch
    (hpanels : ∃ p ∈ panels, (branch entries).body? s asset = some p.body)
    (he : e ∈ entries) (hg : (g, below) ∈ e.guards) :
    (branch entries).Stores s asset panels g below ∨
      TellsOf ((branch entries).faults s asset) g below := by
  obtain ⟨heq, rfl⟩ := Entry.bracket_of_mem_guards hg
  cases hoption : e.branchOption? asset with
  | some o =>
    left
    obtain ⟨p, hp, hbody⟩ := hpanels
    refine ⟨e.line, rfl, p, hp, hbody, Or.inr ⟨_, (Option.some.inj hbody).symm, o,
      List.mem_filterMap.mpr ⟨e, he, hoption⟩, ?_, ?_⟩⟩
    · rw [← heq]
      exact hoption
    · rw [Entry.guard_of_branchOption? hoption, heq]
      rfl
  | none =>
    exact Or.inr ⟨_, List.mem_flatMap.mpr ⟨e, he, mem_branchFaults hoption⟩,
      Or.inr ⟨e.line, rfl, List.mem_singleton_self _⟩⟩

end Options

/-- What is left over is told of, unless it is dropped. -/
theorem Leftover.tellsOf {l : Leftover} {g : Guard} {below : Option Line}
    (hg : (g, below) ∈ l.guards) (entries : List Entry)
    (h : ¬(Item.refused entries l).Drops s g below) : TellsOf (l.faults s asset) g below := by
  rw [bracket_of_mem_guards hg] at h ⊢
  cases below with
  | some line =>
    -- Whatever the shape of the option line, the fault is about it.
    rw [faults]
    simp only
    split
    · exact ⟨_, List.mem_append_right _ (List.mem_singleton_self _),
        Or.inr ⟨line, rfl, List.mem_singleton_self _⟩⟩
    · exact ⟨_, List.mem_append_right _ (List.mem_singleton_self _),
        Or.inr ⟨line, rfl, List.mem_singleton_self _⟩⟩
  | none =>
    cases hfront : l.atFront with
    | true =>
      exact ⟨_, List.mem_append_right _ (List.mem_singleton_self _),
        Or.inl (List.mem_singleton_self _)⟩
    | false =>
      rw [hfront] at h
      have hchecked : ¬(s.validateConditions = true → ∃ t, Condition.parse g.text = .ok t) :=
        fun hok => h ⟨rfl, rfl, hok⟩
      rw [Classical.not_imp] at hchecked
      obtain ⟨hs, hbroken⟩ := hchecked
      cases hparse : Condition.parse g.text with
      | ok t => exact absurd ⟨t, hparse⟩ hbroken
      | error e =>
        refine ⟨([g.line], .invalidCondition g.text e), List.mem_append_left _ ?_,
          Or.inl (List.mem_singleton_self _)⟩
        rw [Bracket.faults, if_pos hs, hparse]
        exact List.mem_singleton_self _

/-- Options are refused only where none of them can be used. -/
def Item.Unusable : Item → Prop
  | refused entries _ => entries.any Entry.isBranchOption = false
  | _ => True

theorem Item.unusable_of_mem_read {item : Item} {l : Line} {rest : List Line}
    (h : (read l rest).1 = some item) : item.Unusable := by
  unfold read at h
  split at h
  · cases h
  · cases h
  · cases h
    trivial
  · cases h
    trivial
  · cases h
    trivial
  · cases h
    trivial
  · cases husable : (takeEntries branchAccepts (l :: rest)).1.any Entry.isBranchOption with
    | true =>
      rw [readBranch_of_usable husable] at h
      cases h
      trivial
    | false =>
      rw [readBranch_of_unusable husable] at h
      cases h
      exact husable
  · cases h
    trivial

theorem Section.unusable_of_mem_ofLines {start : Line} {items : List Item} {lines : List Line}
    (h : board start items ∈ ofLines lines) : ∀ item ∈ items, item.Unusable := by
  intro item hitem
  obtain ⟨l, rest, -, hread⟩ := exists_read_of_mem_ofLines h hitem
  exact Item.unusable_of_mem_read hread

/-- A guard that was read with an item becomes that of an option, is told of, or is dropped. -/
theorem Item.stores_or_tellsOf {panels : List Panel} {item : Item} (hitem : item.Unusable)
    (hpanels : ∀ body, item.body? s asset = some body → ∃ p ∈ panels, p.body = body) {g : Guard}
    {below : Option Line} (hg : (g, below) ∈ item.guards) (h : ¬item.Drops s g below) :
    item.Stores s asset panels g below ∨ TellsOf (item.faults s asset) g below := by
  cases item with
  | decision prompt entries =>
    obtain ⟨p, hp, hbody⟩ := hpanels _ rfl
    obtain ⟨e, he, hg⟩ := List.mem_flatMap.mp hg
    exact stores_or_tellsOf_decision ⟨p, hp, congrArg some hbody.symm⟩ he hg
  | branch entries =>
    obtain ⟨p, hp, hbody⟩ := hpanels _ rfl
    obtain ⟨e, he, hg⟩ := List.mem_flatMap.mp hg
    exact stores_or_tellsOf_branch ⟨p, hp, congrArg some hbody.symm⟩ he hg
  | refused entries leftover =>
    right
    rcases List.mem_append.mp hg with hg | hg
    · obtain ⟨e, he, hg⟩ := List.mem_flatMap.mp hg
      obtain ⟨-, rfl⟩ := Entry.bracket_of_mem_guards hg
      have hnone : e.branchOption? asset = none := by
        have hunusable := List.any_eq_false.mp hitem e he
        rw [Entry.isBranchOption_eq asset] at hunusable
        simpa using hunusable
      exact ⟨_, List.mem_append_left _ (List.mem_flatMap.mpr ⟨e, he, mem_branchFaults hnone⟩),
        Or.inr ⟨e.line, rfl, List.mem_singleton_self _⟩⟩
    · exact (Leftover.tellsOf hg entries h).mono fun f hf => List.mem_append_right _ hf
  | _ => cases hg

theorem Item.below_of_drops {item : Item} {g : Guard} {below : Option Line}
    (h : item.Drops s g below) : below = none := by
  cases item with
  | refused entries leftover => exact h.1
  | _ => cases h

/-- A guard that is dropped is a line of its item, and the item lists no fault there. -/
theorem Item.not_listed_of_drops (asset : String) {item : Item} {g : Guard} {below : Option Line}
    (hnodup : item.numbers.Nodup) (h : item.Drops s g below) :
    g.line ∈ item.numbers ∧ g.line ∉ item.listed s asset := by
  cases item with
  | refused entries leftover =>
    obtain ⟨-, rfl, hparse⟩ := h
    have hmem : g.line ∈ Leftover.numbers ⟨false, .guard g, none⟩ := List.mem_singleton_self _
    have hnone : Leftover.faults s asset ⟨false, .guard g, none⟩ = [] := by
      rw [Leftover.faults, Bracket.faults]
      split
      · rename_i hs
        obtain ⟨t, ht⟩ := hparse hs
        rw [ht]
        rfl
      · rfl
    refine ⟨List.mem_append_right _ hmem, ?_⟩
    intro hlisted
    rw [listed, faults, hnone, List.append_nil] at hlisted
    · obtain ⟨f, hf, hn⟩ := List.mem_flatMap.mp hlisted
      exact List.disjoint_of_nodup_append hnodup (mem_numbers_of_branchFaults hf hn) hmem
    · intro l hl
      cases hl
  | _ => cases h

/-! ### Reports -/

/-- **Which guards are lost.** The storyboards of a report are those that are kept. A guard that was
read with one of their items becomes the guard of an option that is stored, or else it is told of, by
a warning that lists the line on which it starts or the line of the option below it, exactly if the
item does not drop it. -/
theorem Report.guard_told_iff (s : Settings) (asset text : String) :
    let report := Report.ofAsset s asset text
    let kept := Section.kept asset [] (Section.ofLines (Line.ofAsset text))
    let made := fun b : Line × List Item => boardOf s asset (boardName asset b.1) b.2
    report.storyboards.entries = kept.map (fun b => (boardName asset b.1, made b)) ∧
      ∀ b ∈ kept, ∀ item ∈ b.2, ∀ g below, (g, below) ∈ item.guards →
        item.Stores s asset (made b).panels g below ∨
          ((∃ w ∈ report.warnings, g.line ∈ w.lines ∨ ∃ l ∈ below, l.number ∈ w.lines) ↔
            ¬item.Drops s g below) := by
  intro report kept made
  obtain ⟨hentries, hfaults⟩ :=
    addSections_kept s asset ∅ (Section.ofLines (Line.ofAsset text))
  refine ⟨hentries, ?_⟩
  intro b hb item hitem g below hg
  have hboard := Section.mem_of_mem_kept hb
  have hunusable := Section.unusable_of_mem_ofLines hboard item hitem
  have hpanels : ∀ body, item.body? s asset = some body → ∃ p ∈ (made b).panels, p.body = body :=
    fun body hbody => exists_panel_of_mem hitem hbody {}
  by_cases hdrops : item.Drops s g below
  · -- The guard is dropped: nothing lists its line, and there is no option below it.
    right
    refine iff_of_false ?_ (not_not_intro hdrops)
    rintro ⟨w, hw, hlists⟩
    obtain ⟨f, hf, rfl⟩ := List.mem_map.mp hw
    have hnodup := Section.nodup_numbers text
    have hown : item.numbers.Nodup :=
      (List.nodup_flatMap.mp (List.nodup_cons.mp
        ((List.nodup_flatMap.mp hnodup).1 _ hboard)).2).1 item hitem
    obtain ⟨hmem, hnot⟩ := Item.not_listed_of_drops asset hown hdrops
    rcases hlists with hline | ⟨l, hl, -⟩
    · exact Section.not_listed hnodup hboard hitem hmem hnot
        (mem_listed_of_mem_addSections hf hline)
    · rw [Item.below_of_drops hdrops] at hl
      cases hl
  · rcases Item.stores_or_tellsOf hunusable hpanels hg hdrops with hstores | ⟨f, hf, hlists⟩
    · exact Or.inl hstores
    · right
      refine iff_of_true ⟨⟨asset, f.1, f.2⟩, ?_, hlists⟩ hdrops
      have htold : f ∈ boardFaults s asset b.2 :=
        List.mem_append_left _ (List.mem_flatMap.mpr ⟨item, hitem, hf⟩)
      exact List.mem_map.mpr ⟨f, hfaults b hb f htold, rfl⟩

/-- A guard that stands right behind a broken option is told of. -/
theorem Report.guard_told_iff_behind_option :
    let report := Report.ofAsset {} "inn" ">>s\n-x\n[str > 1]\n|Hi\n"
    (∃ w ∈ report.warnings, 3 ∈ w.lines) ∧
      report.warnings = [⟨"inn", [2], .malformedBranch "-x"⟩, ⟨"inn", [3], .danglingCondition⟩] := by
  intro report
  constructor
  · let start : Line := ⟨1, ">>s".toList⟩
    let item : Item :=
      .refused [⟨.absent, ⟨2, "-x".toList⟩⟩] ⟨true, .guard ⟨3, "str > 1"⟩, none⟩
    have hkept : (start, [item, .narration [⟨4, "|Hi".toList⟩] []]) ∈
        Section.kept "inn" [] (Section.ofLines
          (Line.ofAsset ">>s\n-x\n[str > 1]\n|Hi\n")) := by
      decide +kernel
    have hitem : item ∈ [item, .narration [⟨4, "|Hi".toList⟩] []] := List.mem_cons_self
    have hguard : (⟨3, "str > 1"⟩, none) ∈ item.guards := List.mem_singleton_self _
    rcases (Report.guard_told_iff {} "inn" _).2 _ hkept item hitem _ _ hguard with hstores | htold
    · obtain ⟨line, hline, -⟩ := hstores
      cases hline
    · have hkeeps : ¬item.Drops {} ⟨3, "str > 1"⟩ none := by
        rintro ⟨-, hleft, -⟩
        cases hleft
      obtain ⟨w, hw, hlists⟩ := htold.mpr hkeeps
      rcases hlists with hlists | ⟨l, hl, -⟩
      · exact ⟨w, hw, hlists⟩
      · cases hl
  · decide +kernel

/-- With a blank line in between it is lost: nothing is told of it, and no option is stored. -/
theorem Report.guard_untold :
    let text := ">>s\n-x\n\n[str > 1]\n|Hi\n"
    ∃ b ∈ Section.kept "inn" [] (Section.ofLines (Line.ofAsset text)), ∃ item ∈ b.2,
      ∃ g below, (g, below) ∈ item.guards ∧
        ¬item.Stores {} "inn" (boardOf {} "inn" (boardName "inn" b.1) b.2).panels g below ∧
        ∀ w ∈ (Report.ofAsset {} "inn" text).warnings,
          g.line ∉ w.lines ∧ ∀ l ∈ below, l.number ∉ w.lines := by
  intro text
  let item : Item :=
    .refused [⟨.absent, ⟨2, "-x".toList⟩⟩] ⟨false, .guard ⟨4, "str > 1"⟩, none⟩
  have hkept : (⟨1, ">>s".toList⟩, [item, .narration [⟨5, "|Hi".toList⟩] []]) ∈
      Section.kept "inn" [] (Section.ofLines (Line.ofAsset text)) := by
    decide +kernel
  have hwarnings : (Report.ofAsset {} "inn" text).warnings =
      [⟨"inn", [2], .malformedBranch "-x"⟩] := by
    decide +kernel
  refine ⟨_, hkept, item, List.mem_cons_self, ⟨4, "str > 1"⟩, none, List.mem_singleton_self _,
    ?_, ?_⟩
  · rintro ⟨line, hline, -⟩
    cases hline
  · rw [hwarnings]
    decide

end Adventure.Markup
