import Adventure.Proofs.Markup.Report
import Adventure.Proofs.Play.Options

/-!
Guards that are checked when an asset is read cannot fail when it is played.

A guard that cannot be parsed is told of wherever its option is kept (`Item.exists_fault_of_guard`),
and guards that can be parsed can be evaluated on any game data, so that the options of a panel can
be chosen from (`resolveBranch_ok`, `availableDecisions_ok`). `Report.guards_checked` puts the two
together.
-/

namespace Adventure

/-- The guards of the options of a panel. -/
def PanelBody.guards : PanelBody → List String
  | narration _ _ => []
  | decision _ options => options.filterMap DecisionOption.guard
  | branch options => options.filterMap BranchOption.guard

/-! ### Guards that can be parsed -/

namespace Play

/-- A guard that can be parsed can be evaluated, and so can a missing one. -/
theorem evaluateGuard_ok {guard : Option String}
    (h : ∀ c, guard = some c → ∃ t, Condition.parse c = .ok t) (d : GameData) :
    ∃ isOpen, Condition.evaluateGuard guard d = .ok isOpen := by
  cases guard with
  | none => exact ⟨true, rfl⟩
  | some c =>
    obtain ⟨t, ht⟩ := h c rfl
    rw [Condition.evaluateGuard, Option.getD_some, Condition.evaluate, ht]
    split
    · exact ⟨true, rfl⟩
    · exact ⟨t.holds d, rfl⟩

/-- A branch can be resolved when all its guards can be evaluated. -/
theorem resolveBranch_ok {d : GameData} {options : List BranchOption}
    (h : ∀ o ∈ options, ∃ isOpen, Condition.evaluateGuard o.guard d = .ok isOpen) :
    ∃ taken, resolveBranch d options = .ok taken :=
  ⟨_, resolveBranch_eq_ok h⟩

/-- The open decisions can be found when all guards can be evaluated. -/
theorem availableDecisions_ok {d : GameData} {options : List DecisionOption}
    (h : ∀ o ∈ options, ∃ isOpen, Condition.evaluateGuard o.guard d = .ok isOpen) :
    ∃ available, availableDecisions d options = .ok available :=
  ⟨_, availableDecisions_eq_ok h⟩

end Play

/-! ### Guards that cannot be parsed -/

namespace Markup

variable {s : Settings} {asset : String}

/-- A guard that cannot be parsed is a fault of its bracket. -/
theorem Bracket.exists_fault_of_guard (hs : s.validateConditions = true) {b : Bracket} {c : String}
    {e : Condition.Error} (hguard : b.guard? = some c) (he : Condition.parse c = .error e) :
    ∃ line, ([line], .invalidCondition c e) ∈ b.faults s := by
  cases b with
  | guard g =>
    cases hguard
    refine ⟨g.line, ?_⟩
    rw [faults, if_pos hs, he]
    exact List.mem_singleton_self _
  | _ => cases hguard

/-- The option of a decision has the guard that stands above it. -/
theorem Entry.guard_of_decisionOption? {e : Entry} {o : DecisionOption}
    (h : e.decisionOption? asset = some o) : o.guard = e.bracket.guard? := by
  unfold decisionOption? at h
  split at h
  · cases h
  · obtain ⟨p, -, rfl⟩ := Option.map_eq_some_iff.mp h
    rfl

/-- The option of a branch has the guard that stands above it. -/
theorem Entry.guard_of_branchOption? {e : Entry} {o : BranchOption}
    (h : e.branchOption? asset = some o) : o.guard = e.bracket.guard? := by
  unfold branchOption? at h
  split at h
  · cases h
  · obtain ⟨p, -, rfl⟩ := Option.map_eq_some_iff.mp h
    rfl

/-- Every guard of a panel stands above an option of the item that the panel is made of, and the
faults of its bracket are faults of the item. -/
theorem Item.exists_entry_of_guard {item : Item} {body : PanelBody} {c : String}
    (hbody : item.body? s asset = some body) (hc : c ∈ body.guards) :
    ∃ b : Bracket, b.guard? = some c ∧ ∀ f ∈ b.faults s, f ∈ item.faults s asset := by
  cases item with
  | narration lines effects =>
    cases hbody
    cases hc
  | decision prompt entries =>
    cases hbody
    obtain ⟨o, ho, hguard⟩ := List.mem_filterMap.mp hc
    obtain ⟨e, he, hoption⟩ := List.mem_filterMap.mp ho
    rw [Entry.guard_of_decisionOption? hoption] at hguard
    refine ⟨e.bracket, hguard, ?_⟩
    intro f hf
    have hentry : f ∈ decisionFaults s asset e := List.mem_append_left _ hf
    apply List.mem_append_left
    apply List.mem_append_right
    exact List.mem_flatMap.mpr ⟨e, he, hentry⟩
  | branch entries =>
    cases hbody
    obtain ⟨o, ho, hguard⟩ := List.mem_filterMap.mp hc
    obtain ⟨e, he, hoption⟩ := List.mem_filterMap.mp ho
    rw [Entry.guard_of_branchOption? hoption] at hguard
    refine ⟨e.bracket, hguard, ?_⟩
    intro f hf
    have hentry : f ∈ branchFaults s asset e := List.mem_append_left _ hf
    exact List.mem_flatMap.mpr ⟨e, he, hentry⟩
  | _ => cases hbody

/-- A kept guard that cannot be parsed is told of, with its text and its error. -/
theorem Report.exists_warning_of_guard (hs : s.validateConditions = true) {text name c : String}
    {board : Storyboard} {p : Panel} {e : Condition.Error}
    (hboard : (name, board) ∈ (Report.ofAsset s asset text).storyboards.entries)
    (hp : p ∈ board.panels) (hc : c ∈ p.body.guards) (he : Condition.parse c = .error e) :
    ∃ line, ⟨asset, [line], .invalidCondition c e⟩ ∈ (Report.ofAsset s asset text).warnings := by
  obtain ⟨item, hbody, hfaults⟩ := Report.exists_item_of_panel hboard hp
  obtain ⟨b, hguard, hitem⟩ := Item.exists_entry_of_guard hbody hc
  obtain ⟨line, hline⟩ := b.exists_fault_of_guard hs hguard he
  exact ⟨line, hfaults _ (hitem _ hline)⟩

/-- **Guards that are checked cannot fail.** Where the settings have guards checked, each guard of an
option that is kept and cannot be parsed is told of, with its text and its error. So if no warning is
about a guard, every branch can be resolved and the open decisions of every panel can be found,
whatever the game data. -/
theorem Report.guards_checked (hs : s.validateConditions = true) (asset text : String) :
    let report := Report.ofAsset s asset text
    (∀ name board, (name, board) ∈ report.storyboards.entries → ∀ p ∈ board.panels,
      ∀ c ∈ p.body.guards, ∀ e, Condition.parse c = .error e →
        ∃ line, ⟨asset, [line], .invalidCondition c e⟩ ∈ report.warnings) ∧
    ((∀ w ∈ report.warnings, ∀ c e, w.fault ≠ .invalidCondition c e) →
      ∀ name board, (name, board) ∈ report.storyboards.entries → ∀ p ∈ board.panels,
        ∀ d : GameData,
          (∀ prompt options, p.body = .decision prompt options →
            ∃ available, Play.availableDecisions d options = .ok available) ∧
          (∀ options, p.body = .branch options →
            ∃ taken, Play.resolveBranch d options = .ok taken)) := by
  intro report
  have hwarned : ∀ name board, (name, board) ∈ report.storyboards.entries → ∀ p ∈ board.panels,
      ∀ c ∈ p.body.guards, ∀ e, Condition.parse c = .error e →
        ∃ line, ⟨asset, [line], .invalidCondition c e⟩ ∈ report.warnings := by
    intro name board hboard p hp c hc e he
    exact Report.exists_warning_of_guard hs hboard hp hc he
  constructor
  · exact hwarned
  intro hnone name board hboard p hp d
  -- Without a warning about it, a guard must be one that can be parsed.
  have hparse : ∀ c ∈ p.body.guards, ∃ t, Condition.parse c = .ok t := by
    intro c hc
    cases hresult : Condition.parse c with
    | ok t => exact ⟨t, rfl⟩
    | error e =>
      obtain ⟨line, hline⟩ := hwarned name board hboard p hp c hc e hresult
      exact absurd rfl (hnone _ hline c e)
  constructor
  · intro prompt options hbody
    rw [hbody] at hparse
    apply Play.availableDecisions_ok
    intro o ho
    apply Play.evaluateGuard_ok
    intro c hc
    exact hparse c (List.mem_filterMap.mpr ⟨o, ho, hc⟩)
  · intro options hbody
    rw [hbody] at hparse
    apply Play.resolveBranch_ok
    intro o ho
    apply Play.evaluateGuard_ok
    intro c hc
    exact hparse c (List.mem_filterMap.mpr ⟨o, ho, hc⟩)

/-- A guarded decision and a guarded branch that can be played on any game data. -/
theorem Report.guards_checked_inn :
    let report := Report.ofAsset {} "inn"
      ">>Door\n?Where to?\n[party money > 10]\n-1-Inn-<Inn\n[strength > 3]\n-1-<Hall"
    report.storyboards.entries.map (fun b => b.2.panels.map fun p => p.body.guards) =
        [[["party money > 10"], ["strength > 3"]]] ∧
      ∀ name board, (name, board) ∈ report.storyboards.entries → ∀ p ∈ board.panels,
        ∀ d : GameData,
          (∀ prompt options, p.body = .decision prompt options →
            ∃ available, Play.availableDecisions d options = .ok available) ∧
          (∀ options, p.body = .branch options →
            ∃ taken, Play.resolveBranch d options = .ok taken) := by
  intro report
  have hwarnings : report.warnings = [] := by decide +kernel
  constructor
  · decide +kernel
  · apply (Report.guards_checked rfl "inn" _).2
    intro w hw
    rw [hwarnings] at hw
    cases hw

end Markup

end Adventure
