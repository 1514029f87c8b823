import Adventure.Play.Choice
import Mathlib.Data.List.Basic

/-!
Branches and decisions under the same guards.

Both searches look at the guards in order. One stops at the first guard that holds, the other
collects all options whose guards hold, and both stop at a guard that cannot be evaluated. So the
branch that is taken is the first of the decisions that would be open, unless a guard before it fails
(`choices_agree`).
-/

namespace Adventure.Play

/-- Whether a guard can be evaluated. -/
def Evaluates (d : GameData) (guard : Option String) : Prop :=
  ∃ isOpen, Condition.evaluateGuard guard d = .ok isOpen

/-- Whether a guard can be evaluated and holds. -/
def holdsOn (d : GameData) (guard : Option String) : Bool :=
  match Condition.evaluateGuard guard d with
  | .ok isOpen => isOpen
  | .error _ => false

variable {d : GameData}

theorem evaluateGuard_eq_holdsOn {guard : Option String} (h : Evaluates d guard) :
    Condition.evaluateGuard guard d = .ok (holdsOn d guard) := by
  obtain ⟨isOpen, hopen⟩ := h
  rw [holdsOn, hopen]

/-- Options whose guards can all be evaluated, or a first one whose guard cannot. -/
theorem forall_evaluates_or {α : Type} (guard : α → Option String) (options : List α) :
    (∀ o ∈ options, Evaluates d (guard o)) ∨
      ∃ before o after e, options = before ++ o :: after ∧
        (∀ q ∈ before, Evaluates d (guard q)) ∧
        Condition.evaluateGuard (guard o) d = .error e := by
  induction options with
  | nil => exact .inl (List.forall_mem_nil _)
  | cons o rest ih =>
    cases ho : Condition.evaluateGuard (guard o) d with
    | error e => exact .inr ⟨[], o, rest, e, rfl, List.forall_mem_nil _, ho⟩
    | ok isOpen =>
      rcases ih with hrest | ⟨before, q, after, e, rfl, hbefore, hq⟩
      · exact .inl (List.forall_mem_cons.mpr ⟨⟨isOpen, ho⟩, hrest⟩)
      · exact .inr ⟨o :: before, q, after, e, rfl,
          List.forall_mem_cons.mpr ⟨⟨isOpen, ho⟩, hbefore⟩, hq⟩

/-- The options whose guards hold, in order. -/
def opened {α : Type} (d : GameData) (guard : α → Option String) (options : List α) : List α :=
  options.filter fun o => holdsOn d (guard o)

theorem opened_cons {α : Type} (guard : α → Option String) (o : α) (rest : List α) :
    opened d guard (o :: rest) =
      if holdsOn d (guard o) then o :: opened d guard rest else opened d guard rest :=
  List.filter_cons

/-- What options stand for may be looked at in their place if it has their guards. -/
theorem opened_map {α β : Type} {guard : α → Option String} {guard' : β → Option String} {f : α → β}
    {options : List α} (h : ∀ o ∈ options, guard' (f o) = guard o) :
    opened d guard' (options.map f) = (opened d guard options).map f := by
  rw [opened, opened, List.filter_map]
  congr 1
  refine List.filter_congr ?_
  intro o ho
  rw [Function.comp_apply, h o ho]

/-! ### The two searches -/

/-- Branches whose guards can be evaluated hand on to those behind them only if none is taken. -/
theorem resolveBranch_append {before : List BranchOption}
    (h : ∀ o ∈ before, Evaluates d o.guard) (rest : List BranchOption) :
    resolveBranch d (before ++ rest) =
      match (opened d BranchOption.guard before).head? with
      | some o => .ok (some o)
      | none => resolveBranch d rest := by
  induction before with
  | nil => rfl
  | cons o before ih =>
    obtain ⟨ho, hbefore⟩ := List.forall_mem_cons.mp h
    rw [List.cons_append, resolveBranch, evaluateGuard_eq_holdsOn ho, opened_cons]
    cases holdsOn d o.guard with
    | true => rfl
    | false => exact ih hbefore

/-- Decisions whose guards can be evaluated come before those that are open behind them. -/
theorem availableDecisions_append {before : List DecisionOption}
    (h : ∀ o ∈ before, Evaluates d o.guard) (rest : List DecisionOption) :
    availableDecisions d (before ++ rest) =
      (availableDecisions d rest).map (opened d DecisionOption.guard before ++ ·) := by
  induction before with
  | nil =>
    rw [List.nil_append]
    cases availableDecisions d rest <;> rfl
  | cons o before ih =>
    obtain ⟨ho, hbefore⟩ := List.forall_mem_cons.mp h
    rw [List.cons_append, availableDecisions, evaluateGuard_eq_holdsOn ho, ih hbefore, opened_cons]
    cases availableDecisions d rest with
    | error e => rfl
    | ok others => cases holdsOn d o.guard <;> rfl

/-- If all guards can be evaluated, the first branch whose guard holds is taken, or none. -/
theorem resolveBranch_eq_ok {options : List BranchOption}
    (h : ∀ o ∈ options, Evaluates d o.guard) :
    resolveBranch d options = .ok (opened d BranchOption.guard options).head? := by
  have htaken := resolveBranch_append h []
  rw [List.append_nil] at htaken
  rw [htaken]
  cases (opened d BranchOption.guard options).head? <;> rfl

/-- If all guards can be evaluated, the open decisions are those whose guards hold. -/
theorem availableDecisions_eq_ok {options : List DecisionOption}
    (h : ∀ o ∈ options, Evaluates d o.guard) :
    availableDecisions d options = .ok (opened d DecisionOption.guard options) := by
  have havailable := availableDecisions_append h []
  rw [List.append_nil] at havailable
  exact havailable.trans (congrArg Except.ok (List.append_nil _))

/-- A guard that cannot be evaluated ends the search for a branch. -/
theorem resolveBranch_of_error {o : BranchOption} {e : Condition.Error}
    (h : Condition.evaluateGuard o.guard d = .error e) (rest : List BranchOption) :
    resolveBranch d (o :: rest) = .error e := by
  rw [resolveBranch, h]
  rfl

/-- It also ends the search for open decisions. -/
theorem availableDecisions_of_error {o : DecisionOption} {e : Condition.Error}
    (h : Condition.evaluateGuard o.guard d = .error e) (rest : List DecisionOption) :
    availableDecisions d (o :: rest) = .error e := by
  rw [availableDecisions, h]
  rfl

/-! ### Decisions and branches side by side -/

section

variable {rows : List (DecisionOption × BranchOption)}

theorem evaluates_branches (hguards : ∀ r ∈ rows, r.1.guard = r.2.guard)
    (h : ∀ r ∈ rows, Evaluates d r.1.guard) : ∀ o ∈ rows.map Prod.snd, Evaluates d o.guard := by
  refine List.forall_mem_map.mpr ?_
  intro r hr
  exact hguards r hr ▸ h r hr

/-- **The branch that is taken is the first open decision.** Let decisions and branches have the same
guards. If the search for open decisions succeeds, every guard can be evaluated, the open decisions
are those whose guards hold, in order, and the branch beside the first of them is taken, or none. If
it fails, then with the error of the first guard that cannot be evaluated; the branch beside the
first guard before it that holds is taken, and if there is none, the error is the same. -/
theorem choices_agree (d : GameData) (hguards : ∀ r ∈ rows, r.1.guard = r.2.guard) :
    match availableDecisions d (rows.map Prod.fst) with
    | .ok available =>
      (∀ r ∈ rows, Evaluates d r.1.guard) ∧
        available = (opened d (·.1.guard) rows).map Prod.fst ∧
        resolveBranch d (rows.map Prod.snd) =
          .ok ((opened d (·.1.guard) rows).head?.map Prod.snd)
    | .error e =>
      ∃ before r after, rows = before ++ r :: after ∧
        (∀ q ∈ before, Evaluates d q.1.guard) ∧ Condition.evaluateGuard r.1.guard d = .error e ∧
        resolveBranch d (rows.map Prod.snd) =
          match (opened d (·.1.guard) before).head? with
          | some q => .ok (some q.2)
          | none => .error e := by
  have hbranch : ∀ r ∈ rows, r.2.guard = r.1.guard := fun r hr => (hguards r hr).symm
  rcases forall_evaluates_or (d := d) (fun r => r.1.guard) rows with
    hall | ⟨before, r, after, e, rfl, hbefore, hr⟩
  · rw [availableDecisions_eq_ok (List.forall_mem_map.mpr hall), opened_map fun _ _ => rfl]
    refine ⟨hall, rfl, ?_⟩
    rw [resolveBranch_eq_ok (evaluates_branches hguards hall), opened_map hbranch, List.head?_map]
  · obtain ⟨hfront, hrest⟩ := List.forall_mem_append.mp hguards
    have hr' : Condition.evaluateGuard r.2.guard d = .error e := hrest r List.mem_cons_self ▸ hr
    rw [List.map_append, List.map_cons, availableDecisions_append (List.forall_mem_map.mpr hbefore),
      availableDecisions_of_error hr]
    refine ⟨before, r, after, rfl, hbefore, hr, ?_⟩
    rw [List.map_append, List.map_cons, resolveBranch_append (evaluates_branches hfront hbefore),
      resolveBranch_of_error hr', opened_map (List.forall_mem_append.mp hbranch).1, List.head?_map]
    cases (opened d (·.1.guard) before).head? <;> rfl

/-- The door cannot be forced, but Ada may knock: that branch is taken, although the last guard
breaks off and decisions are refused for it. -/
theorem choices_agree_knock :
    let force := some "str > 10"
    let sneak := some "has trait"
    let knock : BranchOption := ⟨"data:inn-knock", none, .clamp 2⟩
    let rows : List (DecisionOption × BranchOption) :=
      [(⟨"Force it", "data:inn-force", force, .clamp 1⟩, ⟨"data:inn-force", force, .clamp 1⟩),
        (⟨"Knock", "data:inn-knock", none, .clamp 2⟩, knock),
        (⟨"Sneak in", "data:inn-sneak", sneak, .clamp 3⟩, ⟨"data:inn-sneak", sneak, .clamp 3⟩)]
    let d : GameData := { characters := [{ name := "Ada" }] }
    let e := Condition.Error.brokenPhrase .traitName none
    (∀ r ∈ rows, r.1.guard = r.2.guard) ∧ availableDecisions d (rows.map Prod.fst) = .error e ∧
      resolveBranch d (rows.map Prod.snd) = .ok (some knock) ∧
      ∃ before r after, rows = before ++ r :: after ∧
        (∀ q ∈ before, Evaluates d q.1.guard) ∧ Condition.evaluateGuard r.1.guard d = .error e ∧
        resolveBranch d (rows.map Prod.snd) =
          match (opened d (·.1.guard) before).head? with
          | some q => .ok (some q.2)
          | none => .error e := by
  intro force sneak knock rows d e
  have hguards : ∀ r ∈ rows, r.1.guard = r.2.guard := by decide
  have hrefused : availableDecisions d (rows.map Prod.fst) = .error e := by decide +kernel
  have htaken : resolveBranch d (rows.map Prod.snd) = .ok (some knock) := by decide +kernel
  have hagree := choices_agree d hguards
  rw [hrefused] at hagree
  exact ⟨hguards, hrefused, htaken, hagree⟩

end

end Adventure.Play
