import Adventure.Condition.Steps

/-!
What the second pass of reading a condition builds.

The steps of a tree, its parts before itself, are its `postorder`. Building them gives the tree back
on top of whatever trees are there already, unless it is too deep (`build_postorder_append`), and
nothing but the postorder of a tree builds that tree (`postorder_of_build`). So the first pass alone
decides which tree comes out: `Tree.ofTokens_of_steps` says what becomes of a tree once its
postorder is there.
-/

namespace Adventure.Condition

/-- The errors that are told under the heading of lexing: all but that of a character that no token
holds. -/
def Error.isLexing : Error → Bool
  | .invalidCharacter .. => false
  | _ => true

namespace Tree

/-- The steps that build a tree: those of its parts from left to right, and then its own. -/
def postorder : Tree → List Step
  | phrase p => [.phrase p]
  | join c lhs rhs => lhs.postorder ++ rhs.postorder ++ [.join c]
  | within s inner => inner.postorder ++ [.within s]

/-- A postorder shows where it begins: two rows of steps that end in a postorder are the same only if
they end in the same one. -/
theorem postorder_append_inj {t u : Tree} {front front' : List Step}
    (h : front ++ t.postorder = front' ++ u.postorder) : front = front' ∧ t = u := by
  induction t generalizing u front front' with
  | phrase p =>
    cases u with
    | phrase q =>
      obtain ⟨hf, hs⟩ := List.append_inj' h rfl
      cases hs
      exact ⟨hf, rfl⟩
    | join c lhs rhs => simp [postorder, ← List.append_assoc] at h
    | within s inner => simp [postorder, ← List.append_assoc] at h
  | join c lhs rhs ihl ihr =>
    cases u with
    | phrase q => simp [postorder, ← List.append_assoc] at h
    | join c' lhs' rhs' =>
      simp only [postorder, ← List.append_assoc] at h
      obtain ⟨hparts, hs⟩ := List.append_inj' h rfl
      obtain ⟨hleft, hr⟩ := ihr hparts
      obtain ⟨hfront, hl⟩ := ihl hleft
      cases hs
      rw [hl, hr]
      exact ⟨hfront, rfl⟩
    | within s inner => simp [postorder, ← List.append_assoc] at h
  | within s inner ih =>
    cases u with
    | phrase q => simp [postorder, ← List.append_assoc] at h
    | join c lhs rhs => simp [postorder, ← List.append_assoc] at h
    | within s' inner' =>
      simp only [postorder, ← List.append_assoc] at h
      obtain ⟨hpart, hs⟩ := List.append_inj' h rfl
      obtain ⟨hfront, hi⟩ := ih hpart
      cases hs
      rw [hi]
      exact ⟨hfront, rfl⟩

/-- Different trees have different postorders. -/
theorem postorder_inj {t u : Tree} (h : t.postorder = u.postorder) : t = u :=
  (@postorder_append_inj t u [] [] h).2

/-! ### Where phrases stand -/

/-- The phrases of a tree from left to right, each with the nearest scope around it, where the whole
tree stands under `around`. -/
def placements (around : Option Scope) : Tree → List (Phrase × Option Scope)
  | phrase p => [(p, around)]
  | join _ lhs rhs => lhs.placements around ++ rhs.placements around
  | within s inner => inner.placements (some s)

/-- No test of a stat has an encounter or a session as the nearest scope around it. -/
def StatsPlaced (t : Tree) : Prop :=
  ∀ p s, (Phrase.stat p, some s) ∈ t.placements none → s ≠ .encounter ∧ s ≠ .session

theorem hasStats_iff {s : Scope} : s.hasStats = true ↔ s ≠ .encounter ∧ s ≠ .session := by
  cases s <;> simp [Scope.hasStats]

/-- The check finds nothing exactly where every placed test of a stat stands under a scope with
stats, or under none. -/
theorem misplacedStat?_eq_none_iff (t : Tree) (around : Option Scope) :
    t.misplacedStat? around = none ↔
      ∀ p s, (Phrase.stat p, some s) ∈ t.placements around → s.hasStats = true := by
  induction t generalizing around with
  | phrase p =>
    cases p with
    | traits p => simp [misplacedStat?, placements]
    | stat p =>
      cases around with
      | none => simp [misplacedStat?, placements]
      | some s =>
        simp only [misplacedStat?, placements, List.mem_singleton, Prod.mk.injEq, Option.some.injEq]
        constructor
        · rintro h q s' ⟨-, rfl⟩
          cases hs : s'.hasStats with
          | true => rfl
          | false => simp [hs] at h
        · intro h
          rw [if_pos (h p s ⟨rfl, rfl⟩)]
  | join c lhs rhs ihl ihr =>
    simp only [misplacedStat?, placements, List.mem_append, Option.or_eq_none_iff, ihl, ihr]
    constructor
    · rintro ⟨hl, hr⟩ p s (h | h)
      · exact hl p s h
      · exact hr p s h
    · intro h
      constructor
      · intro p s hm
        exact h p s (Or.inl hm)
      · intro p s hm
        exact h p s (Or.inr hm)
  | within s inner ih => exact ih (some s)

theorem statsPlaced_iff (t : Tree) : t.StatsPlaced ↔ t.misplacedStat? none = none := by
  rw [misplacedStat?_eq_none_iff]
  exact forall₃_congr fun p s _ => hasStats_iff.symm

/-- What the check finds is told under the heading of lexing. -/
theorem isLexing_of_misplacedStat? {t : Tree} {around : Option Scope} {e : Error}
    (h : t.misplacedStat? around = some e) : e.isLexing = true := by
  induction t generalizing around with
  | phrase p =>
    cases p with
    | traits p => simp [misplacedStat?] at h
    | stat p =>
      cases around with
      | none => simp [misplacedStat?] at h
      | some s =>
        simp only [misplacedStat?] at h
        split at h
        · cases h
        · cases h; rfl
  | join c lhs rhs ihl ihr =>
    simp only [misplacedStat?, Option.or_eq_some_iff] at h
    rcases h with h | ⟨-, h⟩
    · exact ihl h
    · exact ihr h
  | within s inner ih => exact ih h

end Tree

namespace Steps

/-! ### Building a postorder -/

/-- A tree with its true depth, which is the only one that can be counted for it. -/
def Measured.ofTree (t : Tree) : Measured := ⟨t, t.depth, rfl⟩

theorem Measured.eq_ofTree (m : Measured) : m = .ofTree m.tree := by
  obtain ⟨t, n, rfl⟩ := m
  rfl

theorem take_join (trees : List Measured) (c : Connective) (lhs rhs : Tree) :
    take (.ofTree rhs :: .ofTree lhs :: trees) (.join c) =
      if maxDepth < (Tree.join c lhs rhs).depth then .error .tooDeep
      else .ok (.ofTree (.join c lhs rhs) :: trees) := rfl

theorem take_within (trees : List Measured) (s : Scope) (inner : Tree) :
    take (.ofTree inner :: trees) (.within s) =
      if maxDepth < (Tree.within s inner).depth then .error .tooDeep
      else .ok (.ofTree (.within s inner) :: trees) := rfl

theorem build_cons (trees : List Measured) (s : Step) (steps : List Step) :
    build trees (s :: steps) = take trees s >>= fun trees' => build trees' steps := rfl

theorem build_nil (t : Tree) : build [.ofTree t] [] = .ok t := rfl

/-- **The postorder of a tree builds the tree**, whatever trees are there before and whatever steps
follow. A tree that is too deep stops the pass, and so does one of its parts. -/
theorem build_postorder_append (t : Tree) (trees : List Measured) (rest : List Step) :
    build trees (t.postorder ++ rest) =
      if maxDepth < t.depth then .error .tooDeep else build (.ofTree t :: trees) rest := by
  induction t generalizing trees rest with
  | phrase p => rfl
  | join c lhs rhs ihl ihr =>
    have dl : lhs.depth < (Tree.join c lhs rhs).depth := Nat.lt_succ_of_le (Nat.le_max_left _ _)
    have dr : rhs.depth < (Tree.join c lhs rhs).depth := Nat.lt_succ_of_le (Nat.le_max_right _ _)
    simp only [Tree.postorder, List.append_assoc, List.singleton_append, ihl, ihr, build_cons,
      take_join]
    -- A part that is too deep makes the whole too deep.
    by_cases hl : maxDepth < lhs.depth
    · rw [if_pos hl, if_pos (Nat.lt_trans hl dl)]
    by_cases hr : maxDepth < rhs.depth
    · rw [if_neg hl, if_pos hr, if_pos (Nat.lt_trans hr dr)]
    rw [if_neg hl, if_neg hr]
    split <;> rfl
  | within s inner ih =>
    have di : inner.depth < (Tree.within s inner).depth := Nat.lt_succ_self _
    simp only [Tree.postorder, List.append_assoc, List.singleton_append, ih, build_cons,
      take_within]
    by_cases hi : maxDepth < inner.depth
    · rw [if_pos hi, if_pos (Nat.lt_trans hi di)]
    rw [if_neg hi]
    split <;> rfl

/-- The steps that lead to some trees, the newest of which comes first. -/
def stepsOf (trees : List Measured) : List Step := trees.reverse.flatMap (·.tree.postorder)

@[simp] theorem stepsOf_nil : stepsOf [] = [] := rfl

theorem stepsOf_cons (m : Measured) (trees : List Measured) :
    stepsOf (m :: trees) = stepsOf trees ++ m.tree.postorder := by
  simp [stepsOf]

/-- One step more leads to the trees after it. -/
theorem stepsOf_take {trees trees' : List Measured} {s : Step} (h : take trees s = .ok trees') :
    stepsOf trees' = stepsOf trees ++ [s] := by
  cases s with
  | phrase p =>
    cases h
    rw [stepsOf_cons]
    rfl
  | join c =>
    match trees, h with
    | [], h => cases h
    | [_], h => cases h
    | rhs :: lhs :: rest, h =>
      rw [rhs.eq_ofTree, lhs.eq_ofTree, take_join] at h
      split at h
      · cases h
      · cases h
        simp only [stepsOf_cons, Measured.ofTree, Tree.postorder, List.append_assoc]
  | within s =>
    match trees, h with
    | [], h => cases h
    | inner :: rest, h =>
      rw [inner.eq_ofTree, take_within] at h
      split at h
      · cases h
      · cases h
        simp only [stepsOf_cons, Measured.ofTree, Tree.postorder, List.append_assoc]

/-- **Only the postorder of a tree builds it.** -/
theorem postorder_of_build {trees : List Measured} {steps : List Step} {t : Tree}
    (h : build trees steps = .ok t) : stepsOf trees ++ steps = t.postorder := by
  induction steps generalizing trees with
  | nil =>
    match trees, h with
    | [], h => cases h
    | [_], h => cases h; simp [stepsOf]
    | _ :: _ :: _, h => cases h
  | cons s steps ih =>
    rw [build_cons] at h
    cases hs : take trees s with
    | error e => rw [hs] at h; cases h
    | ok trees' =>
      rw [hs] at h
      rw [← ih h, stepsOf_take hs, List.append_assoc, List.singleton_append]

end Steps

/-- What becomes of a tree whose postorder the tokens give. -/
theorem Tree.ofTokens_of_steps {ts : List Token} {t : Tree}
    (h : Steps.ofTokens [] ts = .ok t.postorder) :
    Tree.ofTokens ts =
      if maxDepth < t.depth then .error .tooDeep
      else match t.misplacedStat? none with
        | some e => .error e
        | none => .ok t := by
  have hb := Steps.build_postorder_append t [] []
  rw [List.append_nil, Steps.build_nil] at hb
  unfold Tree.ofTokens
  rw [h]
  by_cases ht : maxDepth < t.depth
  · rw [if_pos ht] at hb ⊢
    simp only [bind, Except.bind, hb]
  · rw [if_neg ht] at hb ⊢
    simp only [bind, Except.bind, hb]
    cases t.misplacedStat? none <;> rfl

/-- A tree that comes out of some tokens is the one whose postorder they give. -/
theorem Tree.steps_of_ofTokens {ts : List Token} {t : Tree} (h : Tree.ofTokens ts = .ok t) :
    Steps.ofTokens [] ts = .ok t.postorder := by
  unfold Tree.ofTokens at h
  cases hs : Steps.ofTokens [] ts with
  | error e => rw [hs] at h; cases h
  | ok steps =>
    rw [hs] at h
    cases hb : Steps.build [] steps with
    | error e => simp only [bind, Except.bind, hb] at h; cases h
    | ok u =>
      simp only [bind, Except.bind, hb] at h
      have hu := Steps.postorder_of_build hb
      cases hm : u.misplacedStat? none with
      | some e => rw [hm] at h; cases h
      | none =>
        rw [hm] at h
        cases h
        rw [Steps.stepsOf_nil, List.nil_append] at hu
        rw [hu]

end Adventure.Condition
