import Adventure.Proofs.Condition.Grouped

/-!
Nothing is lost or invented when a tree is built, in whatever order the tokens stand.

Each token asks for at most one step (`Token.step?`): a comma for a join like `and`, a parenthesis
for none. The first pass may let a step wait, but never drops, doubles or makes up one. What it has
written down and what still waits are together, in some order, the steps that were asked for
(`Steps.run_perm`), and the phrases are written down as they come (`Steps.run_phrases`). The second
pass makes one node of each step, so the tree holds the phrases in order and one node for each token
that asks for one (`ofTokens_conserves`).

Parentheses make no node. The open ones that wait are those that the row has opened and not yet
closed (`Steps.run_parens`), and none waits at the end.
-/

namespace Adventure.Condition

/-! ### What is counted -/

/-- The step that a token asks for. A comma asks for what an `and` does, and a parenthesis for
nothing. -/
def Token.step? : Token → Option Step
  | .phrase p => some (.phrase p)
  | .connective c => some (.join c)
  | .comma => some (.join .and)
  | .scope s => some (.within s)
  | _ => none

/-- The phrase that a token is. -/
def Token.phrase? : Token → Option Phrase
  | .phrase p => some p
  | _ => none

/-- The phrase of which a step makes a tree. -/
def Step.phrase? : Step → Option Phrase
  | .phrase p => some p
  | _ => none

namespace Tree

/-- How many nodes of a tree join two trees by a connective. -/
def joins (c : Connective) : Tree → Nat
  | phrase _ => 0
  | join c' lhs rhs => lhs.joins c + rhs.joins c + if c' = c then 1 else 0
  | within _ inner => inner.joins c

/-- How many nodes of a tree put a tree under a scope. -/
def withins (s : Scope) : Tree → Nat
  | phrase _ => 0
  | join _ lhs rhs => lhs.withins s + rhs.withins s
  | within s' inner => inner.withins s + if s' = s then 1 else 0

/-! ### The steps of a tree -/

theorem filterMap_postorder (t : Tree) : t.postorder.filterMap Step.phrase? = t.phrases := by
  induction t with
  | phrase p => rfl
  | join c lhs rhs ihl ihr => simp [postorder, phrases, ihl, ihr, Step.phrase?]
  | within s inner ih => simp [postorder, phrases, ih, Step.phrase?]

theorem count_join_postorder (t : Tree) (c : Connective) :
    t.postorder.count (.join c) = t.joins c := by
  induction t with
  | phrase p => simp [postorder, joins]
  | join c' lhs rhs ihl ihr =>
    simp [postorder, joins, ihl, ihr, List.count_singleton, Nat.add_assoc]
  | within s inner ih => simp [postorder, joins, ih]

theorem count_within_postorder (t : Tree) (s : Scope) :
    t.postorder.count (.within s) = t.withins s := by
  induction t with
  | phrase p => simp [postorder, withins]
  | join c lhs rhs ihl ihr => simp [postorder, withins, ihl, ihr]
  | within s' inner ih => simp [postorder, withins, ih, List.count_singleton]

end Tree

/-! ### The steps that tokens ask for -/

theorem count_join_or (ts : List Token) :
    (ts.filterMap Token.step?).count (.join .or) = ts.count (.connective .or) := by
  rw [List.count_filterMap]
  apply List.countP_congr
  intro t _
  cases t <;> simp [Token.step?]

theorem count_join_and (ts : List Token) :
    (ts.filterMap Token.step?).count (.join .and) =
      ts.count (.connective .and) + ts.count .comma := by
  induction ts with
  | nil => rfl
  | cons t ts ih =>
    rw [← List.singleton_append, List.filterMap_append, List.count_append, List.count_append,
      List.count_append, ih]
    have ht : ([t].filterMap Token.step?).count (.join .and) =
        [t].count (.connective .and) + [t].count .comma := by
      cases t <;> simp [Token.step?, List.filterMap_cons, List.count_singleton]
    omega

theorem count_within (ts : List Token) (s : Scope) :
    (ts.filterMap Token.step?).count (.within s) = ts.count (.scope s) := by
  rw [List.count_filterMap]
  apply List.countP_congr
  intro t _
  cases t <;> simp [Token.step?]

namespace Steps

section Runs

variable {w left : List Waiting} {e : List Step} {t : Token} {ts : List Token}

/-! ### What a token lets go -/

/-- A connective that comes ends some of those on top and waits in their place. -/
theorem exists_of_await (c : Connective) (w : List Waiting) :
    ∃ (cs : List Connective) (rest : List Waiting), w = cs.map .connective ++ rest ∧
      await c w = (cs.map .join, .connective c :: rest) := by
  induction w with
  | nil => exact ⟨[], [], rfl, rfl⟩
  | cons x w ih =>
    cases x with
    | connective top =>
      obtain ⟨cs, rest, rfl, hawait⟩ := ih
      rw [await, hawait]
      split
      · exact ⟨top :: cs, rest, rfl, rfl⟩
      · exact ⟨[], _, rfl, rfl⟩
    | scope s => exact ⟨[], _, rfl, rfl⟩
    | openParen => exact ⟨[], _, rfl, rfl⟩

/-- The end of a clause lets go a scope and the connectives above it. -/
theorem exists_of_closeClause (h : closeClause w = .ok (e, left)) :
    ∃ (cs : List Connective) (s : Scope),
      w = cs.map .connective ++ .scope s :: left ∧ e = cs.map .join ++ [.within s] := by
  induction w generalizing e with
  | nil => cases h
  | cons x w ih =>
    cases x with
    | openParen => cases h
    | connective c =>
      obtain ⟨⟨e', left'⟩, hw, h⟩ := exists_of_bind_eq_ok h
      cases h
      obtain ⟨cs, s, rfl, rfl⟩ := ih hw
      exact ⟨c :: cs, s, rfl, rfl⟩
    | scope s =>
      cases h
      exact ⟨[], s, rfl, rfl⟩

/-- A closing parenthesis lets go the innermost open one and all above it. -/
theorem exists_of_closeParen (h : closeParen w = .ok (e, left)) :
    ∃ ws, .openParen ∉ ws ∧ w = ws ++ .openParen :: left ∧ e = flush ws := by
  induction w generalizing e with
  | nil => cases h
  | cons x w ih =>
    cases x with
    | openParen =>
      cases h
      exact ⟨[], List.not_mem_nil, rfl, rfl⟩
    | connective c =>
      obtain ⟨⟨e', left'⟩, hw, h⟩ := exists_of_bind_eq_ok h
      cases h
      obtain ⟨ws, hopen, rfl, rfl⟩ := ih hw
      exact ⟨.connective c :: ws, List.not_mem_cons_of_ne_of_not_mem nofun hopen, rfl, rfl⟩
    | scope s =>
      obtain ⟨⟨e', left'⟩, hw, h⟩ := exists_of_bind_eq_ok h
      cases h
      obtain ⟨ws, hopen, rfl, rfl⟩ := ih hw
      exact ⟨.scope s :: ws, List.not_mem_cons_of_ne_of_not_mem nofun hopen, rfl, rfl⟩

/-! ### Steps -/

theorem await_perm (c : Connective) (w : List Waiting) :
    ((await c w).1 ++ flush (await c w).2).Perm (.join c :: flush w) := by
  obtain ⟨cs, rest, rfl, hawait⟩ := exists_of_await c w
  rw [hawait, flush_append, flush_connectives]
  exact List.perm_middle

/-- **Reading a token** adds the step that it asks for to those that are written down or wait. -/
theorem read_perm (h : read w t = .ok (e, left)) :
    (e ++ flush left).Perm (t.step?.toList ++ flush w) := by
  cases t with
  | phrase p =>
    cases h
    exact .refl _
  | scope s =>
    cases h
    exact .refl _
  | openParen =>
    cases h
    exact .refl _
  | connective c =>
    have hawait := await_perm c w
    rwa [Except.ok.inj h] at hawait
  | closeParen =>
    obtain ⟨ws, -, rfl, rfl⟩ := exists_of_closeParen h
    rw [flush_append]
    exact .refl _
  | comma =>
    obtain ⟨⟨e', left'⟩, hclose, h⟩ := exists_of_bind_eq_ok h
    cases h
    obtain ⟨cs, s, rfl, rfl⟩ := exists_of_closeClause hclose
    have hw : flush (cs.map .connective ++ .scope s :: left') =
        cs.map .join ++ [.within s] ++ flush left' := by
      rw [flush_append, flush_connectives, List.append_assoc]
      rfl
    rw [hw, List.append_assoc]
    exact ((await_perm .and left').append_left _).trans List.perm_middle
  | _ => cases h

/-- **A run** adds the steps that its tokens ask for. -/
theorem run_perm (h : run w ts = .ok (e, left)) :
    (e ++ flush left).Perm (ts.filterMap Token.step? ++ flush w) := by
  induction ts generalizing w e with
  | nil =>
    cases h
    exact .refl _
  | cons t ts ih =>
    obtain ⟨s, w', s', hread, hrun, rfl⟩ := exists_of_run_cons h
    have hts : (t :: ts).filterMap Token.step? = t.step?.toList ++ ts.filterMap Token.step? := by
      cases hstep : t.step? <;> simp [hstep]
    rw [hts, List.append_assoc, List.append_assoc]
    -- The steps of the other tokens are moved past those of the first one and back.
    calc (s ++ (s' ++ flush left)).Perm (s ++ (ts.filterMap Token.step? ++ flush w')) :=
          (ih hrun).append_left s
      List.Perm _ (ts.filterMap Token.step? ++ (s ++ flush w')) := List.perm_append_comm_assoc ..
      List.Perm _ (ts.filterMap Token.step? ++ (t.step?.toList ++ flush w)) :=
          (read_perm hread).append_left _
      List.Perm _ (t.step?.toList ++ (ts.filterMap Token.step? ++ flush w)) :=
          List.perm_append_comm_assoc ..

/-! ### Phrases -/

theorem phrase?_of_mem_flush {s : Step} {w : List Waiting} (h : s ∈ flush w) :
    s.phrase? = none := by
  obtain ⟨x, -, hx⟩ := List.mem_filterMap.mp h
  cases x <;> cases hx <;> rfl

/-- A phrase is written down at once, and no other token writes one down. -/
theorem read_phrases (h : read w t = .ok (e, left)) :
    e.filterMap Step.phrase? = t.phrase?.toList := by
  cases hphrase : t.phrase? with
  | some p =>
    cases t with
    | phrase q =>
      cases hphrase
      cases h
      rfl
    | _ => cases hphrase
  | none =>
    apply List.filterMap_eq_nil_iff.mpr
    intro s hs
    have hstep : t.step?.bind Step.phrase? = t.phrase? := by cases t <;> rfl
    rcases List.mem_append.mp ((read_perm h).subset (List.mem_append_left _ hs)) with hs | hs
    · rw [Option.mem_toList] at hs
      rw [← hphrase, ← hstep, Option.mem_def.mp hs]
      rfl
    · exact phrase?_of_mem_flush hs

/-- **A run** writes its phrases down in order. -/
theorem run_phrases (h : run w ts = .ok (e, left)) :
    e.filterMap Step.phrase? = ts.filterMap Token.phrase? := by
  induction ts generalizing w e with
  | nil =>
    cases h
    rfl
  | cons t ts ih =>
    obtain ⟨s, w', s', hread, hrun, rfl⟩ := exists_of_run_cons h
    rw [List.filterMap_append, read_phrases hread, ih hrun]
    cases hphrase : t.phrase? <;> simp [hphrase]

/-! ### Parentheses -/

theorem count_openParen_connectives (cs : List Connective) :
    (cs.map Waiting.connective).count .openParen = 0 := List.count_eq_zero.mpr (by simp)

/-- Only parentheses change how many of them are open. -/
theorem read_parens (h : read w t = .ok (e, left)) :
    left.count .openParen + [t].count .closeParen = w.count .openParen + [t].count .openParen := by
  cases t with
  | phrase p =>
    cases h
    simp
  | scope s =>
    cases h
    simp
  | openParen =>
    cases h
    simp
  | connective c =>
    obtain ⟨cs, rest, rfl, hawait⟩ := exists_of_await c w
    rw [read_connective, hawait] at h
    cases h
    simp [count_openParen_connectives]
  | closeParen =>
    obtain ⟨ws, hopen, rfl, rfl⟩ := exists_of_closeParen h
    simp [List.count_eq_zero.mpr hopen]
  | comma =>
    obtain ⟨⟨e', left'⟩, hclose, h⟩ := exists_of_bind_eq_ok h
    cases h
    obtain ⟨cs, s, rfl, rfl⟩ := exists_of_closeClause hclose
    obtain ⟨cs', rest, rfl, hawait⟩ := exists_of_await .and left'
    simp [hawait, count_openParen_connectives]
  | _ => cases h

/-- **A run** leaves those parentheses open that it opens, or finds open, and does not close. -/
theorem run_parens (h : run w ts = .ok (e, left)) :
    left.count .openParen + ts.count .closeParen = w.count .openParen + ts.count .openParen := by
  induction ts generalizing w e with
  | nil =>
    cases h
    rfl
  | cons t ts ih =>
    obtain ⟨s, w', s', hread, hrun, rfl⟩ := exists_of_run_cons h
    have ht := read_parens hread
    have hts := ih hrun
    rw [← List.singleton_append, List.count_append, List.count_append]
    omega

/-- A run is one through each part of its row that it starts with. -/
theorem exists_run_of_run_append {front behind : List Token}
    (h : run w (front ++ behind) = .ok (e, left)) : ∃ e' left', run w front = .ok (e', left') := by
  induction front generalizing w e with
  | nil => exact ⟨[], w, rfl⟩
  | cons t front ih =>
    obtain ⟨s, w', s', hread, hrun, rfl⟩ := exists_of_run_cons h
    obtain ⟨e', left', hfront⟩ := ih hrun
    exact ⟨s ++ e', left', run_cons hread hfront⟩

end Runs

end Steps

/-- Whether the parentheses of a row balance: as many are closed as are opened, and nowhere have
more been closed than opened. -/
structure ParensBalance (ts : List Token) : Prop where
  closed : ts.count .closeParen = ts.count .openParen
  opened : ∀ front, front <+: ts → front.count .closeParen ≤ front.count .openParen

theorem ParensBalance.of_run {ts : List Token} {e : List Step} {left : List Waiting}
    (h : Steps.run [] ts = .ok (e, left)) (hleft : .openParen ∉ left) : ParensBalance ts where
  closed := by
    have hparens := Steps.run_parens h
    rw [List.count_eq_zero.mpr hleft] at hparens
    simpa using hparens
  opened := by
    rintro front ⟨behind, rfl⟩
    obtain ⟨e', left', hfront⟩ := Steps.exists_run_of_run_append h
    have hparens := Steps.run_parens hfront
    rw [List.count_nil] at hparens
    omega

/-- **Nothing is lost or invented.** A tree that comes out of a row of tokens, in whatever order
they stand, has the phrases of the row from left to right. It has one node that joins by `or` for
each `or` of the row, one that joins by `and` for each `and` and each comma, and one that puts a
tree under a scope for each token of that scope. The parentheses of the row balance, and the tree is
at most 256 levels deep. -/
theorem ofTokens_conserves {ts : List Token} {t : Tree} (h : Tree.ofTokens ts = .ok t) :
    t.phrases = ts.filterMap Token.phrase? ∧
      t.joins .or = ts.count (.connective .or) ∧
      t.joins .and = ts.count (.connective .and) + ts.count .comma ∧
      (∀ s, t.withins s = ts.count (.scope s)) ∧
      ParensBalance ts ∧ t.depth ≤ 256 := by
  obtain ⟨hsteps, hdepth, -⟩ := Tree.ofTokens_eq_ok_iff.mp h
  obtain ⟨e, left, hrun, hopen, hpost⟩ := Steps.exists_run_of_ofTokens hsteps
  have hperm : t.postorder.Perm (ts.filterMap Token.step?) := by
    have hrow := Steps.run_perm hrun
    rwa [← hpost, Steps.flush, List.filterMap_nil, List.append_nil] at hrow
  have hphrases : t.postorder.filterMap Step.phrase? = ts.filterMap Token.phrase? := by
    have hflush : (Steps.flush left).filterMap Step.phrase? = [] :=
      List.filterMap_eq_nil_iff.mpr fun s hs => Steps.phrase?_of_mem_flush hs
    rw [hpost, List.filterMap_append, hflush, List.append_nil, Steps.run_phrases hrun]
  refine ⟨?_, ?_, ?_, ?_, .of_run hrun hopen, hdepth⟩
  · rw [← t.filterMap_postorder, hphrases]
  · rw [← t.count_join_postorder, hperm.count_eq, count_join_or]
  · rw [← t.count_join_postorder, hperm.count_eq, count_join_and]
  · intro s
    rw [← t.count_within_postorder, hperm.count_eq, count_within]

/-- In `or character ( ) "A" , "B" "C"` no operand stands where it should, and still the comma and
the `or` find two trees each: nothing of the row is missing in its tree. -/
theorem ofTokens_conserves_disorder :
    let ts : List Token := [.connective .or, .scope .character, .openParen, .closeParen,
      .phrase (.ofTrait "A"), .comma, .phrase (.ofTrait "B"), .phrase (.ofTrait "C")]
    let t : Tree := .join .or (.within .character (.phrase (.ofTrait "A")))
      (.join .and (.phrase (.ofTrait "B")) (.phrase (.ofTrait "C")))
    Tree.ofTokens ts = .ok t ∧
      t.phrases = ts.filterMap Token.phrase? ∧
      t.joins .or = ts.count (.connective .or) ∧
      t.joins .and = ts.count (.connective .and) + ts.count .comma ∧
      (∀ s, t.withins s = ts.count (.scope s)) ∧
      ParensBalance ts ∧ t.depth ≤ 256 :=
  ⟨rfl, ofTokens_conserves rfl⟩

end Adventure.Condition
