import Adventure.Proofs.Condition.Clause
import Adventure.Proofs.Condition.Postorder

/-!
How the first pass reads a clause.

Reading the tokens of a proper clause makes the steps `emitted` and leaves `pending` to wait on top
of what waited before (`Clause.run_tokens`). What is pending ends, newest first, with the steps that
complete the postorder of the clause's tree (`Clause.emitted_flush`), so at the end of a condition
the first pass has written down the postorder of its reference tree. `ofTokens_proper` is the result
for both passes.

The invariant is carried by the front of a clause: between two operands the pass has made the steps
of the sum and of the product that stand there, and lets wait one connective for each of them.
-/

namespace Adventure.Condition

namespace Steps

/-! ### Single tokens -/

theorem read_phrase (w : List Waiting) (p : Phrase) : read w (.phrase p) = .ok ([.phrase p], w) :=
  rfl

theorem read_scope (w : List Waiting) (s : Scope) : read w (.scope s) = .ok ([], .scope s :: w) :=
  rfl

theorem read_openParen (w : List Waiting) : read w .openParen = .ok ([], .openParen :: w) := rfl

theorem read_connective (w : List Waiting) (c : Connective) :
    read w (.connective c) = .ok (await c w) := rfl

/-- A comma ends a clause and then joins like an `and`. -/
theorem read_comma {w left : List Waiting} {e : List Step} (h : closeClause w = .ok (e, left)) :
    read w .comma = .ok (e ++ (await .and left).1, (await .and left).2) := by
  rw [read, h]
  rfl

/-! ### Runs -/

/-- The steps that a row of tokens allows, and what waits behind it. -/
def run (waiting : List Waiting) : List Token → Except Error (List Step × List Waiting)
  | [] => .ok ([], waiting)
  | t :: ts => do
    let (steps, left) ← read waiting t
    let (more, left) ← run left ts
    return (steps ++ more, left)

section Runs

variable {w w₁ w₂ : List Waiting} {e e₁ : List Step} {t : Token} {ts us : List Token}

theorem run_cons (h : read w t = .ok (e, w₁)) (h₁ : run w₁ ts = .ok (e₁, w₂)) :
    run w (t :: ts) = .ok (e ++ e₁, w₂) := by
  simp only [run, h, h₁, bind, Except.bind, pure, Except.pure]

theorem run_singleton (h : read w t = .ok (e, w₁)) : run w [t] = .ok (e, w₁) := by
  rw [run_cons h rfl, List.append_nil]

/-- A run reads its first token and runs on from there. -/
theorem exists_of_run_cons (h : run w (t :: ts) = .ok (e, w₂)) :
    ∃ s w₁ s', read w t = .ok (s, w₁) ∧ run w₁ ts = .ok (s', w₂) ∧ e = s ++ s' := by
  cases hr : read w t with
  | error x => simp [run, hr, bind, Except.bind] at h
  | ok r =>
    cases hrun : run r.2 ts with
    | error x => simp [run, hr, hrun, bind, Except.bind] at h
    | ok r' =>
      simp only [run, hr, hrun, bind, Except.bind, pure, Except.pure] at h
      cases h
      exact ⟨r.1, r.2, r'.1, rfl, hrun, rfl⟩

/-- Rows of tokens are read one after the other. -/
theorem run_append (h : run w ts = .ok (e, w₁)) (h₁ : run w₁ us = .ok (e₁, w₂)) :
    run w (ts ++ us) = .ok (e ++ e₁, w₂) := by
  induction ts generalizing w e with
  | nil =>
    cases h
    exact h₁
  | cons t ts ih =>
    obtain ⟨s, w', s', hr, hrun, rfl⟩ := exists_of_run_cons h
    rw [List.cons_append, run_cons hr (ih hrun), List.append_assoc]

theorem ofTokens_cons (h : read w t = .ok (e, w₁)) :
    ofTokens w (t :: ts) = (ofTokens w₁ ts).map (e ++ ·) := by
  simp only [ofTokens, h, bind, Except.bind, pure, Except.pure, Except.map]

/-- After a run, the pass goes on with what waits. -/
theorem ofTokens_append (h : run w ts = .ok (e, w₁)) :
    ofTokens w (ts ++ us) = (ofTokens w₁ us).map (e ++ ·) := by
  induction ts generalizing w e with
  | nil =>
    cases h
    rw [List.nil_append]
    cases ofTokens w₁ us <;> rfl
  | cons t ts ih =>
    obtain ⟨s, w', s', hr, hrun, rfl⟩ := exists_of_run_cons h
    rw [List.cons_append, ofTokens_cons hr, ih hrun]
    cases ofTokens w₁ us with
    | error x => rfl
    | ok steps => simp [Except.map]

end Runs

/-! ### What waits -/

/-- The step with which something that waits ends. An open parenthesis has none. -/
def endStep? : Waiting → Option Step
  | .connective c => some (.join c)
  | .scope s => some (.within s)
  | .openParen => none

/-- The steps with which everything that waits ends, the newest first. -/
def flush (ws : List Waiting) : List Step := ws.filterMap endStep?

theorem flush_append (ws vs : List Waiting) : flush (ws ++ vs) = flush ws ++ flush vs :=
  List.filterMap_append

theorem flush_connectives (cs : List Connective) :
    flush (cs.map .connective) = cs.map .join := by
  induction cs with
  | nil => rfl
  | cons c cs ih => rw [List.map_cons, List.map_cons, ← ih]; rfl

theorem finish_eq_flush {ws : List Waiting} (h : .openParen ∉ ws) : finish ws = .ok (flush ws) := by
  induction ws with
  | nil => rfl
  | cons x ws ih =>
    rw [List.mem_cons, not_or] at h
    have hw := ih h.2
    cases x with
    | openParen => exact absurd rfl h.1
    | connective c => simp only [finish, hw, bind, Except.bind, pure, Except.pure]; rfl
    | scope s => simp only [finish, hw, bind, Except.bind, pure, Except.pure]; rfl

/-- A closing parenthesis ends everything back to the innermost open one. -/
theorem closeParen_append {ws : List Waiting} (h : .openParen ∉ ws) (rest : List Waiting) :
    closeParen (ws ++ .openParen :: rest) = .ok (flush ws, rest) := by
  induction ws with
  | nil => rfl
  | cons x ws ih =>
    rw [List.mem_cons, not_or] at h
    have hw := ih h.2
    cases x with
    | openParen => exact absurd rfl h.1
    | connective c =>
      simp only [List.cons_append, closeParen, hw, bind, Except.bind, pure, Except.pure]; rfl
    | scope s =>
      simp only [List.cons_append, closeParen, hw, bind, Except.bind, pure, Except.pure]; rfl

/-- A comma ends the innermost scope, if only connectives wait above it. -/
theorem closeClause_append (cs : List Connective) (s : Scope) (rest : List Waiting) :
    closeClause (cs.map .connective ++ .scope s :: rest) =
      .ok (cs.map .join ++ [.within s], rest) := by
  induction cs with
  | nil => rfl
  | cons c cs ih =>
    simp only [List.map_cons, List.cons_append, closeClause, ih, bind, Except.bind, pure,
      Except.pure]

/-- No connective waits on top: the start of a clause is below. -/
def Barrier (w : List Waiting) : Prop := ∀ c, w.head? ≠ some (.connective c)

theorem await_barrier {w : List Waiting} (h : Barrier w) (c : Connective) :
    await c w = ([], .connective c :: w) := by
  unfold await
  split
  · exact absurd rfl (h _)
  · rfl

end Steps

open Steps

/-! ### The front of a clause -/

namespace Front

/-- The connectives that wait for the next operand, the newest first. -/
def connectives (f : Front) : List Connective :=
  (f.product.map fun _ => Connective.and).toList ++ (f.sum.map fun _ => Connective.or).toList

/-- What waits for the next operand. -/
def waiting (f : Front) : List Waiting := f.connectives.map .connective

/-- The steps that were made before the next operand. -/
def steps (f : Front) : List Step :=
  (f.sum.map Tree.postorder).getD [] ++ (f.product.map Tree.postorder).getD []

/-- The connectives of a front complete the postorder of the clause. -/
theorem steps_close (f : Front) (t : Tree) :
    f.steps ++ t.postorder ++ f.connectives.map .join = (f.close t).postorder := by
  obtain ⟨sum, product⟩ := f
  cases sum <;> cases product <;>
    simp [steps, connectives, close, Tree.joinedTo, Tree.postorder]

/-- **What a connective does between two operands**: it makes the steps of the connectives that are
done and waits itself, as the next front says. -/
theorem await_waiting (f : Front) (t : Tree) (c : Connective) {w : List Waiting} (h : Barrier w) :
    ∃ e, await c (f.waiting ++ w) = (e, (f.next t c).waiting ++ w) ∧
      f.steps ++ t.postorder ++ e = (f.next t c).steps := by
  obtain ⟨sum, product⟩ := f
  cases c with
  | and =>
    cases product with
    | none =>
      cases sum with
      | none => exact ⟨[], by simp [waiting, connectives, next, await_barrier h],
          by simp [steps, next, Tree.joinedTo]⟩
      | some u => exact ⟨[], by simp [waiting, connectives, next, await, yields],
          by simp [steps, next, Tree.joinedTo]⟩
    | some v =>
      cases sum with
      | none => exact ⟨[.join .and],
          by simp [waiting, connectives, next, await, yields, await_barrier h],
          by simp [steps, next, Tree.joinedTo, Tree.postorder]⟩
      | some u => exact ⟨[.join .and], by simp [waiting, connectives, next, await, yields],
          by simp [steps, next, Tree.joinedTo, Tree.postorder]⟩
  | or =>
    -- An `or` ends all that waits in the clause.
    refine ⟨(Front.mk sum product).connectives.map .join, ?_, ?_⟩
    · cases sum <;> cases product <;>
        simp [waiting, connectives, next, await, yields, await_barrier h]
    · rw [steps_close]
      simp [steps, next]

end Front

/-! ### What a clause leaves behind -/

mutual

/-- What waits behind an operand: the scopes that are open at its end, with their connectives. -/
def Operand.pending : Operand → List Waiting
  | .phrase _ => []
  | .group _ => []
  | .within s c => c.pending ++ [.scope s]

/-- What waits behind a clause. -/
def Clause.pending : Clause → List Waiting
  | .first o => o.pending
  | .more c j o => o.pending ++ (c.front.next c.last.tree j.reads).waiting

end

mutual

/-- The steps that an operand allows at once. -/
def Operand.emitted : Operand → List Step
  | .phrase p => [.phrase p]
  | .group c => c.tree.postorder
  | .within _ c => c.emitted

/-- The steps that a clause allows at once. -/
def Clause.emitted : Clause → List Step
  | .first o => o.emitted
  | .more c j o => (c.front.next c.last.tree j.reads).steps ++ o.emitted

end

theorem Clause.pending_eq (c : Clause) : c.pending = c.last.pending ++ c.front.waiting := by
  cases c with
  | first o => simp [pending, last, Front.waiting, Front.connectives]
  | more c j o => rw [pending, front_more, last]

theorem Clause.emitted_eq (c : Clause) : c.emitted = c.front.steps ++ c.last.emitted := by
  cases c with
  | first o => simp [emitted, last, Front.steps]
  | more c j o => rw [emitted, front_more, last]

theorem Operand.pending_of_isClosed {o : Operand} (h : o.isClosed = true) : o.pending = [] := by
  cases o with
  | phrase p => simp [pending]
  | group c => simp [pending]
  | within s c => simp [isClosed] at h

/-- Only connectives wait behind a clause that is closed. -/
theorem Clause.pending_of_isClosed {c : Clause} (h : c.isClosed = true) :
    c.pending = c.front.connectives.map .connective := by
  rw [pending_eq, Operand.pending_of_isClosed h]
  rfl

theorem Front.openParen_not_mem_waiting (f : Front) : .openParen ∉ f.waiting := by
  simp [waiting]

mutual

theorem Operand.openParen_not_mem_pending (o : Operand) : .openParen ∉ o.pending := by
  match o with
  | .phrase p => simp [Operand.pending]
  | .group c => simp [Operand.pending]
  | .within s c => simp [Operand.pending, Clause.openParen_not_mem_pending c]

theorem Clause.openParen_not_mem_pending (c : Clause) : .openParen ∉ c.pending := by
  match c with
  | .first o =>
    rw [Clause.pending]
    exact Operand.openParen_not_mem_pending o
  | .more c j o =>
    rw [Clause.pending, List.mem_append, not_or]
    exact ⟨Operand.openParen_not_mem_pending o, Front.openParen_not_mem_waiting _⟩

end

mutual

/-- The end of what waits completes the postorder of the operand's tree. -/
theorem Operand.emitted_flush (o : Operand) : o.emitted ++ flush o.pending = o.tree.postorder := by
  match o with
  | .phrase p => simp [Operand.emitted, Operand.pending, flush, Tree.postorder]
  | .group c => simp [Operand.emitted, Operand.pending, flush]
  | .within s c =>
    rw [Operand.emitted, Operand.pending, flush_append, ← List.append_assoc,
      Clause.emitted_flush c, Operand.tree_within]
    rfl

/-- The end of what waits completes the postorder of the clause's tree. -/
theorem Clause.emitted_flush (c : Clause) : c.emitted ++ flush c.pending = c.tree.postorder := by
  match c with
  | .first o =>
    rw [Clause.emitted, Clause.pending, Clause.tree_first]
    exact Operand.emitted_flush o
  | .more c j o =>
    rw [Clause.emitted, Clause.pending, flush_append, Front.waiting, flush_connectives,
      List.append_assoc, ← List.append_assoc o.emitted, Operand.emitted_flush o,
      ← List.append_assoc, Front.steps_close, Clause.tree, Clause.front_more, Clause.last]

end

/-! ### Reading a clause -/

/-- Reading a joiner behind an operand that admits it: the operand ends, and the front moves on. -/
theorem read_joiner {c : Clause} {j : Joiner} (h : c.last.Admits j) {w : List Waiting}
    (hw : Barrier w) :
    ∃ e, read (c.pending ++ w) j.token =
        .ok (e, (c.front.next c.last.tree j.reads).waiting ++ w) ∧
      c.emitted ++ e = (c.front.next c.last.tree j.reads).steps := by
  obtain ⟨e, hawait, hsteps⟩ := c.front.await_waiting c.last.tree j.reads hw
  have hflush := c.last.emitted_flush
  rw [c.pending_eq, c.emitted_eq, ← hsteps, ← hflush]
  cases j with
  | connective k =>
    -- Nothing of the last operand waits, so the connective meets the front at once.
    have hclosed : c.last.isClosed = true := by
      cases hl : c.last with
      | phrase p => rfl
      | group d => rfl
      | within s d =>
        rw [hl] at h
        exact absurd h.1 (by simp)
    have hnil := Operand.pending_of_isClosed hclosed
    refine ⟨e, ?_, by rw [hnil]; simp [flush]⟩
    rw [hnil, List.nil_append, Joiner.token, read_connective]
    exact congrArg Except.ok hawait
  | comma =>
    -- The comma ends the scope that is the last operand, and joins like an `and`.
    cases hl : c.last with
    | phrase p => rw [hl] at h; exact absurd rfl h
    | group d => rw [hl] at h; exact absurd rfl h
    | within s d =>
      rw [hl] at h hawait
      have hd := Clause.pending_of_isClosed h.2
      have hclose := closeClause_append d.front.connectives s (c.front.waiting ++ w)
      refine ⟨d.front.connectives.map .join ++ [.within s] ++ e, ?_, ?_⟩
      · simp only [Operand.pending, hd, List.append_assoc, List.singleton_append]
        rw [Joiner.token, List.cons_append, read_comma hclose, List.append_assoc,
          List.singleton_append]
        rw [show await .and _ = _ from hawait]
      · rw [Operand.pending, hd, flush_append, flush_connectives]
        simp [flush, endStep?]

mutual

/-- Reading an operand, whatever waits before it. -/
theorem Operand.run_tokens {o : Operand} (h : o.Proper) (w : List Waiting) :
    run w o.tokens = .ok (o.emitted, o.pending ++ w) := by
  match o, h with
  | .phrase p, _ =>
    rw [Operand.tokens, Operand.emitted, Operand.pending]
    exact run_singleton (read_phrase w p)
  | .group c, h =>
    have hc : run (.openParen :: w) c.tokens = .ok (c.emitted, c.pending ++ .openParen :: w) :=
      Clause.run_tokens h (by simp [Barrier])
    have hclose : run (c.pending ++ .openParen :: w) [.closeParen] = .ok (flush c.pending, w) :=
      run_singleton (closeParen_append c.openParen_not_mem_pending w)
    have hrun := run_cons (read_openParen w) (run_append hc hclose)
    rw [Operand.tokens, Operand.emitted, Operand.pending, ← c.emitted_flush]
    exact hrun
  | .within s c, h =>
    have hc : run (.scope s :: w) c.tokens = .ok (c.emitted, c.pending ++ .scope s :: w) :=
      Clause.run_tokens h (by simp [Barrier])
    have hrun := run_cons (read_scope w s) hc
    rw [Operand.tokens, Operand.emitted, Operand.pending, List.append_assoc]
    exact hrun

/-- **Reading a proper clause** makes the steps `emitted` and leaves `pending` to wait. -/
theorem Clause.run_tokens {c : Clause} (h : c.Proper) {w : List Waiting} (hw : Barrier w) :
    run w c.tokens = .ok (c.emitted, c.pending ++ w) := by
  match c, h with
  | .first o, h =>
    rw [Clause.tokens, Clause.emitted, Clause.pending]
    exact Operand.run_tokens h w
  | .more c j o, ⟨hc, hj, ho⟩ =>
    obtain ⟨e, hread, hsteps⟩ := read_joiner hj hw
    have hrun := run_append (Clause.run_tokens hc hw) (run_cons hread (Operand.run_tokens ho _))
    rw [Clause.tokens, Clause.emitted, Clause.pending, hrun, ← List.append_assoc, hsteps,
      List.append_assoc]

end

/-- At the end of a proper clause, the first pass has written down the postorder of its tree. -/
theorem Clause.steps_tokens {c : Clause} (h : c.Proper) :
    Steps.ofTokens [] c.tokens = .ok c.tree.postorder := by
  have hrun := run_tokens h (w := []) (by simp [Barrier])
  rw [← List.append_nil c.tokens, ofTokens_append hrun, List.append_nil, Steps.ofTokens,
    finish_eq_flush c.openParen_not_mem_pending, ← c.emitted_flush]
  rfl

/-- A row of tokens is read in one way at most: proper clauses with the same tokens stand for the same
tree. -/
theorem Clause.tree_unique {c d : Clause} (hc : c.Proper) (hd : d.Proper)
    (h : c.tokens = d.tokens) : c.tree = d.tree := by
  have hsteps := steps_tokens hc
  rw [h, steps_tokens hd] at hsteps
  exact (Tree.postorder_inj (Except.ok.inj hsteps)).symm

/-- **What becomes of a well-formed condition.** It is read as its reference tree exactly when that
tree is not too deep and tests no stat of an encounter or a session, and is refused otherwise. -/
theorem ofTokens_proper (c : Clause) (h : c.Proper) :
    (Tree.ofTokens c.tokens = .ok c.tree ↔ c.tree.depth ≤ maxDepth ∧ c.tree.StatsPlaced) ∧
      (¬(c.tree.depth ≤ maxDepth ∧ c.tree.StatsPlaced) →
        ∃ e, Tree.ofTokens c.tokens = .error e ∧ e.isLexing = true) := by
  have hresult := Tree.ofTokens_of_steps (Clause.steps_tokens h)
  rw [Tree.statsPlaced_iff]
  by_cases hdeep : maxDepth < c.tree.depth
  · rw [if_pos hdeep] at hresult
    rw [hresult]
    constructor
    · constructor
      · intro htree
        cases htree
      · intro hok
        exact absurd hok.1 (Nat.not_le.mpr hdeep)
    · intro _
      exact ⟨.tooDeep, rfl, rfl⟩
  · rw [if_neg hdeep] at hresult
    have hdepth : c.tree.depth ≤ maxDepth := Nat.not_lt.mp hdeep
    cases hm : c.tree.misplacedStat? none with
    | none =>
      rw [hm] at hresult
      constructor
      · constructor
        · intro _
          exact ⟨hdepth, rfl⟩
        · intro _
          exact hresult
      · intro hno
        exact absurd ⟨hdepth, rfl⟩ hno
    | some e =>
      rw [hm] at hresult
      rw [hresult]
      constructor
      · constructor
        · intro htree
          cases htree
        · rintro ⟨-, hnone⟩
          cases hnone
      · intro _
        exact ⟨e, rfl, Tree.isLexing_of_misplacedStat? hm⟩

/-- `A or character B and C, session D` is such a condition: the comma ends the first scope and joins
the second one to it before the `or` does. -/
theorem ofTokens_proper_scopes :
    Tree.ofTokens [.phrase (.ofTrait "A"), .connective .or, .scope .character,
        .phrase (.ofTrait "B"), .connective .and, .phrase (.ofTrait "C"), .comma,
        .scope .session, .phrase (.ofTrait "D")] =
      .ok (.join .or (.phrase (.ofTrait "A"))
        (.join .and
          (.within .character (.join .and (.phrase (.ofTrait "B")) (.phrase (.ofTrait "C"))))
          (.within .session (.phrase (.ofTrait "D"))))) :=
  have hproper : (Clause.more
      (.more (.first (.phrase (.ofTrait "A"))) (.connective .or)
        (.within .character (.more (.first (.phrase (.ofTrait "B"))) (.connective .and)
          (.phrase (.ofTrait "C")))))
      .comma (.within .session (.first (.phrase (.ofTrait "D"))))).Proper :=
    ⟨⟨trivial, nofun, ⟨trivial, nofun, trivial⟩⟩, ⟨rfl, rfl⟩, trivial⟩
  (ofTokens_proper _ hproper).1.mpr ⟨by decide, (Tree.statsPlaced_iff _).mpr rfl⟩

end Adventure.Condition
