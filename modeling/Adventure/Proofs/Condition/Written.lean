import Adventure.Condition.Script
import Adventure.Proofs.Condition.Reading
import Adventure.Proofs.Condition.Words

/-!
Trees written down as conditions.

`Tree.written` writes a tree with as few parentheses as the grammar allows: around an `or` under an
`and`, around a right side with the connective of the whole, and around a scope that is not last in
its clause. Such a script is read back as the tree that it was written from (`parse_written`): the
written clause is proper and stands for the tree (`proper_clause`, `tree_clause`), and its words are
scanned and folded back to its tokens (`Token.ofScript_write`).
-/

namespace Adventure.Condition

namespace Clause

/-- A clause of one operand in parentheses where they are needed, and as it stands where not. -/
def groupedIf (needed : Bool) (inside outside : Clause) : Clause :=
  if needed then first (.group inside) else outside

variable {needed : Bool} {inside outside : Clause}

theorem proper_groupedIf (hi : inside.Proper) (ho : outside.Proper) :
    (groupedIf needed inside outside).Proper := by
  cases needed with
  | true => exact hi
  | false => exact ho

theorem isClosed_groupedIf (ho : outside.isClosed = true) :
    (groupedIf needed inside outside).isClosed = true := by
  cases needed with
  | true => rfl
  | false => exact ho

theorem tree_groupedIf {t : Tree} (hi : inside.tree = t) (ho : outside.tree = t) :
    (groupedIf needed inside outside).tree = t := by
  cases needed with
  | true =>
    rw [groupedIf, if_pos rfl, tree_first, Operand.tree_group]
    exact hi
  | false => exact ho

theorem forall_tokens_groupedIf (hi : ∀ t ∈ inside.tokens, t.CanBeWritten)
    (ho : ∀ t ∈ outside.tokens, t.CanBeWritten) :
    ∀ t ∈ (groupedIf needed inside outside).tokens, t.CanBeWritten := by
  cases needed with
  | true =>
    rw [groupedIf, if_pos rfl, tokens, Operand.tokens, List.cons_append, List.forall_mem_cons,
      List.forall_mem_append, List.forall_mem_singleton]
    exact ⟨.of_isWord trivial trivial, hi, .of_isWord trivial trivial⟩
  | false => exact ho

theorem sum_groupedIf (ho : needed = false → outside.front.sum = none) :
    (groupedIf needed inside outside).front.sum = none := by
  cases needed with
  | true =>
    rw [groupedIf, if_pos rfl, front_first]
  | false => exact ho rfl

end Clause

/-- An operand that shows its own end may have a connective behind it. -/
theorem Operand.admits_connective {o : Operand} (h : o.isClosed = true) (c : Connective) :
    o.Admits (.connective c) := by
  cases o with
  | phrase p => nofun
  | group d => nofun
  | within s d => cases h

namespace Tree

/-- The connective that a tree is joined with at its top. -/
def connective? : Tree → Option Connective
  | join c _ _ => some c
  | phrase _ | within _ _ => none

/-- Whether a tree needs parentheses on either side of a connective: an `or` does under an `and`. -/
def bindsWeaker (t : Tree) (c : Connective) : Bool := c = .and && t.connective? = some .or

/-- Whether a tree needs parentheses on the right side of a connective: also one with that
connective, which would be grouped to the left. -/
def bindsNoTighter (t : Tree) (c : Connective) : Bool := t.bindsWeaker c || t.connective? = some c

/-- The clause that a tree is written as. Parentheses tell where a scope ends that is not last. -/
def clause (isLast : Bool) : Tree → Clause
  | phrase p => .first (.phrase p)
  | within s inner =>
    let whole := Clause.first (.within s (inner.clause true))
    .groupedIf (!isLast) whole whole
  | join c lhs rhs =>
    let left := Clause.groupedIf (lhs.bindsWeaker c) (lhs.clause true) (lhs.clause false)
    let right := Clause.groupedIf (rhs.bindsNoTighter c) (rhs.clause true) (rhs.clause isLast)
    left.append (.connective c) right

/-- A tree as a script. -/
def written (t : Tree) : String :=
  String.ofList (Token.write ((t.clause true).tokens.flatMap Token.spelledOut))

/-- The clause of a tree on the left of a connective. -/
def leftClause (t : Tree) (c : Connective) : Clause :=
  .groupedIf (t.bindsWeaker c) (t.clause true) (t.clause false)

/-- The clause of a tree on the right of a connective. -/
def rightClause (t : Tree) (c : Connective) (isLast : Bool) : Clause :=
  .groupedIf (t.bindsNoTighter c) (t.clause true) (t.clause isLast)

theorem clause_join (c : Connective) (lhs rhs : Tree) (isLast : Bool) :
    (join c lhs rhs).clause isLast =
      (lhs.leftClause c).append (.connective c) (rhs.rightClause c isLast) := rfl

/-! ### The written clause is proper -/

/-- A clause that more may follow shows its own end. -/
theorem isClosed_clause (t : Tree) : (t.clause false).isClosed = true := by
  induction t with
  | phrase p => rfl
  | within s inner ih => rfl
  | join c lhs rhs ihl ihr =>
    rw [clause_join, Clause.isClosed, Clause.last_append]
    exact Clause.isClosed_groupedIf ihr

theorem proper_clause (t : Tree) (isLast : Bool) : (t.clause isLast).Proper := by
  induction t generalizing isLast with
  | phrase p => trivial
  | within s inner ih => exact Clause.proper_groupedIf (ih true) (ih true)
  | join c lhs rhs ihl ihr =>
    have hclosed : (lhs.leftClause c).isClosed = true :=
      Clause.isClosed_groupedIf lhs.isClosed_clause
    rw [clause_join]
    apply Clause.proper_append
    · exact Clause.proper_groupedIf (ihl true) (ihl false)
    · exact Operand.admits_connective hclosed c
    · exact Clause.proper_groupedIf (ihr true) (ihr isLast)

/-! ### The written clause stands for the tree -/

/-- A tree without a connective at its top is written as one operand. -/
theorem exists_first {t : Tree} (h : t.connective? = none) (isLast : Bool) :
    ∃ o, t.clause isLast = .first o := by
  cases t with
  | phrase p => exact ⟨_, rfl⟩
  | within s inner => cases isLast <;> exact ⟨_, rfl⟩
  | join c lhs rhs => cases h

/-- The right side of an `and` is written as one operand. -/
theorem exists_first_rightClause (t : Tree) (isLast : Bool) :
    ∃ o, t.rightClause .and isLast = .first o := by
  rw [rightClause]
  cases hg : t.bindsNoTighter .and with
  | true => exact ⟨_, rfl⟩
  | false =>
    refine exists_first ?_ isLast
    cases hc : t.connective? with
    | none => rfl
    | some c => cases c <;> simp [bindsNoTighter, bindsWeaker, hc] at hg

/-- A tree that is no `or` is written as a product. -/
theorem sum_front_clause {t : Tree} (h : t.connective? ≠ some .or) (isLast : Bool) :
    (t.clause isLast).front.sum = none := by
  induction t generalizing isLast with
  | phrase p => rw [clause, Clause.front_first]
  | within s inner =>
    obtain ⟨o, ho⟩ := @exists_first (within s inner) rfl isLast
    rw [ho, Clause.front_first]
  | join c lhs rhs ihl ihr =>
    cases c with
    | or => exact absurd rfl h
    | and =>
      obtain ⟨o, ho⟩ := rhs.exists_first_rightClause isLast
      rw [clause_join, ho, Clause.append, Clause.front_more]
      apply Clause.sum_groupedIf
      intro hg
      apply ihl
      intro hor
      simp [bindsWeaker, hor] at hg

/-- The left side of an `and` is written as a product. -/
theorem sum_front_leftClause (t : Tree) : (t.leftClause .and).front.sum = none := by
  apply Clause.sum_groupedIf
  intro hg
  apply sum_front_clause
  intro hor
  simp [bindsWeaker, hor] at hg

/-- The right side of an `or` is written as a product. -/
theorem sum_front_rightClause (t : Tree) (isLast : Bool) :
    (t.rightClause .or isLast).front.sum = none := by
  apply Clause.sum_groupedIf
  intro hg
  apply sum_front_clause
  intro hor
  simp [bindsNoTighter, hor] at hg

/-- **The written clause of a tree stands for the tree.** -/
theorem tree_clause (t : Tree) (isLast : Bool) : (t.clause isLast).tree = t := by
  induction t generalizing isLast with
  | phrase p => rw [clause, Clause.tree_first, Operand.tree_phrase]
  | within s inner ih =>
    have hwhole : (Clause.first (.within s (inner.clause true))).tree = within s inner := by
      rw [Clause.tree_first, Operand.tree_within, ih]
    exact Clause.tree_groupedIf hwhole hwhole
  | join c lhs rhs ihl ihr =>
    have hl : (lhs.leftClause c).tree = lhs := Clause.tree_groupedIf (ihl true) (ihl false)
    have hr : (rhs.rightClause c isLast).tree = rhs :=
      Clause.tree_groupedIf (ihr true) (ihr isLast)
    cases c with
    | or =>
      have hsum := rhs.sum_front_rightClause isLast
      rw [clause_join, Clause.tree_append_or _ _ rfl hsum, hl, hr]
    | and =>
      obtain ⟨o, ho⟩ := rhs.exists_first_rightClause isLast
      rw [ho, Clause.tree_first] at hr
      rw [clause_join, ho, Clause.append, Clause.tree_more_and _ _ rfl lhs.sum_front_leftClause, hl,
        hr]

/-! ### The written words are read back -/

/-- The tokens of a written tree are its phrases, and what joins and groups them. -/
theorem canBeWritten_clause {t : Tree} (h : ∀ p ∈ t.phrases, p.CanBeWritten) (isLast : Bool) :
    ∀ token ∈ (t.clause isLast).tokens, token.CanBeWritten := by
  induction t generalizing isLast with
  | phrase p =>
    rw [clause, Clause.tokens, Operand.tokens]
    exact List.forall_mem_singleton.mpr (Token.canBeWritten_phrase (h p List.mem_cons_self))
  | within s inner ih =>
    have hwhole : ∀ token ∈ (Clause.first (.within s (inner.clause true))).tokens,
        token.CanBeWritten := by
      rw [Clause.tokens, Operand.tokens]
      exact List.forall_mem_cons.mpr ⟨.of_isWord trivial trivial, ih h true⟩
    exact Clause.forall_tokens_groupedIf hwhole hwhole
  | join c lhs rhs ihl ihr =>
    rw [phrases, List.forall_mem_append] at h
    rw [clause_join, Clause.tokens_append, List.forall_mem_append, List.forall_mem_cons]
    refine ⟨?_, .of_isWord trivial trivial, ?_⟩
    · exact Clause.forall_tokens_groupedIf (ihl h.1 true) (ihl h.1 false)
    · exact Clause.forall_tokens_groupedIf (ihr h.2 true) (ihr h.2 isLast)

end Tree

/-- **A tree that is written down is read back**, when it is at most 256 levels deep, tests no stat
where there are only traits, and its phrases can be written. -/
theorem parse_written {t : Tree} (hdepth : t.depth ≤ maxDepth) (hplaced : t.StatsPlaced)
    (hphrases : ∀ p ∈ t.phrases, p.CanBeWritten) : parse t.written = .ok t := by
  have hsteps := (t.clause true).steps_tokens (t.proper_clause true)
  rw [t.tree_clause] at hsteps
  rw [parse, Tree.written, Token.ofScript_write (t.canBeWritten_clause hphrases true)]
  have htree := Tree.ofTokens_of_steps hsteps
  rw [if_neg (Nat.not_lt.mpr hdepth), t.statsPlaced_iff.mp hplaced] at htree
  exact htree

/-- Parentheses show where `party` ends, and keep the `or` together under the `and`. -/
theorem parse_written_scopes :
    let lost : Tree := .phrase (.traits ⟨true, ["Lost", "Sworn in"]⟩)
    let poor : Tree := .within .party (.phrase (.stat ⟨.money, .less, ⟨-30, by decide, by decide⟩⟩))
    let kin : Tree := .within .session (.phrase (.traits ⟨false, ["Kin"]⟩))
    parse ("((party money < -30) or has not trait \"Lost\" \"Sworn in\") and " ++
      "session has trait \"Kin\"") = .ok (.join .and (.join .or poor lost) kin) := by
  intro lost poor kin
  have hread := @parse_written (.join .and (.join .or poor lost) kin) (by decide)
    ((Tree.statsPlaced_iff _).mpr (by decide)) (by
      simp [Tree.phrases, lost, poor, kin, Phrase.CanBeWritten])
  have hwritten : Tree.written (.join .and (.join .or poor lost) kin) =
      "((party money < -30) or has not trait \"Lost\" \"Sworn in\") and " ++
        "session has trait \"Kin\"" := by decide +kernel
  rw [hwritten] at hread
  exact hread

end Adventure.Condition
