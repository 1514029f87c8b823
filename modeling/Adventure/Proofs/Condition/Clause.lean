import Adventure.Condition.Tree

/-!
The grammar of conditions whose phrases are folded:

* a clause is a row of operands with a joiner between each two: `and`, `or` or a comma;
* an operand is a phrase, a clause in parentheses, or a scope with a clause of its own.

A clause under a scope goes on to the comma that ends it, or else to the end of the parentheses or of
the condition around it. Hence a scope that is not the last operand of its clause is followed by a
comma, its own clause does not end in a scope again, and a comma follows nothing but a scope
(`Operand.Admits`). Clauses that keep to this are `Proper`.

`Clause.tree` is the tree that a clause stands for, read off the grammar alone: `or` binds weakest,
`and` and the comma bind tighter, operands of one connective group to the left, and parentheses only
group. `Clause.tree_append_or` and `Clause.tree_more_and` say so for clauses that are put together.
-/

namespace Adventure.Condition

/-- The phrase that tests one trait. -/
def Phrase.ofTrait (name : String) : Phrase := .traits ⟨false, [name]⟩

/-- What stands between two operands of a clause. -/
inductive Joiner where
  | connective (c : Connective)
  | comma
deriving DecidableEq, Repr

namespace Joiner

/-- The connective that a joiner is read as: a comma joins like `and`. -/
def reads : Joiner → Connective
  | connective c => c
  | comma => .and

/-- The token of a joiner. -/
def token : Joiner → Token
  | connective c => .connective c
  | comma => .comma

end Joiner

mutual

/-- One operand of a clause. -/
inductive Operand where
  | phrase (p : Phrase)
  /-- A clause in parentheses. -/
  | group (c : Clause)
  /-- A scope and the clause that it holds for. -/
  | within (s : Scope) (c : Clause)

/-- Operands with joiners between them, grown on the right as they are read. -/
inductive Clause where
  | first (o : Operand)
  | more (c : Clause) (j : Joiner) (o : Operand)

end

mutual

/-- The tokens of an operand. -/
def Operand.tokens : Operand → List Token
  | .phrase p => [.phrase p]
  | .group c => .openParen :: c.tokens ++ [.closeParen]
  | .within s c => .scope s :: c.tokens

/-- The tokens of a clause. -/
def Clause.tokens : Clause → List Token
  | .first o => o.tokens
  | .more c j o => c.tokens ++ j.token :: o.tokens

end

/-! ### Proper clauses -/

/-- Whether an operand shows its own end: a phrase and a closing parenthesis do, a scope does not. -/
def Operand.isClosed : Operand → Bool
  | .phrase _ => true
  | .group _ => true
  | .within _ _ => false

/-- The last operand of a clause. -/
def Clause.last : Clause → Operand
  | .first o => o
  | .more _ _ o => o

/-- Whether a clause ends in a phrase or in a closing parenthesis. -/
def Clause.isClosed (c : Clause) : Bool := c.last.isClosed

/-- Whether an operand may have a joiner behind it. A comma ends the innermost scope that is open, so
it follows a scope whose own clause has none open, and such a scope is followed by nothing else. -/
def Operand.Admits : Operand → Joiner → Prop
  | .within _ c, j => j = .comma ∧ c.isClosed = true
  | .phrase _, j => j ≠ .comma
  | .group _, j => j ≠ .comma

mutual

/-- An operand all of whose clauses are proper. -/
def Operand.Proper : Operand → Prop
  | .phrase _ => True
  | .group c => c.Proper
  | .within _ c => c.Proper

/-- A clause in which every operand but the last admits the joiner behind it. -/
def Clause.Proper : Clause → Prop
  | .first o => o.Proper
  | .more c j o => c.Proper ∧ c.last.Admits j ∧ o.Proper

end

/-- The rows of tokens that are well-formed conditions. -/
def IsCondition (ts : List Token) : Prop := ∃ c : Clause, c.Proper ∧ c.tokens = ts

/-! ### The tree of a clause -/

/-- A tree joined to what stands before it, if anything does. -/
def Tree.joinedTo (c : Connective) : Option Tree → Tree → Tree
  | none, t => t
  | some before, t => .join c before t

/-- What stands in a clause before the operand that is read: a sum, to which an `or` joins the
product that is read, and the product so far, to which an `and` joins the operand. -/
structure Front where
  sum : Option Tree := none
  product : Option Tree := none

namespace Front

/-- The tree of the clause when the operand that is read is its last one. -/
def close (f : Front) (t : Tree) : Tree :=
  Tree.joinedTo .or f.sum (Tree.joinedTo .and f.product t)

/-- What stands before the next operand. An `and` goes on with the product, an `or` ends it. -/
def next (f : Front) (t : Tree) : Connective → Front
  | .and => ⟨f.sum, some (Tree.joinedTo .and f.product t)⟩
  | .or => ⟨some (f.close t), none⟩

end Front

mutual

/-- The tree that an operand stands for. -/
def Operand.tree : Operand → Tree
  | .phrase p => .phrase p
  | .group c => c.parts.1.close c.parts.2
  | .within s c => .within s (c.parts.1.close c.parts.2)

/-- What stands before the last operand of a clause, and the tree of that operand. -/
def Clause.parts : Clause → Front × Tree
  | .first o => ({}, o.tree)
  | .more c j o => (c.parts.1.next c.parts.2 j.reads, o.tree)

end

namespace Clause

/-- What stands before the last operand of a clause. -/
def front (c : Clause) : Front := c.parts.1

/-- The tree that a clause stands for. -/
def tree (c : Clause) : Tree := c.front.close c.last.tree

theorem parts_eq (c : Clause) : c.parts = (c.front, c.last.tree) := by
  cases c <;> rw [front, parts, last]

@[simp] theorem front_first (o : Operand) : (first o).front = {} := by rw [front, parts]

theorem front_more (c : Clause) (j : Joiner) (o : Operand) :
    (more c j o).front = c.front.next c.last.tree j.reads := by
  rw [front, parts, parts_eq c]

theorem tree_first (o : Operand) : (first o).tree = o.tree := by
  simp [tree, last, Front.close, Tree.joinedTo]

end Clause

namespace Operand

@[simp] theorem tree_phrase (p : Phrase) : (phrase p).tree = .phrase p := by simp [tree]

@[simp] theorem tree_group (c : Clause) : (group c).tree = c.tree := by
  simp [tree, Clause.tree, Clause.parts_eq c]

@[simp] theorem tree_within (s : Scope) (c : Clause) : (within s c).tree = .within s c.tree := by
  simp [tree, Clause.tree, Clause.parts_eq c]

end Operand

/-! ### Clauses put together -/

namespace Clause

/-- Two clauses as one, with a joiner between them. -/
def append (c : Clause) (j : Joiner) : Clause → Clause
  | first o => more c j o
  | more d k o => more (c.append j d) k o

variable (c : Clause) (j : Joiner)

@[simp] theorem last_append (d : Clause) : (c.append j d).last = d.last := by
  cases d <;> rfl

theorem tokens_append (d : Clause) :
    (c.append j d).tokens = c.tokens ++ j.token :: d.tokens := by
  match d with
  | first o => simp [append, tokens]
  | more d k o => simp [append, tokens, tokens_append d]

theorem proper_append {d : Clause} (hc : c.Proper) (hj : c.last.Admits j) (hd : d.Proper) :
    (c.append j d).Proper := by
  match d, hd with
  | first o, hd => exact ⟨hc, hj, hd⟩
  | more d k o, ⟨hd, hk, ho⟩ =>
    refine ⟨proper_append hc hj hd, ?_, ho⟩
    rw [last_append]
    exact hk

/-- Behind an `or`, the clause before it is the sum of a product that follows. -/
theorem front_append_or {d : Clause} (hj : j.reads = .or) (hd : d.front.sum = none) :
    (c.append j d).front = ⟨some c.tree, d.front.product⟩ := by
  match d, hd with
  | first o, _ =>
    rw [append, front_more, front_first, hj]
    rfl
  | more d k o, hd =>
    cases hk : k.reads with
    | or =>
      rw [front_more, hk] at hd
      cases hd
    | and =>
      rw [front_more, hk] at hd
      rw [append, front_more, front_more, hk, front_append_or hj hd, last_append]
      rfl

/-- **`or` binds weakest**: it joins all that stands before it to the product behind it. -/
theorem tree_append_or {d : Clause} (hj : j.reads = .or) (hd : d.front.sum = none) :
    (c.append j d).tree = .join .or c.tree d.tree := by
  have ht : d.tree = Tree.joinedTo .and d.front.product d.last.tree := by
    rw [tree, Front.close, hd, Tree.joinedTo]
  rw [tree, front_append_or c j hj hd, last_append, ht]
  rfl

/-- **`and` and the comma bind tighter**: in a product they join all that stands before them to the
operand behind them. -/
theorem tree_more_and {o : Operand} (hj : j.reads = .and) (hc : c.front.sum = none) :
    (more c j o).tree = .join .and c.tree o.tree := by
  rw [tree, front_more, hj, tree]
  simp [last, Front.next, Front.close, Tree.joinedTo, hc]

end Clause

end Adventure.Condition
