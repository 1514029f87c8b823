import Adventure.Condition.Tree

/-!
From tokens to a tree, in two passes. The first puts the tokens into the order in which a tree is
built from its phrases upwards: `or` binds weakest, `and` and the comma bind tighter, connectives of
one kind group to the left, and a scope holds on to the end of its clause. The second builds the
tree with a stack.

A clause ends at a comma, at the parenthesis that encloses it, or at the end of the condition.
-/

namespace Adventure.Condition

/-- One step in building a tree from its phrases upwards. -/
inductive Step where
  /-- A new tree of one phrase. -/
  | phrase (p : Phrase)
  /-- The two newest trees become one. -/
  | join (c : Connective)
  /-- The newest tree comes under a scope. -/
  | within (s : Scope)
deriving DecidableEq, Repr

/-- What waits for the end of its right side, or of its clause. -/
inductive Waiting where
  | connective (c : Connective)
  | scope (s : Scope)
  | openParen
deriving DecidableEq, Repr

namespace Steps

/-- Whether a connective that waits is done when another one comes: always, except that an `or`
waits on when an `and` comes. -/
def yields (waiting coming : Connective) : Bool := !(waiting = .or && coming = .and)

/-- Lets a connective wait, after those that are done when it comes. -/
def await (c : Connective) : List Waiting → List Step × List Waiting
  | .connective top :: rest =>
    if yields top c then
      let (steps, left) := await c rest
      (.join top :: steps, left)
    else ([], .connective c :: .connective top :: rest)
  | left => ([], .connective c :: left)

/-- Ends the innermost clause of a scope, unless a parenthesis or the start of the condition comes
first. -/
def closeClause : List Waiting → Except Error (List Step × List Waiting)
  | .connective c :: rest => do
    let (steps, left) ← closeClause rest
    return (.join c :: steps, left)
  | .scope s :: rest => .ok ([.within s], rest)
  | _ => .error .commaWithoutScope

/-- Ends everything back to the innermost open parenthesis. -/
def closeParen : List Waiting → Except Error (List Step × List Waiting)
  | .openParen :: rest => .ok ([], rest)
  | .connective c :: rest => do
    let (steps, left) ← closeParen rest
    return (.join c :: steps, left)
  | .scope s :: rest => do
    let (steps, left) ← closeParen rest
    return (.within s :: steps, left)
  | [] => .error .strayClose

/-- Ends everything at the end of the condition. -/
def finish : List Waiting → Except Error (List Step)
  | [] => .ok []
  | .connective c :: rest => do return .join c :: (← finish rest)
  | .scope s :: rest => do return .within s :: (← finish rest)
  | .openParen :: _ => .error .unclosedOpen

/-- The steps that one token allows, and what waits after it. -/
def read (waiting : List Waiting) : Token → Except Error (List Step × List Waiting)
  | .phrase p => .ok ([.phrase p], waiting)
  | .scope s => .ok ([], .scope s :: waiting)
  | .openParen => .ok ([], .openParen :: waiting)
  | .connective c => .ok (await c waiting)
  | .comma => do
    let (steps, left) ← closeClause waiting
    let (more, left) := await .and left
    return (steps ++ more, left)
  | .closeParen => closeParen waiting
  | t => .error (.strayToken t)

/-- The steps for some tokens, and for what waits when they begin. -/
def ofTokens (waiting : List Waiting) : List Token → Except Error (List Step)
  | [] => finish waiting
  | t :: ts => do
    let (steps, left) ← read waiting t
    return steps ++ (← ofTokens left ts)

/-- A tree on the stack of the second pass, with the depth that was counted while it was built. -/
structure Measured where
  tree : Tree
  depth : Nat
  depth_eq : depth = tree.depth

namespace Measured

/-- A phrase is one level deep. -/
def phrase (p : Phrase) : Measured := ⟨.phrase p, 1, rfl⟩

/-- A connective lies one level above the deeper of its sides. -/
def join (c : Connective) (lhs rhs : Measured) : Measured where
  tree := .join c lhs.tree rhs.tree
  depth := max lhs.depth rhs.depth + 1
  depth_eq := by rw [lhs.depth_eq, rhs.depth_eq, Tree.depth]

/-- A scope lies one level above what is under it. -/
def within (s : Scope) (inner : Measured) : Measured where
  tree := .within s inner.tree
  depth := inner.depth + 1
  depth_eq := by rw [inner.depth_eq, Tree.depth]

end Measured

/-- Takes one step with the trees that are there, the newest first. No tree may become too deep. -/
def take (trees : List Measured) (s : Step) : Except Error (List Measured) := do
  let (entry, rest) ← match s, trees with
    | .phrase p, rest => .ok (.phrase p, rest)
    | .join c, rhs :: lhs :: rest => .ok (.join c lhs rhs, rest)
    | .join c, _ => .error (.missingSide c)
    | .within s, inner :: rest => .ok (.within s inner, rest)
    | .within s, [] => .error (.emptyScope s)
  if entry.depth > maxDepth then .error .tooDeep else return entry :: rest

/-- Takes all steps and gives the one tree that is left. -/
def build (trees : List Measured) : List Step → Except Error Tree
  | s :: steps => do build (← take trees s) steps
  | [] =>
    match trees with
    | [] => .error .noPhrase
    | [entry] => .ok entry.tree
    | _ => .error .notJoined

end Steps

/-- The tree of a condition whose phrases are folded. It joins the phrases as the tokens say, is at
most 256 levels deep, and tests no stat where there are only traits. -/
def Tree.ofTokens (tokens : List Token) : Except Error Tree := do
  let tree ← Steps.build [] (← Steps.ofTokens [] tokens)
  match tree.misplacedStat? none with
  | some e => .error e
  | none => return tree

end Adventure.Condition
