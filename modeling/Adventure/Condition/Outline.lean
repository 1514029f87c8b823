import Adventure.Condition.Tree
import Adventure.Text.Pieces
import Adventure.Text.Visible

/-!
Tokens and trees laid out for an author to look at, on one line or indented.
-/

namespace Adventure.Condition

/-- The layout of a value: its parts, and what stands around them. -/
inductive Outline where
  | leaf (text : String)
  /-- Parts between an opening and a closing, set off by spaces on one line if `spaced`. -/
  | group (opening closing : String) (spaced : Bool) (parts : List Outline)
  | field (label : String) (value : Outline)

namespace Outline

/-- Parts in parentheses after a name. -/
def tuple (name : String) (parts : List Outline) : Outline := group (name ++ "(") ")" false parts

/-- Named parts in braces after a name. -/
def record (name : String) (fields : List (String × Outline)) : Outline :=
  group (name ++ " \x7b") "\x7d" true (fields.map fun (label, value) => field label value)

/-- Parts in brackets. -/
def list (parts : List Outline) : Outline := group "[" "]" false parts

mutual

/-- The layout on one line. -/
def line : Outline → String
  | leaf text => text
  | field label value => label ++ ": " ++ value.line
  | group opening closing spaced parts =>
    let space := if spaced then " " else ""
    opening ++ space ++ Text.commas (lineParts parts) ++ space ++ closing

/-- The layouts of some parts on one line each. -/
def lineParts : List Outline → List String
  | [] => []
  | p :: ps => p.line :: lineParts ps

end

mutual

/-- The layout with every part of a group on a line of its own, four spaces further in than the
group, which stands `indent` spaces in. -/
def indented (indent : Nat) : Outline → String
  | leaf text => text
  | field label value => label ++ ": " ++ value.indented indent
  | group opening closing _ [] => opening ++ closing
  | group opening closing _ (p :: ps) =>
    opening ++ "\n" ++ indentedParts (indent + 4) (p :: ps) ++ Text.padLeft indent "" ++ closing

/-- The lines of some parts. -/
def indentedParts (indent : Nat) : List Outline → String
  | [] => ""
  | p :: ps =>
    Text.padLeft indent "" ++ p.indented indent ++ ",\n" ++ indentedParts indent ps

end

end Outline

/-- The layout of a connective. -/
def Connective.outline : Connective → Outline
  | .and => .leaf "And"
  | .or => .leaf "Or"

/-- The layout of a comparison. -/
def Comparison.outline : Comparison → Outline
  | greater => .leaf "Gt"
  | less => .leaf "Lt"
  | equal => .leaf "Eq"
  | unequal => .leaf "Ne"

/-- The layout of a scope. -/
def Scope.outline : Scope → Outline
  | character => .leaf "Character"
  | party => .leaf "Party"
  | encounter => .leaf "Encounter"
  | session => .leaf "Session"

/-- The layout of a phrase. -/
def Phrase.outline : Phrase → Outline
  | stat p =>
    .tuple "Stat" [.record "StatPhrase" [("stat", .leaf p.stat.tag),
      ("comparison", p.comparison.outline), ("number", .leaf (Decimal.ofInt p.number.val))]]
  | traits p =>
    .tuple "Trait" [.record "TraitPhrase" [
      ("inverse", .leaf (if p.inverse then "true" else "false")),
      ("traits", .list (p.traits.map fun t => .leaf (Text.quoted t)))]]

/-- The layout of a token. -/
def Token.outline : Token → Outline
  | quote text => .tuple "String" [.leaf (Text.quoted text)]
  | number n => .tuple "Number" [.leaf (Decimal.ofInt n.val)]
  | stat s => .tuple "Stat" [.leaf s.tag]
  | connective c => .tuple "Bool" [c.outline]
  | comparison c => .tuple "Comparison" [c.outline]
  | scope s => .tuple "Target" [s.outline]
  | openParen => .leaf "OpenParen"
  | closeParen => .leaf "CloseParen"
  | comma => .leaf "Comma"
  | hasWord => .leaf "Has"
  | notWord => .leaf "Not"
  | traitWord => .leaf "Trait"
  | phrase p => .tuple "Phrase" [p.outline]

/-- The layout of a tree. -/
def Tree.outline : Tree → Outline
  | phrase p => .tuple "Phrase" [p.outline]
  | join c lhs rhs =>
    .record "Bool" [("op", c.outline), ("lhs", lhs.outline), ("rhs", rhs.outline)]
  | within s inner => .record "Target" [("scope", s.outline), ("inner", inner.outline)]

end Adventure.Condition
