import Adventure.Condition.Tree
import Adventure.GameData

/-!
What a condition says about game data.

A phrase outside every scope asks for some character, phrase by phrase; a scope `character` asks for
one character who satisfies its whole clause.
-/

namespace Adventure.Condition

/-- What a phrase is tested against. -/
inductive Binding where
  /-- No scope encloses the phrase. -/
  | none
  | character (c : Character)
  | party
  | encounter
  | session

namespace StatPhrase

/-- Whether the test holds of a number. -/
def holdsOf (p : StatPhrase) (n : Int) : Bool := p.comparison.holds n p.number.val

end StatPhrase

namespace TraitPhrase

/-- Whether the test holds, given which traits are there. -/
def holdsWith (p : TraitPhrase) (present : String → Bool) : Bool :=
  p.traits.all present != p.inverse

end TraitPhrase

namespace Phrase

/-- Whether a phrase holds of one character. -/
def holdsOf (c : Character) : Phrase → Bool
  | stat p => p.holdsOf (c.stat p.stat).val
  | traits p => p.holdsWith c.hasTrait

/-- Whether a phrase holds. A test of a stat never holds where there are only traits. -/
def holds (d : GameData) : Binding → Phrase → Bool
  | .none, p => d.characters.any p.holdsOf
  | .character c, p => p.holdsOf c
  | .party, stat p => p.holdsOf ((d.characters.map fun c => (c.stat p.stat).val).foldr (· + ·) 0)
  | .party, traits p => p.holdsWith d.partyHas
  | .encounter, traits p => p.holdsWith d.encounterTraits.contains
  | .session, traits p => p.holdsWith d.sessionTraits.contains
  | .encounter, stat _ => false
  | .session, stat _ => false

end Phrase

namespace Tree

/-- Whether a tree holds under what binds its phrases. -/
def holdsUnder (d : GameData) (b : Binding) : Tree → Bool
  | phrase p => p.holds d b
  | join .and lhs rhs => lhs.holdsUnder d b && rhs.holdsUnder d b
  | join .or lhs rhs => lhs.holdsUnder d b || rhs.holdsUnder d b
  | within .character inner => d.characters.any fun c => inner.holdsUnder d (.character c)
  | within .party inner => inner.holdsUnder d .party
  | within .encounter inner => inner.holdsUnder d .encounter
  | within .session inner => inner.holdsUnder d .session

/-- Whether a condition holds of game data. -/
def holds (t : Tree) (d : GameData) : Bool := t.holdsUnder d .none

end Tree

end Adventure.Condition
