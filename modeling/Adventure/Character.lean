import Adventure.Score
import Adventure.Stat
import Adventure.Text.Blank

/-!
Characters: name, title, the ten stats, traits and death thresholds.

A stat block is a function on stats in all but storage: `get_set` says what a changed block gives.
-/

namespace Adventure

/-- The scores of the ten stats. -/
structure StatBlock where
  strength : Score := 0
  toughness : Score := 0
  dexterity : Score := 0
  perception : Score := 0
  magic : Score := 0
  knowledge : Score := 0
  charisma : Score := 0
  willpower : Score := 0
  lethality : Score := 0
  money : Score := 0
deriving DecidableEq, Repr

namespace StatBlock

/-- The score of a stat. -/
def get (b : StatBlock) : Stat → Score
  | .strength => b.strength
  | .toughness => b.toughness
  | .dexterity => b.dexterity
  | .perception => b.perception
  | .magic => b.magic
  | .knowledge => b.knowledge
  | .charisma => b.charisma
  | .willpower => b.willpower
  | .lethality => b.lethality
  | .money => b.money

/-- The block with the score of one stat replaced. -/
def set (b : StatBlock) (s : Stat) (v : Score) : StatBlock :=
  match s with
  | .strength => { b with strength := v }
  | .toughness => { b with toughness := v }
  | .dexterity => { b with dexterity := v }
  | .perception => { b with perception := v }
  | .magic => { b with magic := v }
  | .knowledge => { b with knowledge := v }
  | .charisma => { b with charisma := v }
  | .willpower => { b with willpower := v }
  | .lethality => { b with lethality := v }
  | .money => { b with money := v }

theorem get_set (b : StatBlock) (s t : Stat) (v : Score) :
    (b.set s v).get t = if t = s then v else b.get t := by
  cases s <;> cases t <;> rfl

end StatBlock

/-- The scores at or below which the stats of a group kill. -/
structure Thresholds where
  physical : Score := 0
  mental : Score := 0
  debt : Score := 0
deriving DecidableEq, Repr

/-- The threshold of a group. -/
def Thresholds.get (t : Thresholds) : Stat.Group → Score
  | .physical => t.physical
  | .mental => t.mental
  | .debt => t.debt

/-- One change of a stat: `value` is added to the stat, or takes its place. -/
structure StatChange where
  stat : Stat
  value : Score
  additive : Bool
deriving DecidableEq, Repr

/-- A character of the party. Traits stay in the order in which they were gained, and may repeat. -/
structure Character where
  name : String := ""
  title : String := ""
  stats : StatBlock := {}
  traits : List String := []
  thresholds : Thresholds := {}
deriving DecidableEq, Repr

namespace Character

/-- A character with a name, trimmed, and nothing else. -/
def named (name : String) : Character := { name := Text.trimmed name }

/-- What stands before and after the first space of the name, if that space is not its first
character. -/
def nameParts? (c : Character) : Option (List Char × List Char) :=
  (Text.splitAt? (· = ' ') c.name.toList).filter fun (first, _) => !first.isEmpty

/-- The part of the name before its first space, or the whole name. -/
def firstName (c : Character) : String :=
  match c.nameParts? with
  | some (first, _) => String.ofList first
  | none => c.name

/-- The part of the name after its first space, or nothing. -/
def lastName (c : Character) : String :=
  match c.nameParts? with
  | some (_, last) => String.ofList last
  | none => ""

/-- The score of a stat. -/
def stat (c : Character) (s : Stat) : Score := c.stats.get s

/-- The character with the score of one stat replaced. -/
def setStat (c : Character) (s : Stat) (v : Score) : Character :=
  { c with stats := c.stats.set s v }

/-- The character after a stat change. Additive changes stop at the limits of scores. -/
def apply (c : Character) (change : StatChange) : Character :=
  c.setStat change.stat
    (if change.additive then c.stat change.stat + change.value else change.value)

/-- Whether the character has a trait. -/
def hasTrait (c : Character) (name : String) : Bool := c.traits.contains name

/-- Whether the character has every one of some traits. -/
def hasTraits (c : Character) (names : List String) : Bool := names.all c.hasTrait

/-- The character with a further trait. -/
def addTrait (c : Character) (name : String) : Character :=
  { c with traits := c.traits ++ [name] }

/-- The character without the first occurrence of a trait. -/
def removeTrait (c : Character) (name : String) : Character :=
  { c with traits := c.traits.erase name }

/-- Whether a stat is at or below the threshold of its group. -/
def limitReached (c : Character) (s : Stat) : Bool :=
  match s.group? with
  | some g => decide (c.stat s ≤ c.thresholds.get g)
  | none => false

/-- The stats that are at or below the threshold of their group, in the order of all stats. -/
def limitsReached (c : Character) : List Stat := Stat.all.filter c.limitReached

/-- Whether no stat has reached its limit. -/
def isAlive (c : Character) : Bool := !Stat.all.any c.limitReached

/-- Dexterity and perception together, which decide who acts first. Unlike the arithmetic on scores,
this sum does not stop at their limits: beyond one of them it goes on from the other. -/
def initiative (c : Character) : Int :=
  ((c.stat .dexterity).val + (c.stat .perception).val).bmod 4294967296

theorem isAlive_iff {c : Character} : c.isAlive = true ↔ c.limitsReached = [] := by
  simp [isAlive, limitsReached, List.filter_eq_nil_iff]

end Character

end Adventure
