import Adventure.Text.Pieces

/-!
The ten stats of a character, their names, and the groups in which they share a death threshold.
-/

namespace Adventure

/-- The stats that every character has. -/
inductive Stat where
  | strength
  | toughness
  | dexterity
  | perception
  | magic
  | knowledge
  | charisma
  | willpower
  | lethality
  | money
deriving DecidableEq, Repr

namespace Stat

/-- All stats, in the order in which they are listed. -/
def all : List Stat :=
  [strength, toughness, dexterity, perception, magic, knowledge, charisma, willpower, lethality,
    money]

theorem mem_all (s : Stat) : s ∈ all := by cases s <;> decide

/-- The words for each stat: its full name, a short name, and what players call it. -/
def words : List (String × Stat) :=
  [("strength", strength), ("str", strength),
    ("toughness", toughness), ("tuf", toughness),
    ("dexterity", dexterity), ("dex", dexterity),
    ("perception", perception), ("per", perception),
    ("magic", magic), ("mag", magic),
    ("knowledge", knowledge), ("kno", knowledge),
    ("charisma", charisma), ("cha", charisma), ("swagger", charisma), ("madlad", charisma),
    ("willpower", willpower), ("wil", willpower),
    ("lethality", lethality), ("let", lethality),
    ("money", money), ("dough", money)]

/-- The stat that a word names, in whatever ASCII case it is written. Conditions and effect lines
both look their words up here. -/
def ofWord? (word : String) : Option Stat :=
  words.lookup (String.ofList (Text.asciiLower word.toList))

/-- The name in capitals, as it is displayed. -/
def abbreviation : Stat → String
  | strength => "STR"
  | toughness => "TUF"
  | dexterity => "DEX"
  | perception => "PER"
  | magic => "MAG"
  | knowledge => "KNO"
  | charisma => "CHA"
  | willpower => "WIL"
  | lethality => "LET"
  | money => "MONEY"

/-- The short name with one capital, as it stands in records. -/
def tag : Stat → String
  | strength => "Str"
  | toughness => "Tuf"
  | dexterity => "Dex"
  | perception => "Per"
  | magic => "Mag"
  | knowledge => "Kno"
  | charisma => "Cha"
  | willpower => "Wil"
  | lethality => "Let"
  | money => "Money"

/-- The full name in small letters, as it stands in records. -/
def fieldName : Stat → String
  | strength => "strength"
  | toughness => "toughness"
  | dexterity => "dexterity"
  | perception => "perception"
  | magic => "magic"
  | knowledge => "knowledge"
  | charisma => "charisma"
  | willpower => "willpower"
  | lethality => "lethality"
  | money => "money"

/-- The stats that share a death threshold. -/
inductive Group where
  | physical
  | mental
  | debt
deriving DecidableEq, Repr

/-- The group's name. -/
def Group.name : Group → String
  | physical => "Physical"
  | mental => "Mental"
  | debt => "Debt"

/-- The group whose threshold a stat is checked against. Nobody dies of lethality. -/
def group? : Stat → Option Group
  | strength | toughness | dexterity | perception => some .physical
  | magic | knowledge | charisma | willpower => some .mental
  | money => some .debt
  | lethality => none

/-- The session trait that records a death from this stat. -/
def deathTrait : Stat → String
  | strength => "Strength Limit Death"
  | toughness => "Toughness Limit Death"
  | dexterity => "Dexterity Limit Death"
  | perception => "Perception Limit Death"
  | magic => "Magic Limit Death"
  | knowledge => "Knowledge Limit Death"
  | charisma => "Charisma Limit Death"
  | willpower => "Willpower Limit Death"
  | lethality => "Lethality Limit Death"
  | money => "Debt Limit Death"

/-- Every stat is named by its own displayed name. -/
theorem ofWord?_abbreviation (s : Stat) : ofWord? s.abbreviation = some s := by
  cases s <;> decide

end Stat

end Adventure
