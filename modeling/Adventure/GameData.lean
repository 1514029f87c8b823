import Adventure.Character

/-!
Game data: everything that a condition can look at and a storyboard can change.
-/

namespace Adventure

/-- The roster, and the traits of the running encounter and of the whole session. -/
structure GameData where
  characters : List Character := []
  encounterTraits : List String := []
  sessionTraits : List String := []
deriving DecidableEq, Repr

namespace GameData

instance : Inhabited GameData := ⟨{}⟩

/-- The characters who are alive. -/
def living (d : GameData) : List Character := d.characters.filter Character.isAlive

/-- The data narrowed to some players, given by their places on the roster, in the order given.
Places beyond the roster are skipped; encounter and session traits stay. -/
def forPlayers (d : GameData) (players : List Nat) : GameData :=
  { d with characters := players.filterMap fun p => d.characters[p]? }

/-- Whether some character has a trait. -/
def partyHas (d : GameData) (name : String) : Bool := d.characters.any (·.hasTrait name)

/-- Every trait of some character, once each and in alphabetical order. -/
def partyTraits (d : GameData) : List String :=
  (d.characters.flatMap Character.traits).eraseDups.mergeSort fun a b => decide (a ≤ b)

end GameData

end Adventure
