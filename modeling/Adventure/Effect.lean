import Adventure.GameData

/-!
Effects: what a narration does to the characters it is about, and to the encounter and the session.
-/

namespace Adventure

/-- The stat changes and the traits that a narration brings. -/
structure Effect where
  statChanges : List StatChange := []
  characterTraits : List String := []
  encounterTraits : List String := []
  sessionTraits : List String := []
deriving DecidableEq, Repr

namespace Effect

instance : Inhabited Effect := ⟨{}⟩

/-- Whether nothing changes. -/
def isEmpty (e : Effect) : Bool :=
  e.statChanges.isEmpty && e.characterTraits.isEmpty && e.encounterTraits.isEmpty &&
    e.sessionTraits.isEmpty

/-- A character after the stat changes, in order, and with the new traits of characters. -/
def applyTo (e : Effect) (c : Character) : Character :=
  let changed := e.statChanges.foldl Character.apply c
  e.characterTraits.foldl Character.addTrait changed

end Effect

end Adventure
