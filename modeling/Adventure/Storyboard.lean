import Adventure.Panel

/-!
Storyboards: a name, properties, and panels that are played one after another.
-/

namespace Adventure

/-- A unit of the narrative that can be played. -/
structure Storyboard where
  id : String
  properties : Keyed String
  panels : List Panel

end Adventure
