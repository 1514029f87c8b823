import Adventure.Play.Scene
import Adventure.Uri

/-!
Sessions: storyboards of one asset are played one after another, each with the players who were sent
on to it, until nobody has anywhere to go.

The groups wait in a queue, so that all who were sent on from one storyboard play before those who
are sent on from theirs. Storyboards may lead back to each other for ever; a session therefore has a
bound on its rounds.
-/

namespace Adventure.Play

/-- Players who wait for a storyboard, which is given by its name in the asset. -/
structure Waiting where
  board : String
  players : List Nat
deriving DecidableEq, Repr

/-- Who waits after some groups were sent on, and what is told of those whose target lies outside
the asset. -/
def sendOn (asset : String) (groups : List Group) : List Waiting × List String :=
  let named := groups.map fun g => (g, Uri.localName? asset g.targetUri)
  (named.filterMap fun (g, name) => name.map fun n => ⟨n, g.players⟩,
    named.filterMap fun (g, name) =>
      if name.isNone then some s!"[Skipping non-local target {g.targetUri}]" else none)

/-- The data at the end of a session of at most `rounds` storyboards, and what was told. A name
without a storyboard counts as a round. -/
def playSession (asset : String) (boards : Keyed Storyboard) :
    (rounds : Nat) → List Waiting → GameData → GameData × List String
  | 0, _, d => (d, [])
  | _ + 1, [], d => (d, [])
  | rounds + 1, first :: rest, d =>
    match boards.get? first.board with
    | none =>
      let (d, told) := playSession asset boards rounds rest d
      (d, s!"[Missing storyboard: {first.board}]" :: told)
    | some board =>
      let (d, outcome) := playBoard board first.players d
      let (followers, skipped) := sendOn asset outcome.next
      let (d, told) := playSession asset boards rounds (rest ++ followers) d
      (d, outcome.told ++ skipped ++ told)

end Adventure.Play
