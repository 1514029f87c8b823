import Adventure.Play.Choice
import Adventure.Play.Fork
import Adventure.Play.Naming
import Adventure.Storyboard

/-!
Playing a storyboard with a group of players: what is told, how the game data change, and which
storyboards follow for whom.

Every player takes one of the decisions that are open to them, counted by the player's place on the
roster, so that the party splits up.
-/

namespace Adventure.Play

/-- What a panel or a storyboard leads to: the texts that are told, and the groups that go on. -/
structure Outcome where
  told : List String := []
  next : List Group := []
deriving DecidableEq, Repr

/-- Notes who has fallen: for each of the players on the roster who has reached a limit, the death
trait of the first such stat, unless the session has it. Deaths are found before any is noted. -/
def recordDeaths (players : List Nat) (d : GameData) : GameData × List String :=
  let deaths := players.filterMap fun p =>
    d.characters[p]?.bind fun c => c.limitsReached.head?.map fun s => (c.name, s.deathTrait)
  deaths.foldl
    (fun (d, told) (name, death) =>
      if d.sessionTraits.contains death then (d, told)
      else
        ({ d with sessionTraits := d.sessionTraits ++ [death] },
          told ++ [s!"  [{name} has fallen: {death}]"]))
    (d, [])

/-- The data after an effect on some players. A player who is named twice feels it twice. -/
def applyEffect (e : Effect) (players : List Nat) (d : GameData) : GameData :=
  { d with
    characters := players.foldl (fun cs p => cs.modify p e.applyTo) d.characters
    encounterTraits := d.encounterTraits ++ e.encounterTraits
    sessionTraits := d.sessionTraits ++ e.sessionTraits }

/-- What is told of an error in a guard. -/
def toldOfError (e : Condition.Error) : String := s!"[Condition error: {e.message}]"

/-- The decision of one player: what is told of it and what is picked, if anything is open. -/
def chooseDecision (d : GameData) (options : List DecisionOption) (merge : Bool) (player : Nat) :
    List String × Option Pick :=
  let own := d.forPlayers [player]
  match availableDecisions own options with
  | .error e => ([toldOfError e], none)
  | .ok available =>
    match available[player % available.length]? with
    | none => ([], none)
    | some choice =>
      let chooser := (own.characters.head?.map Character.firstName).getD "?"
      ([s!"  {chooser} chooses: {choice.text}"], some (Pick.ofDecision player choice merge))

/-- The branch of some players who go together: what is told of it and what is picked, if a guard
holds. -/
def chooseBranch (d : GameData) (options : List BranchOption) (merge : Bool) (players : List Nat) :
    List String × Option Pick :=
  match resolveBranch (d.forPlayers players) options with
  | .error e => ([toldOfError e], none)
  | .ok none => ([], none)
  | .ok (some o) => ([], some (Pick.ofBranch players o merge))

/-- The groups that some picks make, in the order in which they go on. -/
def groupsOf (d : GameData) (picks : List Pick) : List Group :=
  ((picks.foldl Fork.pick {}).sendOff d.characters).1

/-- Plays one panel. `names` is what the players are called. -/
def playPanel (names : String) (players : List Nat) (d : GameData) (p : Panel) :
    GameData × Outcome :=
  match p.body with
  | .narration text effect =>
    let (after, deaths) := recordDeaths players (applyEffect effect players d)
    (after, { told := withNames text names :: deaths })
  | .decision prompt options =>
    let choices := players.map (chooseDecision d options p.merges)
    (d, { told := withNames prompt names :: choices.flatMap Prod.fst
          next := groupsOf d (choices.filterMap Prod.snd) })
  | .branch options =>
    let groups := if p.splitsParty then players.map ([·]) else [players]
    let choices := groups.map (chooseBranch d options p.merges)
    (d, { told := choices.flatMap Prod.fst
          next := groupsOf d (choices.filterMap Prod.snd) })

/-- Plays panels one after another. -/
def playPanels (names : String) (players : List Nat) (d : GameData) :
    List Panel → GameData × Outcome
  | [] => (d, {})
  | p :: rest =>
    let (d, first) := playPanel names players d p
    let (d, others) := playPanels names players d rest
    (d, ⟨first.told ++ others.told, first.next ++ others.next⟩)

/-- Plays a storyboard, told under a heading with its name and the players'. They are called by what
they are when it begins. -/
def playBoard (board : Storyboard) (players : List Nat) (d : GameData) : GameData × Outcome :=
  let isParty := players.length == d.characters.length
  let names := playerNames (d.forPlayers players).characters isParty
  let (after, outcome) := playPanels names players d board.panels
  (after, { outcome with
    told := s!"--- {board.id} ({names}) ---" :: outcome.told ++ [""] })

end Adventure.Play
