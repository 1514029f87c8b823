import Adventure.Markup.Report
import Adventure.Play.Choice
import Adventure.Play.Naming
import Adventure.Record.Schema

/-!
Previews: an author steps through an asset with game data of their own.

Every request either has an answer or an error that says what was wrong with the request.
-/

namespace Adventure

/-- An asset that was read, and the game data to step through it with. -/
structure Preview where
  storyboards : Keyed Storyboard
  warnings : List Markup.Warning
  data : GameData := {}

namespace Preview

/-- Why a request has no answer. -/
inductive Error where
  | unreadableData
  | unreadablePlayers
  | unknownStoryboard (name : String)
  | noPanel (name : String) (panel : Nat)
  | notNarration (name : String) (panel : Nat)
  | notBranch (name : String) (panel : Nat)
  | notDecision (name : String) (panel : Nat)
  | condition (e : Condition.Error)
deriving DecidableEq, Repr

/-- What an author is told. -/
def Error.message : Error → String
  | unreadableData => "Game data parse error"
  | unreadablePlayers => "Player list parse error"
  | unknownStoryboard name => s!"Unknown storyboard: {name}"
  | noPanel name panel => s!"Storyboard {name} has no panel {Decimal.ofNat panel}"
  | notNarration name panel => s!"Panel {Decimal.ofNat panel} of {name} is not narration"
  | notBranch name panel => s!"Panel {Decimal.ofNat panel} of {name} is not a branch"
  | notDecision name panel => s!"Panel {Decimal.ofNat panel} of {name} is not a decision"
  | condition e => e.message

variable [Record.Formats]

/-- Game data from a text in JSON. -/
def readData (json : String) : Except Error GameData :=
  match GameData.ofJson? json with
  | some d => .ok d
  | none => .error .unreadableData

/-- Players from a text in JSON. -/
def readPlayers (json : String) : Except Error (List Nat) :=
  match Record.playersOfJson? json with
  | some players => .ok players
  | none => .error .unreadablePlayers

/-- Whether a condition holds of game data in JSON. The data are read before the condition. -/
def evaluate (script json : String) : Except Error Bool := do
  let d ← readData json
  (Condition.evaluate script d).mapError .condition

/-- The preview of an asset, at first without any game data. -/
def ofAsset (asset text : String) : Preview :=
  let report := Markup.Report.ofAsset {} asset text
  { storyboards := report.storyboards, warnings := report.warnings }

/-- The preview with other game data. -/
def setData (p : Preview) (json : String) : Except Error Preview := do
  return { p with data := ← readData json }

/-- The names of the storyboards, in alphabetical order. -/
def names (p : Preview) : List String := p.storyboards.sorted.map Prod.fst

/-- A storyboard. -/
def board (p : Preview) (name : String) : Except Error Storyboard :=
  match p.storyboards.get? name with
  | some b => .ok b
  | none => .error (.unknownStoryboard name)

/-- A panel, by its place in a storyboard. -/
def panel (p : Preview) (name : String) (place : Nat) : Except Error Panel := do
  match (← p.board name).panels[place]? with
  | some found => return found
  | none => throw (.noPanel name place)

/-- The text of a narration as it is told to some players, who are given in JSON. -/
def narration (p : Preview) (name : String) (place : Nat) (json : String) :
    Except Error String := do
  let players ← readPlayers json
  match (← p.panel name place).body with
  | .narration text _ =>
    let isParty := !players.isEmpty && players.length == p.data.characters.length
    return Play.withNames text
      (Play.playerNames (p.data.forPlayers players).characters isParty)
  | _ => throw (.notNarration name place)

/-- The branch that is taken by all characters together. -/
def resolveBranch (p : Preview) (name : String) (place : Nat) :
    Except Error (Option BranchOption) := do
  match (← p.panel name place).body with
  | .branch options => (Play.resolveBranch p.data options).mapError .condition
  | _ => throw (.notBranch name place)

/-- The decisions that are open to a player. -/
def availableDecisions (p : Preview) (name : String) (place player : Nat) :
    Except Error (List DecisionOption) := do
  match (← p.panel name place).body with
  | .decision _ options =>
    (Play.availableDecisions (p.data.forPlayers [player]) options).mapError .condition
  | _ => throw (.notDecision name place)

end Preview

end Adventure
