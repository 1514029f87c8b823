import Adventure.Effect
import Adventure.Keyed

/-!
Panels, the steps of a storyboard: narration, a decision for the players, or a branch that is taken
without asking them.
-/

namespace Adventure

/-- An option that a player may choose. Without a guard it is always open. -/
structure DecisionOption where
  text : String
  targetUri : String
  guard : Option String
  order : Score
deriving DecidableEq, Repr

/-- An option that is taken when its guard holds. -/
structure BranchOption where
  targetUri : String
  guard : Option String
  order : Score
deriving DecidableEq, Repr

/-- What a panel shows or asks. -/
inductive PanelBody where
  | narration (text : String) (effect : Effect)
  | decision (prompt : String) (options : List DecisionOption)
  | branch (options : List BranchOption)
deriving DecidableEq, Repr

/-- A step of a storyboard. -/
structure Panel where
  properties : Keyed String
  body : PanelBody

/-- The kind of a panel. -/
inductive PanelKind where
  | narration
  | decision
  | branch
deriving DecidableEq, Repr

/-- The word for a kind of panel. -/
def PanelKind.word : PanelKind → String
  | narration => "Narrative"
  | decision => "Decision"
  | branch => "Branch"

namespace Panel

/-- The kind of a panel. -/
def kind (p : Panel) : PanelKind :=
  match p.body with
  | .narration .. => .narration
  | .decision .. => .decision
  | .branch .. => .branch

/-- The value of a property. -/
def property? (p : Panel) (key : String) : Option String := p.properties.get? key

/-- A property that is `true` or `false`, in whatever ASCII case. If it is missing or says something
else, `default` holds. -/
def flag (p : Panel) (key : String) (default : Bool) : Bool :=
  match (p.property? key).map fun v => String.ofList (Text.asciiLower v.toList) with
  | some "true" => true
  | some "false" => false
  | _ => default

/-- The image behind the panel. -/
def backdrop? (p : Panel) : Option String := p.property? "backdrop"

/-- Whether players who choose the same target go on together. -/
def merges (p : Panel) : Bool := p.flag "merge" true

/-- Whether what follows interrupts the storyboard. -/
def interrupts (p : Panel) : Bool := p.flag "interrupt" false

/-- Whether a branch is taken by each player alone. -/
def splitsParty (p : Panel) : Bool := p.flag "can-split-party" true

/-- The references of the options, in order. -/
def targets (p : Panel) : List String :=
  match p.body with
  | .narration .. => []
  | .decision _ options => options.map DecisionOption.targetUri
  | .branch options => options.map BranchOption.targetUri

end Panel

end Adventure
