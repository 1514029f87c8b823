import Adventure.Condition.Script
import Adventure.Markup.Item
import Adventure.Markup.Settings
import Adventure.Markup.Warning
import Adventure.Storyboard
import Adventure.Uri

/-!
What is read from an asset: its storyboards and the warnings about it.

Items say which lines belong together. Here they become panels and warnings, one item at a time, so
that settings reach only the texts that are cut short and the warnings that depend on them.
-/

namespace Adventure.Markup

/-- The key and the value of a property line: what stands before and after its first equals sign.
The key may not be blank. -/
def property? (l : Line) : Option (String × String) :=
  match Text.splitAt? (· = '&') l.text with
  | none => none
  | some (_, body) =>
    match Text.splitAt? (· = '=') body with
    | none => none
    | some (key, value) =>
      let key := Text.trim key
      if key = [] then none else some (String.ofList key, String.ofList (Text.trim value))

namespace Entry

/-- The entry as an option of a decision. -/
def decisionOption? (asset : String) (e : Entry) : Option DecisionOption :=
  match OptionParts.ofDecision? e.line.text with
  | none => none
  | some parts =>
    parts.usable?.map fun (order, target) =>
      { text := String.ofList (Text.trim parts.text)
        targetUri := Uri.resolve asset target
        guard := e.bracket.guard?
        order }

/-- The entry as an option of a branch. -/
def branchOption? (asset : String) (e : Entry) : Option BranchOption :=
  match OptionParts.ofBranch? e.line.text with
  | none => none
  | some parts =>
    parts.usable?.map fun (order, target) =>
      { targetUri := Uri.resolve asset target
        guard := e.bracket.guard?
        order }

end Entry

/-- The faults of a bracket. Guards are checked only where the settings say so. -/
def Bracket.faults (s : Settings) : Bracket → List (List Nat × Fault)
  | absent => []
  | empty => []
  | unclosed line => [([line], .unclosedCondition)]
  | guard g =>
    if s.validateConditions then
      match Condition.parse g.text with
      | .ok _ => []
      | .error e => [([g.line], .invalidCondition g.text e)]
    else []

/-- The faults of what is left over where a branch was expected. -/
def Leftover.faults (s : Settings) (asset : String) (l : Leftover) : List (List Nat × Fault) :=
  l.bracket.faults s ++
    match l.line, l.bracket with
    | some line, _ =>
      let isDecision := (OptionParts.ofDecision? line.text).isSome
      let usable := (Entry.decisionOption? asset ⟨.absent, line⟩).isSome
      if isDecision && !usable then [([line.number], .malformedDecision line.string)]
      else [([line.number], .orphanOption line.string)]
    | none, .guard g => if l.atFront then [([g.line], .danglingCondition)] else []
    | none, _ => []

namespace Item

/-- The text of some effect lines, joined to one line. -/
def effectText (effects : List Line) : String :=
  Text.join " " (effects.map fun l => String.ofList (Text.trim (l.text.drop 1)))

/-- The text of some narration or prompt lines, as far as the limit allows. -/
def textUpTo (limit : Nat) (lines : List Line) : String :=
  Text.join "\n" ((lines.take limit).map Line.content)

/-- The panel that an item is, if it is one. -/
def body? (s : Settings) (asset : String) : Item → Option PanelBody
  | narration lines effects =>
    some (.narration (textUpTo s.maxNarrationLines lines) (Effect.ofLine (effectText effects)).1)
  | decision prompt entries =>
    some (.decision (textUpTo s.maxPromptLines prompt)
      (entries.filterMap (Entry.decisionOption? asset)))
  | branch entries => some (.branch (entries.filterMap (Entry.branchOption? asset)))
  | _ => none

/-- The faults of lines beyond a limit. -/
def overflow (limit : Nat) (fault : Fault) (lines : List Line) : List (List Nat × Fault) :=
  (lines.drop limit).map fun l => ([l.number], fault)

/-- The faults of an option of a decision. -/
def decisionFaults (s : Settings) (asset : String) (e : Entry) : List (List Nat × Fault) :=
  e.bracket.faults s ++
    if (e.decisionOption? asset).isSome then []
    else [([e.line.number], .malformedDecision e.line.string)]

/-- The faults of an option of a branch. -/
def branchFaults (s : Settings) (asset : String) (e : Entry) : List (List Nat × Fault) :=
  e.bracket.faults s ++
    if (e.branchOption? asset).isSome then []
    else [([e.line.number], .malformedBranch e.line.string)]

/-- The faults of a property line. -/
def propertyFaults (l : Line) : List (List Nat × Fault) :=
  if (property? l).isSome then [] else [([l.number], .invalidProperty l.string)]

/-- The faults of an item, each with the numbers of the lines it is about. -/
def faults (s : Settings) (asset : String) : Item → List (List Nat × Fault)
  | boardProperty l => propertyFaults l
  | panelProperty l => propertyFaults l
  | narration lines effects =>
    overflow s.maxNarrationLines (.tooManyNarrationLines s.maxNarrationLines) lines ++
      (Effect.ofLine (effectText effects)).2.map fun i =>
        (effects.map Line.number, Fault.ofIssue i)
  | decision prompt entries =>
    overflow s.maxPromptLines (.tooManyPromptLines s.maxPromptLines) prompt ++
      entries.flatMap (decisionFaults s asset) ++
      if (entries.filterMap (Entry.decisionOption? asset)).isEmpty then
        [((prompt.take 1).map Line.number, .emptyDecision)]
      else []
  | branch entries => entries.flatMap (branchFaults s asset)
  | refused entries leftover =>
    entries.flatMap (branchFaults s asset) ++ leftover.faults s asset
  | other l => [([l.number], .unrecognizedLine l.string)]

end Item

/-- Panel properties that wait for the next panel, and the numbers of their lines. -/
structure Waiting where
  properties : Keyed String := ∅
  lines : List Nat := []

/-- Notes a line of panel properties. A line that is no property counts as one that waits. -/
def Waiting.add (w : Waiting) (l : Line) : Waiting :=
  { properties := match property? l with
      | some (key, value) => w.properties.insert key value
      | none => w.properties
    lines := w.lines ++ [l.number] }

/-- The panels of some items, and the properties that still wait at the end. A panel takes all
properties that wait for it. -/
def panelsOf (s : Settings) (asset : String) (waiting : Waiting) :
    List Item → List Panel × Waiting
  | [] => ([], waiting)
  | .panelProperty l :: rest => panelsOf s asset (waiting.add l) rest
  | item :: rest =>
    match item.body? s asset with
    | some body =>
      let (panels, left) := panelsOf s asset {} rest
      (⟨waiting.properties, body⟩ :: panels, left)
    | none => panelsOf s asset waiting rest

/-- The properties that some items give to the storyboard itself. -/
def boardProperties (items : List Item) : Keyed String :=
  Keyed.ofList <| items.filterMap fun
    | .boardProperty l => property? l
    | _ => none

/-- The storyboard that some items make up. -/
def boardOf (s : Settings) (asset name : String) (items : List Item) : Storyboard :=
  { id := name
    properties := boardProperties items
    panels := (panelsOf s asset {} items).1 }

/-- The faults of a storyboard: those of its items in order, and last that of panel properties with
no panel behind them. -/
def boardFaults (s : Settings) (asset : String) (items : List Item) : List (List Nat × Fault) :=
  let left := (panelsOf s asset {} items).2
  items.flatMap (Item.faults s asset) ++
    if left.properties.isEmpty then [] else [(left.lines, .unusedPanelProperties)]

/-- The name of the storyboard that a line starts: what is written behind the mark, or else the name
of the asset. -/
def boardName (asset : String) (start : Line) : String :=
  let name := Text.trim (start.text.drop 2)
  if name = [] then asset else String.ofList name

/-- Adds the parts of an asset to storyboards that were read before. A name that is already used
gives no second storyboard. -/
def addSections (s : Settings) (asset : String) (boards : Keyed Storyboard) :
    List Section → Keyed Storyboard × List (List Nat × Fault)
  | [] => (boards, [])
  | .stray l :: rest =>
    let (all, faults) := addSections s asset boards rest
    (all, ([l.number], .outsideStoryboard l.string) :: faults)
  | .board start items :: rest =>
    let name := boardName asset start
    if boards.contains name then
      let (all, faults) := addSections s asset boards rest
      (all, ([start.number], .duplicateStoryboard name) :: faults)
    else
      let (all, faults) :=
        addSections s asset (boards.insert name (boardOf s asset name items)) rest
      (all, boardFaults s asset items ++ faults)

/-- What is read from an asset. -/
structure Report where
  storyboards : Keyed Storyboard
  warnings : List Warning

/-- Reads an asset. Nothing in it makes this fail: what cannot be used is left out with a
warning. -/
def Report.ofAsset (s : Settings) (asset text : String) : Report :=
  let (boards, faults) := addSections s asset ∅ (Section.ofLines (Line.ofAsset text))
  ⟨boards, faults.map fun (lines, fault) => ⟨asset, lines, fault⟩⟩

end Adventure.Markup
