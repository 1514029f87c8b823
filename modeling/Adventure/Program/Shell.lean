import Adventure.Condition.Outline
import Adventure.Condition.Script
import Adventure.Text.Lowercase

/-!
The shell: an author types conditions and commands, and sees what they say of game data.

A line is a command if its first word is one. Everything else is a condition.
-/

namespace Adventure.Program

/-- What a line asks for. -/
inductive Command where
  | quit
  | help
  | roster
  | tokens (script : String)
  | tree (script : String)
  /-- A condition about one character. `argument` holds a place on the roster and a script. -/
  | asCharacter (argument : String)
  | condition (script : String)
deriving DecidableEq, Repr

namespace Command

/-- What stands before and after the first blank, if there is one. -/
def splitAtBlank? (s : String) : Option (String × String) :=
  (Text.splitAt? Text.isBlank s.toList).map fun (front, rest) =>
    (String.ofList front, String.ofList rest)

/-- The command that a trimmed line holds. Its word may be in any case. -/
def ofText (text : String) : Command :=
  let (first, rest) := match splitAtBlank? text with
    | some (first, rest) => (first, Text.trimmed rest)
    | none => (text, "")
  match String.ofList (Text.lowercase first.toList) with
  | "quit" | "exit" | "q" => quit
  | "help" | "h" => help
  | "roster" => roster
  | "tokens" => tokens rest
  | "tree" => tree rest
  | "as" => asCharacter rest
  | _ => condition text

/-- The command on a line, or nothing on a blank one. -/
def ofLine? (line : String) : Option Command :=
  let text := Text.trimmed line
  if text = "" then none else some (ofText text)

end Command

namespace Shell

/-- What the shell shows before it waits for a line. -/
def prompt : String := "condition> "

/-- What the shell says at the start. -/
def greeting : List String := ["Type 'help' for commands.", ""]

/-- The list of commands. -/
def commands : List String :=
  ["Commands:",
    "  <script>         evaluate against the whole roster",
    "  as <n> <script>  evaluate against roster index n only",
    "  tokens <script>  show the phrase tokens",
    "  tree <script>    show the built expression tree",
    "  roster           list the loaded characters",
    "  help             show this message",
    "  quit             exit"]

/-- What is said of an error in a condition. -/
def errorLine (e : Condition.Error) : String := s!"ERROR: {e.message}"

/-- What is said of a condition. -/
def verdict (d : GameData) (script : String) : String :=
  match Condition.evaluate script d with
  | .ok true => "true"
  | .ok false => "false"
  | .error e => errorLine e

/-- The lines about one character. -/
def characterLines (place : Nat) (c : Character) : List String :=
  let stats := Text.join " " <|
    Stat.all.map fun s => s!"{s.abbreviation}={Decimal.ofInt (c.stat s).val}"
  let fate := if c.isAlive then "" else " DEAD"
  s!"  [{Decimal.ofNat place}] {c.name} ({stats}){fate}" ::
    if c.traits.isEmpty then [] else [s!"      traits: {Text.commas c.traits}"]

/-- The lines about the game data. -/
def rosterLines (d : GameData) : List String :=
  d.characters.zipIdx.flatMap (fun (c, place) => characterLines place c) ++
    [s!"  encounter: {Text.commas d.encounterTraits}",
      s!"  session:   {Text.commas d.sessionTraits}"]

/-- The answer to a condition about one character. -/
def answerAs (d : GameData) (argument : String) : String :=
  match Command.splitAtBlank? argument with
  | none => "Usage: as <n> <script>"
  | some (index, script) =>
    match (Decimal.readNat? index.toList).filter (· < Nat.pow 2 64) with
    | none => s!"Not a roster index: {index}"
    | some place =>
      if d.characters.length ≤ place then
        s!"Roster has {Decimal.ofNat d.characters.length} characters"
      else verdict (d.forPlayers [place]) script

/-- The lines with which the shell answers a command. -/
def answer (d : GameData) : Command → List String
  | .quit => ["Goodbye."]
  | .help => commands
  | .roster => rosterLines d
  | .tokens script =>
    match Condition.Token.ofScript script with
    | .ok tokens => tokens.map fun t => s!"  {t.outline.line}"
    | .error e => [errorLine e]
  | .tree script =>
    match Condition.parse script with
    | .ok tree => [tree.outline.indented 0]
    | .error e => [errorLine e]
  | .asCharacter argument => [answerAs d argument]
  | .condition script => [verdict d script]

/-- The answer to a line, and whether the shell goes on. Blank lines have no answer. -/
def respond (d : GameData) (line : String) : List String × Bool :=
  match Command.ofLine? line with
  | none => ([], true)
  | some command => (answer d command, command ≠ .quit)

end Shell

end Adventure.Program
