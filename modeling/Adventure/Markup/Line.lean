import Adventure.Text.Blank
import Adventure.Text.Pieces

/-!
The lines of a text asset. The first characters of a line say what it is:

* `>>name` starts a storyboard; without a name it is named after the asset;
* `^&key=value` is a property of the storyboard, `&key=value` one of the next panel;
* `|text` narrates, and `:effect` below it says what the narration does;
* `?text` asks for a decision;
* `[guard]` guards the option below it;
* `-order-text-<target` is an option of a decision, `-order-<target` one of a branch;
* a line that starts with a number sign is a comment.
-/

namespace Adventure.Markup

/-- A line of an asset, trimmed, with its place in the asset counted from one. -/
structure Line where
  number : Nat
  text : List Char
deriving DecidableEq, Repr

/-- What a line is, by its first characters. -/
inductive LineKind where
  | boardStart
  | boardProperty
  | panelProperty
  | narration
  | prompt
  | option
  | blank
  | other
deriving DecidableEq, Repr

namespace Line

/-- The kind of a line. Guards and options are of one kind, and effects are of none. -/
def kind (l : Line) : LineKind :=
  match l.text with
  | [] => .blank
  | '>' :: '>' :: _ => .boardStart
  | '^' :: '&' :: _ => .boardProperty
  | '&' :: _ => .panelProperty
  | '|' :: _ => .narration
  | '?' :: _ => .prompt
  | '[' :: _ => .option
  | '-' :: _ => .option
  | _ => .other

/-- Whether the line starts with a character. -/
def startsWith (mark : Char) (l : Line) : Bool := l.text.head? = some mark

/-- Whether nothing is on the line. -/
def isBlank (l : Line) : Bool := l.text.isEmpty

/-- Whether the line starts a storyboard. -/
def isBoardStart (l : Line) : Bool := l.kind = .boardStart

/-- Whether a guard starts on the line. -/
def opensBracket (l : Line) : Bool := l.startsWith '['

/-- Whether a guard ends on the line. -/
def closesBracket (l : Line) : Bool := l.text.getLast? = some ']'

/-- The text behind the mark at the start of the line. -/
def content (l : Line) : String := String.ofList (Text.trimStart (l.text.drop 1))

/-- The whole line as a string. -/
def string (l : Line) : String := String.ofList l.text

/-- All lines of an asset, numbered and trimmed. -/
def ofText (text : String) : List Line :=
  ((Text.lines text.toList).zipIdx 1).map fun (line, number) => ⟨number, Text.trim line⟩

/-- Lines without the blank ones that follow another blank one. -/
def collapse (afterBlank : Bool) : List Line → List Line
  | [] => []
  | l :: rest =>
    if l.isBlank && afterBlank then collapse true rest else l :: collapse l.isBlank rest

/-- The lines of an asset that count: comments are left out, and of a row of blank lines the first
is kept. -/
def ofAsset (text : String) : List Line :=
  collapse false ((ofText text).filter fun l => !l.startsWith '#')

/-- Lines without the blank ones at the front. -/
def skipBlank (lines : List Line) : List Line := lines.dropWhile isBlank

theorem length_skipBlank_le (lines : List Line) : (skipBlank lines).length ≤ lines.length :=
  (List.dropWhile_sublist isBlank).length_le

end Line

end Adventure.Markup
