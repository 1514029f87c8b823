import Adventure.Character

/-!
Names in narration: the mark for the players is replaced by the first names of those a panel is
about.
-/

namespace Adventure.Play

/-- The mark that stands for the players. -/
def playerMark : String := "\x7bplayer\x7d"

/-- Several names as one phrase: nothing, the only one, two joined by `and`, or a list. -/
def listNames : List String → String
  | [] => ""
  | [only] => only
  | [first, second] => s!"{first} and {second}"
  | names =>
    let last := names.getLastD ""
    s!"{Text.commas names.dropLast}, and {last}"

/-- What some characters are called together: by their first names, or `The Party` when they are the
whole party. Nobody has no name. -/
def playerNames (characters : List Character) (isParty : Bool) : String :=
  if characters.isEmpty then ""
  else if isParty then "The Party"
  else listNames (characters.map Character.firstName)

/-- A text with the mark for the players replaced. -/
def withNames (text names : String) : String :=
  String.ofList (Text.replace playerMark.toList names.toList text.toList)

end Adventure.Play
