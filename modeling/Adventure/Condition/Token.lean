import Adventure.Condition.Phrase
import Adventure.Text.Decimal

/-!
The tokens of a condition. Scanning a script gives one token per word or symbol; the words of a
phrase are then folded into one token of their own.
-/

namespace Adventure.Condition

/-- A token of a condition. -/
inductive Token where
  | quote (text : String)
  | number (n : Score)
  | stat (s : Stat)
  | connective (c : Connective)
  | comparison (c : Comparison)
  | scope (s : Scope)
  | openParen
  | closeParen
  | comma
  | hasWord
  | notWord
  | traitWord
  | phrase (p : Phrase)
deriving DecidableEq, Repr

namespace Token

/-- The words that are not stats. An encounter may also be called a storyboard. -/
def words : List (String × Token) :=
  [("and", connective .and), ("or", connective .or),
    ("character", scope .character), ("party", scope .party),
    ("encounter", scope .encounter), ("storyboard", scope .encounter),
    ("session", scope .session),
    ("has", hasWord), ("not", notWord), ("trait", traitWord)]

/-- The token that a word in lower case stands for. -/
def ofWord? (word : String) : Option Token :=
  (words.lookup word).or ((Stat.ofWord? word).map stat)

/-- What a token is called in messages. -/
def describe : Token → String
  | quote text => s!"string \"{text}\""
  | number n => s!"number {Decimal.ofInt n.val}"
  | stat s => s!"stat {s.abbreviation}"
  | connective c => s!"'{c.word}'"
  | comparison c => s!"comparison '{c.symbol}'"
  | scope s => s!"target '{s.word}'"
  | openParen => "'('"
  | closeParen => "')'"
  | comma => "','"
  | hasWord => "'has'"
  | notWord => "'not'"
  | traitWord => "'trait'"
  | phrase (.stat _) => "stat phrase"
  | phrase (.traits _) => "trait phrase"

end Token

end Adventure.Condition
