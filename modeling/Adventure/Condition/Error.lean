import Adventure.Condition.Token

/-!
What can be wrong with a condition: causes, and one function for their wording.
-/

namespace Adventure.Condition

/-- What a phrase that breaks off lacks. -/
inductive Missing where
  | comparison
  | number
  | traitWord
  | traitName
deriving DecidableEq, Repr

/-- The start of the message about a phrase that breaks off. -/
def Missing.message : Missing → String
  | comparison =>
    "found a stat comparison phrase, but it was missing a comparison operator after the stat"
  | number =>
    "found a stat comparison phrase, but it was missing a number after the comparison operator"
  | traitWord => "found a trait phrase, but it was missing 'trait' after 'has' or 'not'"
  | traitName => "found a trait phrase, but it was missing a quoted trait name"

/-- The deepest nesting that a condition may have. -/
def maxDepth : Nat := 256

/-- What is wrong with a condition. Positions are counted in bytes from the start of the script. -/
inductive Error where
  /-- A character that no token holds. -/
  | invalidCharacter (character : Char) (position : Nat)
  /-- An exclamation mark without an equals sign. -/
  | loneBang (position : Nat)
  /-- Digits that are no score, or a minus sign without digits. -/
  | invalidNumber (digits : String) (position : Nat)
  | unknownWord (word : String)
  | unclosedQuote (position : Nat)
  /-- A phrase that goes on with the wrong token, or with none. -/
  | brokenPhrase (missing : Missing) (found : Option Token)
  /-- A token that stands outside every phrase. -/
  | strayToken (token : Token)
  | commaWithoutScope
  | strayClose
  | unclosedOpen
  | missingSide (c : Connective)
  | emptyScope (s : Scope)
  | tooDeep
  | noPhrase
  | notJoined
  /-- A test of a stat where there are only traits. -/
  | statUnderTraits (stat : Stat) (scope : Scope)
deriving DecidableEq, Repr

namespace Error

/-- The details of a message, without its heading. -/
def details : Error → String
  | invalidCharacter c p =>
    s!"an invalid character '{String.singleton c}' was encountered at position {Decimal.ofNat p}"
  | loneBang p =>
    s!"'!' at position {Decimal.ofNat p} must be followed by '=' to form \"not equal\""
  | invalidNumber ds p => s!"invalid number \"{ds}\" at position {Decimal.ofNat p}"
  | unknownWord w => s!"unknown keyword \"{w}\" found in script"
  | unclosedQuote p => s!"string starting at position {Decimal.ofNat p} is never closed"
  | brokenPhrase m found =>
    let it := match found with
      | some t => t.describe
      | none => "the end of the script"
    s!"{m.message} (found {it})"
  | strayToken t => s!"unexpected {t.describe} in condition"
  | commaWithoutScope => "the condition contained a comma without a matching target"
  | strayClose => "the condition contained a mismatched closing parenthesis"
  | unclosedOpen => "the condition contained an unclosed opening parenthesis"
  | missingSide c => s!"'{c.word}' is missing an expression on one of its sides"
  | emptyScope s => s!"target '{s.word}' is not followed by anything to test"
  | tooDeep => s!"the condition nests deeper than {Decimal.ofNat maxDepth} levels"
  | noPhrase => "the condition does not contain any phrase"
  | notJoined => "the condition contains expressions that are not joined by 'and' or 'or'"
  | statUnderTraits s scope =>
    s!"stat check on {s.abbreviation} cannot be used under the '{scope.word}' target"

/-- The whole message. Only the one about a character that no token holds has no heading. -/
def message : Error → String
  | invalidCharacter c p => (invalidCharacter c p).details
  | e => s!"lexing error: {e.details}"

end Error

end Adventure.Condition
