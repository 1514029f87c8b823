import Adventure.Score

/-!
The formats of records.

Records are written in RON and in JSON. How a text in one of these formats spells a value, and how a
value is read as a text, a number, a list or a record with named fields, is not a matter of this
library: a `Format` stands for whatever does it.
-/

namespace Adventure.Record

/-- The sign in front of a whole number. -/
inductive Sign where
  | plus
  | minus
deriving DecidableEq, Repr

/-- What reads records in some format. Whatever cannot be read is `none`. -/
structure Format where
  /-- What a text spells. -/
  Value : Type
  parse? : String → Option Value
  text? : Value → Option String
  bool? : Value → Option Bool
  score? : Value → Option Score
  /-- A count or a place, which lies below 2^64. -/
  count? : Value → Option Nat
  /-- A list of things that are all read alike. -/
  list? {α : Type} (read? : Value → Option α) : Value → Option (List α)
  /-- The fields of a record of some kind, of which some names are known, in the order in which they
  stand. There may be others, and any may be there more than once. -/
  fields? (kind : String) (known : List String) : Value → Option (List (String × Value))
  /-- What is read of the field with a certain name, or the default if there is none. -/
  field? {α : Type} (fields : List (String × Value)) (name : String) (default : α)
    (read? : Value → Option α) : Option α

/-- What reads the two formats of records. -/
class Formats where
  ron : Format
  json : Format

end Adventure.Record
