import Adventure.Record.Json
import Adventure.Record.Ron
import Adventure.Record.Schema

/-!
The formats that the programs run with. The rest of the library reads records in whatever formats
there are, and its statements rely on nothing but what is documented of them.

The two are alike but for three things: only RON gives a record a name, which must then be the right
one; only RON lets a plus sign stand before a number; and a JSON record may be a list of the values
of its fields, from the first on. In both, fields with unknown names are skipped, and a field that
is there twice makes the whole text unreadable.
-/

namespace Adventure.Record

/-- What a field holds, if it is there at most once. -/
def soleField? {V α : Type} (fields : List (String × V)) (name : String) (default : α)
    (read? : V → Option α) : Option α :=
  match fields.filter (·.1 = name) with
  | [] => some default
  | [(_, v)] => read? v
  | _ => none

/-- A whole number without a sign, if it takes up no more than 64 bits. -/
def within64? (n : Nat) : Option Nat := if n < Nat.pow 2 64 then some n else none

namespace Json

/-- The fields of an object whose names are texts. A name with half of a surrogate pair is none. -/
def namedFields? : List (Option String × Value) → Option (List (String × Value))
  | [] => some []
  | (none, _) :: _ => none
  | (some name, v) :: rest => (namedFields? rest).map ((name, v) :: ·)

/-- JSON. -/
def format : Format where
  Value := Value
  parse? := parse?
  text?
    | .text s => s
    | _ => none
  bool?
    | .bool b => some b
    | _ => none
  score?
    | .integer false n => Score.ofInt? n
    -- zero has no sign
    | .integer true n => if n = 0 then none else Score.ofInt? (-n)
    | _ => none
  count?
    | .integer false n => within64? n
    | _ => none
  list? read?
    | .list items => items.mapM read?
    | _ => none
  fields? _ known
    | .object fields => namedFields? fields
    | .list items => if items.length ≤ known.length then some (known.zip items) else none
    | _ => none
  field? := soleField?

end Json

namespace Ron

/-- RON. -/
def format : Format where
  Value := Value
  parse? := parse?
  text?
    | .text s => some s
    | _ => none
  bool?
    | .bool b => some b
    | _ => none
  score?
    | .number (.integer sign n) => Score.ofInt? (if sign = some .minus then -n else n)
    | _ => none
  count?
    | .number (.integer none n) => within64? n
    | _ => none
  list? read?
    | .list items => items.mapM read?
    | _ => none
  fields? kind _
    | .record n fields => if n.all (· = kind) then some fields else none
    | _ => none
  field? := soleField?

end Ron

instance : Formats := ⟨Ron.format, Json.format⟩

end Adventure.Record
