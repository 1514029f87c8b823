import Adventure.Record.Ron.Number
import Adventure.Record.Ron.Quoted

/-!
Records in RON, a notation with named fields in parentheses:

* records `(a: 1, b: 2)`, which may have a name in front, and lists `[1, 2]`; a comma may follow the
  last part;
* texts and single characters, numbers, `true` and `false`;
* optional values `Some(1)` and `None`.

Tuples, maps and names alone are read as well, because fields with unknown names are skipped
whatever they hold. In front of everything may stand attributes such as `#![enable(implicit_some)]`,
which switches on that `Some` may do without its parentheses.

Values nest up to a number of levels (`maxLevels`). Everything that holds others takes up one level,
and each thing in it another; `Some` takes up one in all.
-/

namespace Adventure.Record

namespace Ron

/-- A value. -/
inductive Value where
  | bool (b : Bool)
  | number (n : Number)
  | char (c : Char)
  | text (s : String)
  /-- A name alone. -/
  | name (n : String)
  | optional (inner : Option Value)
  | record (name : Option String) (fields : List (String × Value))
  | tuple (name : Option String) (items : List Value)
  | list (items : List Value)
  | map (entries : List (Value × Value))

/-! ### Values that hold others -/

/-- A key, a colon and a value. -/
def pair {α β : Type} (key : Reader α) (value : Reader β) : Reader (α × β) :=
  key.andThen fun k =>
    (Reader.behind gap (Reader.word [':'])).andThen fun _ cs =>
      (Reader.behind gap value cs).map (·.map fun v => (k, v))

/-- Whether what is in a parenthesis starts with the name of a field. -/
def startsField (cs : List Char) : Bool :=
  match gap cs with
  | none => false
  | some ⟨start, _⟩ =>
    match name start with
    | none => false
    | some t =>
      match gap t.rest with
      | some ⟨':' :: _, _⟩ => true
      | _ => false

/-- What is in a parenthesis behind its opening: fields if it starts with one, or else a tuple. An
empty one is a record without fields. -/
def parenthesis (inner : Reader Value) (n : Option String) : Reader Value := fun cs =>
  if startsField cs then
    (Reader.upTo ')' gap true (pair name inner) true cs).map
      (·.map fun fields => .record n (fields.map fun (k, v) => (String.ofList k, v)))
  else
    (Reader.upTo ')' gap true inner true cs).map
      (·.map fun items => if items.isEmpty then .record n [] else .tuple n items)

/-- The value behind `Some`, which stands alone in parentheses. If `bare`, it may do without
them. -/
def behindSome (bare : Bool) (inner : Reader Value) : Reader Value := fun cs =>
  match gap cs with
  | none => none
  | some ⟨'(' :: rest, h⟩ =>
    match Reader.upTo ')' gap true inner false rest with
    | some ⟨[v], behind, hb⟩ =>
      some ⟨.optional (some v), behind, Nat.lt_trans hb h⟩
    | _ => none
  | some ⟨rest, h⟩ =>
    if bare then (inner rest).map fun t => (t.map fun v => .optional (some v)).within h else none

/-- What a name begins: a named record or tuple, if one may stand here, or nothing but the name. -/
def behindName (opens : Bool) (inner : Reader Value) (n : String) : (cs : List Char) →
    Option (Value × { rest : List Char // rest.length ≤ cs.length }) := fun cs =>
  match gap cs with
  | none => none
  | some ⟨'(' :: rest, h⟩ =>
    if opens then
      (parenthesis inner (some n) rest).map fun t => (t.value,
        ⟨t.rest, Nat.le_of_lt (Nat.lt_trans t.shorter h)⟩)
    else none
  | some rest => some (.name n, rest)

/-! ### All values -/

/-- Words with a meaning of their own, and an empty pair of parentheses. -/
def reserved : Reader Value :=
  ((wholeWord "true").as (.bool true)).orElse <|
  ((wholeWord "false").as (.bool false)).orElse <|
  ((wholeWord "None").as (.optional none)).orElse <|
  ((Reader.word "()".toList).as (.record none [])).orElse <|
  special.as (.number .decimal)

/-- A value that starts with neither a name nor a reserved word. -/
def unnamed (opens : Bool) (inner : Reader Value) : Reader Value
  | '(' :: rest =>
    if opens then (parenthesis inner none rest).map (·.within (length_le_succ rest)) else none
  | '[' :: rest =>
    if opens then
      (Reader.upTo ']' gap true inner true rest).map fun t => (t.map .list).within (length_le_succ rest)
    else none
  | '\x7b' :: rest =>
    if opens then
      (Reader.upTo '\x7d' gap true (pair inner inner) true rest).map fun t =>
        (t.map .map).within (length_le_succ rest)
    else none
  | '\'' :: rest => (char ('\'' :: rest)).map (·.map .char)
  | '"' :: rest => (text ('"' :: rest)).map (·.map .text)
  | 'r' :: rest => (text ('r' :: rest)).map (·.map .text)
  | cs => (number cs).map (·.map .number)

/-- A value. If it `opens`, it may hold others, which are read by `inner`; what stands behind `Some`
is read by `optional`. -/
def valueWith (bare opens : Bool) (inner optional : Reader Value) : Reader Value := fun cs =>
  match reserved cs with
  | some t => some t
  | none =>
    match wholeWord "Some" cs with
    | some t => (behindSome bare optional t.rest).map (·.within t.rest_le)
    | none =>
      match name cs with
      | some t =>
        (behindName opens inner (String.ofList t.value) t.rest).map fun (v, r) =>
          ⟨v, r.1, Nat.lt_of_le_of_lt r.2 t.shorter⟩
      | none => unnamed opens inner cs

/-- A value in which others nest up to some levels. -/
def value (bare : Bool) : (levels : Nat) → Reader Value
  | 0, cs => valueWith bare false .never .never cs
  | 1, cs => valueWith bare true .never (value bare 0) cs
  | levels + 2, cs => valueWith bare true (value bare levels) (value bare (levels + 1)) cs

/-- The most levels to which values may nest. -/
def maxLevels : Nat := 128

/-! ### Whole texts -/

/-- What attributes may switch on. Only the first of these matters to records. -/
def switches : List String := ["implicit_some", "unwrap_newtypes", "unwrap_variant_newtypes"]

/-- The names in one attribute. -/
def switchedOn : Reader (List (List Char)) :=
  (Reader.words gap ['#'] [['!'], ['['], "enable".toList, ['(']]).andThen fun _ =>
    Reader.andThen (Reader.upTo ')' gap true name false) fun names =>
      (Reader.behind gap (Reader.word [']'])).as names

/-- The names in all attributes in front of a value. -/
def allSwitchedOn (cs : List Char) :
    Option (List String × { rest : List Char // rest.length ≤ cs.length }) :=
  match gap cs with
  | none => none
  | some r =>
    if r.1.head? = some '#' then
      match switchedOn r.1 with
      | none => none
      | some t =>
        have h := Nat.lt_of_lt_of_le t.shorter r.2
        (allSwitchedOn t.rest).map fun (names, behind) =>
          (t.value.map String.ofList ++ names,
            ⟨behind.1, Nat.le_trans behind.2 (Nat.le_of_lt h)⟩)
    else some ([], r)
termination_by cs.length
decreasing_by exact h

/-- Reads a text that holds attributes, one value and nothing else but blanks and comments. -/
def parse? (s : String) : Option Value :=
  match allSwitchedOn s.toList with
  | none => none
  | some (names, start) =>
    if names.all switches.contains then
      match value (names.contains "implicit_some") maxLevels start.1 with
      | none => none
      | some t =>
        match gap t.rest with
        | some ⟨[], _⟩ => some t.value
        | _ => none
    else none

end Ron

end Adventure.Record
