import Adventure.Record.Format

/-!
What is documented of a format.

A format writes texts, whole numbers, lists and records with named fields, among values of other
kinds (`Format.Grammar`). What it reads of these is documented (`Grammar.Documented`): a text is read
as the value that it spells, a list item by item, and a record field by field, whatever other fields
there are. A field that is missing has its default, and one that is there twice is refused.

Two consequences are what records are read by: a field that holds something is read as it
(`FieldHolds.field?`), and a field is not read if it is there twice or what it holds is not read
(`Twice.field?`, `field?_eq_none`).
-/

namespace Adventure.Record

namespace Format

/-- How values are written in a format. -/
structure Grammar (F : Format) where
  text : String → F.Value
  /-- A whole number of some size, with a sign or without. -/
  whole : Option Sign → Nat → F.Value
  list : List F.Value → F.Value
  /-- A record, which may have a name, with its fields in the order in which they stand. -/
  record : Option String → List (String × F.Value) → F.Value
  /-- Which values a text spells. -/
  Spells : String → F.Value → Prop

namespace Grammar

/-- The whole number of a size with a sign or without. -/
def signed (sign : Option Sign) (size : Nat) : Int := if sign = some .minus then -size else size

theorem natAbs_signed (sign : Option Sign) (size : Nat) : (signed sign size).natAbs = size := by
  unfold signed
  split <;> omega

/-- Whether a name is made of letters and underscores alone. -/
def IsIdentifier (n : String) : Prop :=
  n.toList ≠ [] ∧ n.toList.all (fun c => c.isAlpha || c = '_') = true

instance (n : String) : Decidable (IsIdentifier n) := inferInstanceAs (Decidable (_ ∧ _))

variable {F : Format} (G : F.Grammar)

/-- The values that are put together of texts, scores, lists and records in up to some levels. -/
inductive Plain : Nat → F.Value → Prop where
  | text (s : String) (k : Nat) : Plain k (G.text s)
  | score {sign : Option Sign} {size : Nat} (x : Score) (h : signed sign size = x.val) (k : Nat) :
    Plain k (G.whole sign size)
  | list {vs : List F.Value} {k : Nat} (h : ∀ v ∈ vs, Plain k v) : Plain (k + 1) (G.list vs)
  | record {fields : List (String × F.Value)} {k : Nat}
    (hname : ∀ e ∈ fields, IsIdentifier e.1) (h : ∀ e ∈ fields, Plain k e.2) :
    Plain (k + 1) (G.record none fields)

/-- What is documented of a format and its grammar. -/
structure Documented : Prop where
  /-- A text is read as the value that it spells. -/
  parse {s : String} {v : F.Value} (h : G.Spells s v) : F.parse? s = some v
  /-- Plain values of a few levels have texts. -/
  spelled {v : F.Value} (h : G.Plain 4 v) : ∃ s, G.Spells s v
  text (s : String) : F.text? (G.text s) = some s
  /-- A whole number is read as a score exactly if it is in range. -/
  score (sign : Option Sign) (size : Nat) :
    F.score? (G.whole sign size) = Score.ofInt? (signed sign size)
  /-- A list is read item by item, in order. -/
  list {α : Type} (read? : F.Value → Option α) (vs : List F.Value) :
    F.list? read? (G.list vs) = vs.mapM read?
  /-- A record may have the name of its kind, or none. -/
  fields (kind : String) (known : List String) (n : Option String)
    (given : List (String × F.Value)) :
    F.fields? kind known (G.record n given) = if n.all (· = kind) then some given else none
  /-- A field that is missing has its default. -/
  absent {α : Type} {fields : List (String × F.Value)} {name : String}
    (h : ∀ e ∈ fields, e.1 ≠ name) (default : α) (read? : F.Value → Option α) :
    F.field? fields name default read? = some default
  /-- A field that is there once is read, and other fields are skipped. -/
  once {α : Type} {before behind : List (String × F.Value)} {name : String}
    (hbefore : ∀ e ∈ before, e.1 ≠ name) (hbehind : ∀ e ∈ behind, e.1 ≠ name) (v : F.Value)
    (default : α) (read? : F.Value → Option α) :
    F.field? (before ++ (name, v) :: behind) name default read? = read? v
  /-- A field that is there twice is refused. -/
  twice {α : Type} (before between behind : List (String × F.Value)) (name : String)
    (v w : F.Value) (default : α) (read? : F.Value → Option α) :
    F.field? (before ++ (name, v) :: (between ++ (name, w) :: behind)) name default read? = none

end Grammar

end Format

/-! ### Fields -/

/-- What the field of a name holds among others: something that a value records, or the default,
which stands nowhere. -/
inductive FieldHolds {V α : Type} (recordedAs : α → V → Prop) (default : α) (name : String) :
    α → List (String × V) → Prop where
  | present {x : α} {v : V} {before behind : List (String × V)} :
      (∀ e ∈ before, e.1 ≠ name) → (∀ e ∈ behind, e.1 ≠ name) → recordedAs x v →
      FieldHolds recordedAs default name x (before ++ (name, v) :: behind)
  | absent {fields : List (String × V)} : (∀ e ∈ fields, e.1 ≠ name) →
      FieldHolds recordedAs default name default fields

/-- A field of one of some names is there twice. -/
def Twice {V : Type} (names : List String) (fields : List (String × V)) : Prop :=
  ∃ name ∈ names, ∃ v w before between behind,
    fields = before ++ (name, v) :: (between ++ (name, w) :: behind)

/-- A field that is among others of other names. -/
theorem FieldHolds.of_mem {V α : Type} {recordedAs : α → V → Prop} {default x : α} {name : String}
    {v : V} {fields : List (String × V)} (hnodup : (fields.map Prod.fst).Nodup)
    (hv : (name, v) ∈ fields) (hx : recordedAs x v) :
    FieldHolds recordedAs default name x fields := by
  obtain ⟨before, behind, rfl⟩ := List.append_of_mem hv
  rw [List.map_append, List.map_cons, List.nodup_append] at hnodup
  obtain ⟨-, hbehind, hbefore⟩ := hnodup
  rw [List.nodup_cons] at hbehind
  refine .present (fun e he heq => ?_) (fun e he heq => ?_) hx
  · exact hbefore e.1 (List.mem_map_of_mem he) name List.mem_cons_self heq
  · exact hbehind.1 (List.mem_map.mpr ⟨e, he, heq⟩)

section Documented

variable {F : Format} {G : F.Grammar} {α : Type} {fields : List (String × F.Value)} {name : String}
  {default : α} {read? : F.Value → Option α}

/-- What a field holds is read. -/
theorem FieldHolds.field? {recordedAs : α → F.Value → Prop} {x : α} (doc : G.Documented)
    (h : FieldHolds recordedAs default name x fields)
    (hread : ∀ x v, recordedAs x v → read? v = some x) :
    F.field? fields name default read? = some x := by
  cases h with
  | present hbefore hbehind hv =>
    rw [doc.once hbefore hbehind]
    exact hread _ _ hv
  | absent h => exact doc.absent h default read?

theorem Twice.field? {names : List String} (doc : G.Documented) (h : Twice names fields) :
    ∃ name ∈ names, ∀ {α : Type} (default : α) (read? : F.Value → Option α),
      F.field? fields name default read? = none := by
  obtain ⟨name, hname, v, w, before, between, behind, rfl⟩ := h
  exact ⟨name, hname, doc.twice before between behind name v w⟩

/-- What cannot be read of one value of a field cannot be read of the fields. -/
theorem field?_eq_none (doc : G.Documented) {v : F.Value} (hv : (name, v) ∈ fields)
    (hread : read? v = none) : F.field? fields name default read? = none := by
  obtain ⟨before, behind, rfl⟩ := List.append_of_mem hv
  by_cases hbefore : ∃ e ∈ before, e.1 = name
  · obtain ⟨⟨_, w⟩, hw, rfl⟩ := hbefore
    obtain ⟨front, between, rfl⟩ := List.append_of_mem hw
    rw [List.append_assoc, List.cons_append]
    exact doc.twice front between behind _ w v default read?
  by_cases hbehind : ∃ e ∈ behind, e.1 = name
  · obtain ⟨⟨_, w⟩, hw, rfl⟩ := hbehind
    obtain ⟨between, rest, rfl⟩ := List.append_of_mem hw
    exact doc.twice before between rest _ v w default read?
  rw [doc.once (fun e he heq => hbefore ⟨e, he, heq⟩) fun e he heq => hbehind ⟨e, he, heq⟩]
  exact hread

/-- The fields of a record are those that are written in it, if any are read at all. -/
theorem eq_of_fields? (doc : G.Documented) {kind : String} {known : List String}
    {n : Option String} {given : List (String × F.Value)}
    (h : F.fields? kind known (G.record n given) = some fields) : fields = given := by
  rw [doc.fields] at h
  split at h
  · exact (Option.some.inj h).symm
  · cases h

end Documented

end Adventure.Record
