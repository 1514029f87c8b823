/-!
Values under distinct names, in the order in which the names were first used: the properties of a
panel, the storyboards of an asset.

The main facts say what `insert` does to the view `get?` (`get?_insert`) and to the names
(`keys_insert`).
-/

namespace Adventure

/-- Values under distinct names. -/
structure Keyed (α : Type) where
  entries : List (String × α)
  distinct : (entries.map Prod.fst).Nodup

namespace Keyed

variable {α β : Type}

/-- No values. -/
def empty : Keyed α := ⟨[], by simp⟩

instance : EmptyCollection (Keyed α) := ⟨empty⟩

instance : Inhabited (Keyed α) := ⟨∅⟩

/-- The names, in the order of first use. -/
def keys (t : Keyed α) : List String := t.entries.map Prod.fst

/-- The value under a name. -/
def get? (t : Keyed α) (key : String) : Option α := t.entries.lookup key

/-- Whether there is a value under a name. -/
def contains (t : Keyed α) (key : String) : Bool := t.keys.contains key

/-- Whether there are no values. -/
def isEmpty (t : Keyed α) : Bool := t.entries.isEmpty

/-- How many values there are. -/
def size (t : Keyed α) : Nat := t.entries.length

/-- Entries with the value under `key` set to `value`: in place if the name is used, at the end if
not. -/
def insertEntry (key : String) (value : α) : List (String × α) → List (String × α)
  | [] => [(key, value)]
  | e :: es => if e.1 = key then (key, value) :: es else e :: insertEntry key value es

theorem map_fst_insertEntry (key : String) (value : α) (es : List (String × α)) :
    (insertEntry key value es).map Prod.fst =
      if key ∈ es.map Prod.fst then es.map Prod.fst else es.map Prod.fst ++ [key] := by
  induction es with
  | nil => simp [insertEntry]
  | cons e es ih =>
    by_cases h : e.1 = key
    · simp [insertEntry, h]
    · have h' : key ≠ e.1 := fun k => h k.symm
      simp only [insertEntry, h, if_false, List.map_cons, ih, List.mem_cons, h', false_or]
      split <;> simp

theorem nodup_insertEntry (key : String) (value : α) {es : List (String × α)}
    (h : (es.map Prod.fst).Nodup) : ((insertEntry key value es).map Prod.fst).Nodup := by
  rw [map_fst_insertEntry]
  split
  · exact h
  · rename_i hk
    rw [List.nodup_append]
    refine ⟨h, by simp, ?_⟩
    intro a ha b hb
    rw [List.mem_singleton] at hb
    rintro rfl
    exact hk (hb ▸ ha)

/-- Puts a value under a name, in place of the value that was there. -/
def insert (t : Keyed α) (key : String) (value : α) : Keyed α :=
  ⟨insertEntry key value t.entries, nodup_insertEntry key value t.distinct⟩

/-- Puts values under their names one after another. -/
def ofList (es : List (String × α)) : Keyed α :=
  es.foldl (fun t e => t.insert e.1 e.2) ∅

@[simp] theorem get?_empty (key : String) : (∅ : Keyed α).get? key = none := rfl

@[simp] theorem keys_empty : (∅ : Keyed α).keys = [] := rfl

theorem lookup_insertEntry (key key' : String) (value : α) (es : List (String × α)) :
    (insertEntry key value es).lookup key' =
      if key' = key then some value else es.lookup key' := by
  have beq {a b : String} : (a == b) = decide (a = b) := rfl
  induction es with
  | nil => by_cases h : key' = key <;> simp [insertEntry, List.lookup_cons, beq, h]
  | cons e es ih =>
    obtain ⟨k, v⟩ := e
    by_cases hk : k = key
    · subst hk
      by_cases h : key' = k <;> simp [insertEntry, List.lookup_cons, beq, h]
    · simp only [insertEntry, hk, if_false, List.lookup_cons, ih, beq]
      by_cases h : key' = key
      · subst h
        have hk' : key' ≠ k := fun e => hk e.symm
        simp [hk']
      · simp [h]

/-- After a value was put under a name, the name gives this value and all others what they gave
before. -/
theorem get?_insert (t : Keyed α) (key key' : String) (value : α) :
    (t.insert key value).get? key' = if key' = key then some value else t.get? key' :=
  lookup_insertEntry key key' value t.entries

/-- A new name comes last, and a used name keeps its place. -/
theorem keys_insert (t : Keyed α) (key : String) (value : α) :
    (t.insert key value).keys = if key ∈ t.keys then t.keys else t.keys ++ [key] :=
  map_fst_insertEntry key value t.entries

/-- The entries, sorted by name. -/
def sorted (t : Keyed α) : List (String × α) :=
  t.entries.mergeSort fun a b => decide (a.1 ≤ b.1)

end Keyed

end Adventure
