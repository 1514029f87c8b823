import Adventure.Text.Pieces

/-!
Reading values off the front of a text. What a reader leaves is always shorter than what it was
given, so a list of values is read in finitely many rounds.
-/

namespace Adventure.Record

/-- A value read off the front of `cs`, and what is left. -/
structure Taken (α : Type) (cs : List Char) where
  value : α
  rest : List Char
  shorter : rest.length < cs.length

/-- What is left behind characters of one kind is shorter than with a character in front. -/
theorem length_dropWhile_lt (p : Char → Bool) (c : Char) (cs : List Char) :
    (cs.dropWhile p).length < (c :: cs).length :=
  Nat.lt_succ_of_le (List.dropWhile_sublist p).length_le

/-- A text is no longer than with a character in front. -/
theorem length_le_succ (cs : List Char) : cs.length ≤ cs.length + 1 := Nat.le_succ _

/-- Something that reads a value off the front of a text, or fails. -/
abbrev Reader (α : Type) := (cs : List Char) → Option (Taken α cs)

/-- Something that passes over what may stand between values, or fails. -/
abbrev Gap := (cs : List Char) → Option { rest : List Char // rest.length ≤ cs.length }

/-- The blanks between values. -/
def isBlank (c : Char) : Bool := c = ' ' || c = '\t' || c = '\n' || c = '\r'

namespace Taken

variable {α β : Type} {cs : List Char}

theorem rest_le (t : Taken α cs) : t.rest.length ≤ cs.length := Nat.le_of_lt t.shorter

/-- The value changed. -/
def map (f : α → β) (t : Taken α cs) : Taken β cs := ⟨f t.value, t.rest, t.shorter⟩

/-- The same value as read off the front of a text that is no shorter. -/
def within (t : Taken α cs) {whole : List Char} (h : cs.length ≤ whole.length) : Taken α whole :=
  ⟨t.value, t.rest, Nat.lt_of_lt_of_le t.shorter h⟩

end Taken

namespace Reader

variable {α β : Type}

/-- Nothing can be read. -/
def never : Reader α := fun _ => none

/-- A word, exactly as it is written. The empty word is never read. -/
def word (w : List Char) : Reader Unit := fun cs =>
  match hr : Text.after? w cs with
  | none => none
  | some rest =>
    if hw : w = [] then none
    else some ⟨(), rest, by
      have := Text.length_after? hr
      have := List.length_pos_iff.mpr hw
      omega⟩

/-- What stands for a value. -/
def as (v : β) (read : Reader α) : Reader β := fun cs => (read cs).map (·.map fun _ => v)

/-- What the first reader reads, or else what the second one does. -/
def orElse (first second : Reader α) : Reader α := fun cs =>
  match first cs with
  | some t => some t
  | none => second cs

/-- What follows a gap. -/
def behind (gap : Gap) (read : Reader α) : Reader α := fun cs =>
  match gap cs with
  | none => none
  | some ⟨rest, h⟩ => (read rest).map (·.within h)

/-- A value and another one behind it. -/
def andThen (first : Reader α) (next : α → Reader β) : Reader β := fun cs =>
  match first cs with
  | none => none
  | some t => (next t.value t.rest).map (·.within (Nat.le_of_lt t.shorter))

/-- A word and others behind it, with gaps in between. -/
def words (gap : Gap) : (w : List Char) → (more : List (List Char)) → Reader Unit
  | w, [] => word w
  | w, next :: more => (word w).andThen fun _ => behind gap (words gap next more)

/-- Values with commas between them, up to a closing character. If `mayClose`, that may be the first
thing; if `trailing`, it may also follow a comma. Gaps may stand everywhere. -/
def upTo (close : Char) (gap : Gap) (trailing : Bool) (item : Reader α) (mayClose : Bool)
    (cs : List Char) : Option (Taken (List α) cs) :=
  match gap cs with
  | none => none
  | some ⟨[], _⟩ => none
  | some ⟨c :: rest, h⟩ =>
    if c = close && mayClose then
      some ⟨[], rest, by simp only [List.length_cons] at h; omega⟩
    else
      match item (c :: rest) with
      | none => none
      | some t =>
        match gap t.rest with
        | none => none
        | some ⟨[], _⟩ => none
        | some ⟨d :: behind, h'⟩ =>
          have h₁ := t.shorter
          if d = ',' then
            match upTo close gap trailing item trailing behind with
            | none => none
            | some more =>
              some ⟨t.value :: more.value, more.rest, by
                have := more.shorter
                simp only [List.length_cons] at h h' h₁
                omega⟩
          else if d = close then
            some ⟨[t.value], behind, by
              simp only [List.length_cons] at h h' h₁
              omega⟩
          else none
termination_by cs.length
decreasing_by
  simp only [List.length_cons] at h h' h₁
  omega

end Reader

end Adventure.Record
