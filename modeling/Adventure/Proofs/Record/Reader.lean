import Adventure.Record.Reader

/-!
Readers by what they read and what they leave.

`Reader.run` and `Gap.run` are the views through which readers are spoken of; each way of putting
readers together has one equation for its view.
-/

namespace Adventure.Record

/-- What is left behind a gap. -/
def Gap.run (gap : Gap) (cs : List Char) : Option (List Char) := (gap cs).map (·.1)

namespace Reader

variable {α β : Type}

/-- The value that is read, and what is left. -/
def run (read : Reader α) (cs : List Char) : Option (α × List Char) :=
  (read cs).map fun t => (t.value, t.rest)

theorem run_word {w : List Char} (hw : w ≠ []) (cs : List Char) :
    (word w).run cs = (Text.after? w cs).map fun rest => ((), rest) := by
  unfold run word
  split
  · rename_i h
    rw [h]
    rfl
  · rename_i rest h
    simp only [dif_neg hw, h]
    rfl

@[simp] theorem run_map (f : α → β) (read : Reader α) (cs : List Char) :
    run (fun cs => (read cs).map (·.map f)) cs = (read.run cs).map fun p => (f p.1, p.2) := by
  unfold run
  dsimp only
  cases read cs <;> rfl

@[simp] theorem run_as (v : β) (read : Reader α) (cs : List Char) :
    (read.as v).run cs = (read.run cs).map fun p => (v, p.2) := run_map _ read cs

theorem run_orElse (first second : Reader α) (cs : List Char) :
    (first.orElse second).run cs = (first.run cs).or (second.run cs) := by
  unfold run orElse
  cases first cs <;> rfl

@[simp] theorem run_behind (gap : Gap) (read : Reader α) (cs : List Char) :
    (behind gap read).run cs = (gap.run cs).bind read.run := by
  unfold run behind Gap.run
  cases gap cs with
  | none => rfl
  | some r =>
    simp only [Option.map_some, Option.bind_some]
    cases read r.1 <;> rfl

@[simp] theorem run_andThen (first : Reader α) (next : α → Reader β) (cs : List Char) :
    (first.andThen next).run cs = (first.run cs).bind fun p => (next p.1).run p.2 := by
  unfold run andThen
  cases first cs with
  | none => rfl
  | some t =>
    simp only [Option.map_some, Option.bind_some]
    cases next t.value t.rest <;> rfl

/-- What follows a value in a row of values: a comma and the other values, or the end. -/
def runBehind (close : Char) (gap : Gap) (more : List Char → Option (List α × List Char)) (v : α)
    (rest : List Char) : Option (List α × List Char) :=
  match gap.run rest with
  | some (d :: behind) =>
    if d = ',' then (more behind).map fun p => (v :: p.1, p.2)
    else if d = close then some ([v], behind)
    else none
  | _ => none

/-- A row of values is closed, or a value stands at its front. -/
theorem run_upTo (close : Char) (gap : Gap) (trailing : Bool) (item : Reader α) (mayClose : Bool)
    (cs : List Char) :
    run (upTo close gap trailing item mayClose) cs =
      match gap.run cs with
      | some (c :: rest) =>
        if c = close && mayClose then some ([], rest)
        else (item.run (c :: rest)).bind fun p =>
          runBehind close gap (run (upTo close gap trailing item trailing)) p.1 p.2
      | _ => none := by
  conv => lhs; unfold run upTo
  unfold Gap.run
  cases hgap : gap cs with
  | none => rfl
  | some r =>
    obtain ⟨r, hr⟩ := r
    cases r with
    | nil => rfl
    | cons c rest =>
      simp only [Option.map_some]
      split
      · rfl
      · unfold run
        cases item (c :: rest) with
        | none => rfl
        | some t =>
          simp only [Option.map_some, Option.bind_some, runBehind, Gap.run]
          cases gap t.rest with
          | none => rfl
          | some q =>
            obtain ⟨q, hq⟩ := q
            cases q with
            | nil => rfl
            | cons d behind =>
              simp only [Option.map_some]
              by_cases hcomma : d = ','
              · rw [if_pos hcomma, if_pos hcomma]
                cases upTo close gap trailing item trailing behind <;> rfl
              · rw [if_neg hcomma, if_neg hcomma]
                split <;> rfl

end Reader

end Adventure.Record
