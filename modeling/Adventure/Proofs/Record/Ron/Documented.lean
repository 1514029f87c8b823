import Adventure.Proofs.Record.Documented
import Adventure.Proofs.Record.Ron.Document
import Adventure.Record.Read

/-!
RON as the programs read it does what is documented of it (`Ron.documented`): its texts are read as
the values that they spell, and plain values have texts (`writable_of_plain`).
-/

namespace Adventure.Record

/-! ### Fields that are there at most once -/

section SoleField

variable {V α : Type} {name : String} {default : α} {read? : V → Option α}

theorem filter_name_eq_nil {fields : List (String × V)} (h : ∀ e ∈ fields, e.1 ≠ name) :
    fields.filter (·.1 = name) = [] :=
  List.filter_eq_nil_iff.mpr fun e he => by simpa using h e he

theorem soleField?_absent {fields : List (String × V)} (h : ∀ e ∈ fields, e.1 ≠ name) :
    soleField? fields name default read? = some default := by
  rw [soleField?, filter_name_eq_nil h]

theorem soleField?_once {before behind : List (String × V)} (hbefore : ∀ e ∈ before, e.1 ≠ name)
    (hbehind : ∀ e ∈ behind, e.1 ≠ name) (v : V) :
    soleField? (before ++ (name, v) :: behind) name default read? = read? v := by
  rw [soleField?, List.filter_append, filter_name_eq_nil hbefore, List.nil_append,
    List.filter_cons_of_pos (by simp), filter_name_eq_nil hbehind]

theorem soleField?_twice (before between behind : List (String × V)) (v w : V) :
    soleField? (before ++ (name, v) :: (between ++ (name, w) :: behind)) name default read? =
      none := by
  have hlong : 2 ≤ ((before ++ (name, v) :: (between ++ (name, w) :: behind)).filter
      (·.1 = name)).length := by
    simp only [List.filter_append, List.filter_cons, decide_true, if_true, List.length_append,
      List.length_cons]
    omega
  unfold soleField?
  split
  · rename_i h
    simp [h] at hlong
  · rename_i h
    simp [h] at hlong
  · rfl

end SoleField

namespace Ron

/-! ### Spellings of plain values -/

/-- A value that has a spelling. -/
def Writable (v : Value) (k : Nat) : Prop := ∃ t, Written v k t

theorem exists_spellsInside (cs : List Char) : ∃ t, SpellsInside cs t := by
  induction cs with
  | nil => exact ⟨[], .nil⟩
  | cons c cs ih =>
    obtain ⟨t, ht⟩ := ih
    by_cases hquote : c = '"'
    · exact ⟨_, .escape (.mark (e := '"') (by rw [hquote]; decide)) ht⟩
    · by_cases hslash : c = '\\'
      · exact ⟨_, .escape (.mark (e := '\\') (by rw [hslash]; decide)) ht⟩
      · exact ⟨_, .plain hquote hslash ht⟩

theorem Writable.text (s : String) (k : Nat) : Writable (.text s) k := by
  obtain ⟨t, ht⟩ := exists_spellsInside s.toList
  exact ⟨_, .text (.quoted ht)⟩

theorem spellsDigits_digits (n : Nat) : SpellsDigits 10 n (Decimal.digits n) := by
  have hall : ∀ c ∈ Decimal.digits n, c ≠ '_' := by
    rintro c hc rfl
    exact absurd (List.all_eq_true.mp (Decimal.all_digits n) '_' hc) (by decide)
  refine ⟨?_, Decimal.digits_ne_nil n, ?_⟩
  · obtain ⟨c, ds, hds⟩ := Decimal.digits_eq_cons n
    rw [hds] at hall ⊢
    simpa using hall c List.mem_cons_self
  · rw [List.filter_eq_self.mpr fun c hc => by simpa using hall c hc, Decimal.valueIn?_digits]

theorem Writable.whole (sign : Option Sign) (size k : Nat) :
    Writable (.number (.ofWhole sign size)) k := by
  obtain ⟨s, hs⟩ : ∃ s, SpellsSign sign s := by
    match sign with
    | none => exact ⟨_, .none⟩
    | some .plus => exact ⟨_, .plus⟩
    | some .minus => exact ⟨_, .minus⟩
  exact ⟨_, .number (.whole hs (.plain (spellsDigits_digits size))
    (Or.inr (Decimal.all_digits size)))⟩

theorem exists_row {α : Type} {item : α → Nat → List Char → Prop} (close : Char) {vs : List α}
    {k : Nat} (h : ∀ v ∈ vs, ∃ t, item v k t) : ∃ t, Row item close vs (k + 1) t := by
  induction vs with
  | nil => exact ⟨_, .closed .nil⟩
  | cons v vs ih =>
    obtain ⟨t, ht⟩ := h v List.mem_cons_self
    obtain ⟨ts, hts⟩ := ih fun w hw => h w (List.mem_cons_of_mem _ hw)
    exact ⟨_, .more .nil ht .nil hts⟩

theorem Writable.list {vs : List Value} {k : Nat} (h : ∀ v ∈ vs, Writable v k) :
    Writable (.list vs) (k + 2) := by
  obtain ⟨t, ht⟩ := exists_row ']' h
  exact ⟨_, .list ht⟩

theorem Writable.record {fields : List (String × Value)} {k : Nat}
    (hname : ∀ e ∈ fields, ∃ s, SpellsName e.1 s) (h : ∀ e ∈ fields, Writable e.2 k) :
    Writable (.record none fields) (k + 2) := by
  have hpairs : ∀ e ∈ fields, ∃ t, Pair (fun n _ => SpellsName n) Written e k t := by
    intro e he
    obtain ⟨s, hs⟩ := hname e he
    obtain ⟨t, ht⟩ := h e he
    exact ⟨_, .intro hs .nil .nil ht⟩
  obtain ⟨t, ht⟩ := exists_row ')' hpairs
  exact ⟨_, .record .none ht⟩

/-- An identifier may be written raw. -/
theorem exists_spellsName {n : String} (h : Format.Grammar.IsIdentifier n) :
    ∃ s, SpellsName n s := by
  refine ⟨_, .raw h.1 (all_imp h.2 fun c hc => ?_)⟩
  rw [Bool.or_eq_true] at hc
  rcases hc with hc | hc <;> simp [isRawNameChar, isNameChar, Char.isAlphanum, hc]

/-- A value alone makes a whole text. -/
theorem IsText.of_written {v : Value} {s : String} {t : List Char} (h : Written v maxLevels t)
    (hs : s.toList = t) : IsText v s :=
  .intro (.plain .nil) (fun _ h => by cases h) h (.plain .nil) (by rw [hs]; simp)

/-! ### What is documented -/

/-- How values are written in RON. -/
def grammar : format.Grammar where
  text := Value.text
  whole sign size := Value.number (.ofWhole sign size)
  list := Value.list
  record := Value.record
  Spells s v := IsText v s

/-- A plain value takes up two levels for each that it nests. -/
theorem writable_of_plain {k : Nat} {v : format.Value} (h : grammar.Plain k v) (extra : Nat) :
    Writable v (2 * k + extra) := by
  induction h with
  | text s k => exact .text s _
  | score x _ k => exact .whole _ _ _
  | @list vs k _ ih =>
    rw [Nat.mul_succ, Nat.add_right_comm]
    exact .list ih
  | @record fields k hname _ ih =>
    rw [Nat.mul_succ, Nat.add_right_comm]
    exact .record (fun e he => exists_spellsName (hname e he)) ih

theorem score?_ofWhole (sign : Option Sign) (size : Nat) :
    format.score? (Value.number (.ofWhole sign size)) =
      Score.ofInt? (Format.Grammar.signed sign size) := by
  rw [Number.ofWhole]
  by_cases hsize : size ≤ maxSize sign
  · rw [if_pos hsize]
    rfl
  · have hnone : Score.ofInt? (Format.Grammar.signed sign size) = none := by
      rw [Option.eq_none_iff_forall_ne_some]
      intro x hx
      have hval := Score.ofInt?_eq_some_iff.mp hx
      have hlow := x.low
      have hhigh := x.high
      have habs := Format.Grammar.natAbs_signed sign size
      have hmax : 2147483648 ≤ maxSize sign := by
        cases sign with
        | none => decide
        | some sign => cases sign <;> decide
      omega
    rw [if_neg hsize, hnone]
    rfl

/-- **RON is read as documented.** -/
theorem documented : grammar.Documented where
  parse := parse?_of_isText
  spelled h := by
    obtain ⟨t, ht⟩ := writable_of_plain h 120
    exact ⟨String.ofList t, .of_written ht String.toList_ofList⟩
  text _ := rfl
  score := score?_ofWhole
  list _ _ := rfl
  fields _ _ _ _ := rfl
  absent h _ _ := soleField?_absent h
  once hbefore hbehind v _ _ := soleField?_once hbefore hbehind v
  twice before between behind _ v w _ _ := soleField?_twice before between behind v w

end Ron

end Adventure.Record
