import Adventure.Text.Decimal

/-!
Whole numbers that are written in base ten are read back: `read?_signed`. A number in any base is
read from digits of that base only: `hexValue?_of_mem`, and one in base ten from its own:
`valueIn?_digits`.
-/

namespace Adventure.Decimal

theorem value_concat (cs : List Char) (c : Char) :
    value (cs ++ [c]) = 10 * value cs + (c.toNat - '0'.toNat) := by
  simp [value]

/-- The digits of a number stand for the number. -/
theorem value_digits (n : Nat) : value (digits n) = n := by
  fun_induction digits n with
  | case1 n h =>
    have hd : (Nat.digitChar n).toNat - 48 = n := Nat.toNat_digitChar_sub_48_of_lt_ten h
    simp [value, hd]
  | case2 n h ih =>
    have hd : (Nat.digitChar (n % 10)).toNat - '0'.toNat = n % 10 :=
      Nat.toNat_digitChar_sub_48_of_lt_ten (Nat.mod_lt n (by decide))
    rw [value_concat, ih, hd]
    exact Nat.div_add_mod n 10

/-- Digits are digits. -/
theorem all_digits (n : Nat) : (digits n).all Char.isDigit = true := by
  fun_induction digits n with
  | case1 n h => simp [Nat.isDigit_digitChar, h]
  | case2 n h ih =>
    have hd : n % 10 < 10 := Nat.mod_lt n (by decide)
    simp only [List.all_append, ih, List.all_cons, List.all_nil, Nat.isDigit_digitChar, hd,
      decide_true, Bool.and_self]

/-- Every number has a first digit. -/
theorem digits_eq_cons (n : Nat) : ∃ c ds, digits n = c :: ds := by
  rw [digits]
  split
  · exact ⟨_, _, rfl⟩
  · cases digits (n / 10) with
    | nil => exact ⟨_, _, rfl⟩
    | cons c ds => exact ⟨c, ds ++ [_], rfl⟩

theorem digits_ne_nil (n : Nat) : digits n ≠ [] := by
  obtain ⟨c, ds, h⟩ := digits_eq_cons n
  rw [h]
  nofun

/-- Digits without a sign are read as a natural number. -/
theorem read?_of_digits {cs : List Char} (hne : cs ≠ []) (h : cs.all Char.isDigit = true) :
    read? cs = some (value cs : Int) := by
  unfold read?
  split
  · -- A minus sign is no digit.
    simp [show Char.isDigit '-' = false from rfl] at h
  · rw [if_pos ⟨hne, h⟩]

/-- **A whole number that is written in base ten is read back.** -/
theorem read?_signed (n : Int) : read? (signed n) = some n := by
  unfold signed
  split
  · rename_i h
    rw [read?, if_pos ⟨digits_ne_nil _, all_digits _⟩, value_digits]
    congr 1
    omega
  · rename_i h
    rw [read?_of_digits (digits_ne_nil _) (all_digits _), value_digits]
    congr 1
    omega

/-- A number is written as a digit or a minus sign, and digits behind it. -/
theorem signed_eq_cons (n : Int) :
    ∃ c ds, signed n = c :: ds ∧ (c.isDigit = true ∨ c = '-') ∧ ds.all Char.isDigit = true := by
  unfold signed
  split
  · exact ⟨'-', _, rfl, Or.inr rfl, all_digits _⟩
  · obtain ⟨c, ds, h⟩ := digits_eq_cons n.natAbs
    have hall := all_digits n.natAbs
    rw [h, List.all_cons, Bool.and_eq_true] at hall
    exact ⟨c, ds, h, Or.inl hall.1, hall.2⟩

theorem valueIn?_concat (base : Nat) (cs : List Char) (c : Char) :
    valueIn? base (cs ++ [c]) = (valueIn? base cs).bind fun n =>
      ((hexValue? c).filter (· < base)).map (base * n + ·) := by
  rw [valueIn?, List.foldlM_append]
  unfold valueIn?
  cases cs.foldlM (fun n c => ((hexValue? c).filter (· < base)).map (base * n + ·)) 0 with
  | none => rfl
  | some n => simp

theorem hexValue?_digitChar : ∀ d < 10, hexValue? (Nat.digitChar d) = some d := by decide

/-- The digits of a number stand for the number. -/
theorem valueIn?_digits (n : Nat) : valueIn? 10 (digits n) = some n := by
  have hdigit : ∀ d m, d < 10 →
      ((hexValue? (Nat.digitChar d)).filter (· < 10)).map (10 * m + ·) = some (10 * m + d) := by
    intro d m hd
    rw [hexValue?_digitChar d hd, Option.filter_some, if_pos (decide_eq_true hd)]
    rfl
  fun_induction digits n with
  | case1 n h =>
    have := valueIn?_concat 10 [] (Nat.digitChar n)
    rw [List.nil_append] at this
    rw [this, show valueIn? 10 [] = some 0 from rfl, Option.bind_some, hdigit n 0 h]
    simp
  | case2 n h ih =>
    rw [valueIn?_concat, ih, Option.bind_some, hdigit _ _ (Nat.mod_lt n (by decide)),
      Nat.div_add_mod]

/-- What is put together of digits holds digits of the base only. -/
theorem hexValue?_of_mem {base n : Nat} {cs : List Char} (h : valueIn? base cs = some n) {c : Char}
    (hc : c ∈ cs) : ∃ d, hexValue? c = some d ∧ d < base := by
  have hall : ∀ (cs : List Char) (start : Nat),
      (cs.foldlM (fun n c => ((hexValue? c).filter (· < base)).map (base * n + ·)) start).isSome →
      ∀ c ∈ cs, ∃ d, hexValue? c = some d ∧ d < base := by
    intro cs
    induction cs with
    | nil =>
      intro _ _ c hc
      cases hc
    | cons e cs ih =>
      intro start hsome c hc
      rw [List.foldlM_cons] at hsome
      cases he : (hexValue? e).filter (· < base) with
      | none =>
        rw [he] at hsome
        cases hsome
      | some d =>
        rw [he] at hsome
        rcases List.mem_cons.mp hc with rfl | hc
        · rw [Option.filter_eq_some_iff, decide_eq_true_eq] at he
          exact ⟨d, he⟩
        · exact ih _ hsome c hc
  exact hall cs 0 (by rw [← valueIn?, h]; rfl) c hc

end Adventure.Decimal
