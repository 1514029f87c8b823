import Adventure.Proofs.Record.Ron.Name
import Adventure.Proofs.Text.Decimal
import Adventure.Record.Ron.Number

/-!
The spellings of numbers in RON (`SpellsNumber`), and that a number is read from each of them
(`run_number`).

A whole number that takes up more than 64 bits is read as one with a point, which works for plain
digits only. It is therefore spelled in no other base, and without underlines.
-/

namespace Adventure.Record.Ron

open Text

/-! ### Spellings -/

/-- The spellings of the sign of a number. -/
inductive SpellsSign : Option Sign → List Char → Prop where
  | none : SpellsSign none []
  | plus : SpellsSign (some .plus) ['+']
  | minus : SpellsSign (some .minus) ['-']

/-- Digits that stand for a number, with underlines behind the first of them. -/
def SpellsDigits (base n : Nat) (t : List Char) : Prop :=
  t.head?.all (· ≠ '_') ∧ t ≠ [] ∧ Decimal.valueIn? base (t.filter (· ≠ '_')) = some n

/-- The spellings of the size of a whole number. -/
inductive SpellsSize : Nat → List Char → Prop where
  | plain {n : Nat} {t : List Char} : SpellsDigits 10 n t → SpellsSize n t
  | based {mark : Char} {base n : Nat} {t : List Char} :
      (mark, base) ∈ [('x', 16), ('o', 8), ('b', 2)] → SpellsDigits base n t →
      SpellsSize n ('0' :: mark :: t)

/-- The exponents of a number, or none. -/
inductive IsExponent : List Char → Prop where
  | none : IsExponent []
  | digits {e : Char} {sign : Option Sign} {s ds : List Char} : e = 'e' ∨ e = 'E' →
      SpellsSign sign s → ds ≠ [] → ds.all Char.isDigit = true → IsExponent (e :: (s ++ ds))

/-- Numbers with a point or an exponent, without a sign. -/
inductive IsDecimal : List Char → Prop where
  | point {whole fraction exponent : List Char} : whole.all Char.isDigit = true →
      fraction.all Char.isDigit = true → whole ++ fraction ≠ [] → IsExponent exponent →
      IsDecimal (whole ++ '.' :: (fraction ++ exponent))
  | exponent {whole exponent : List Char} : whole.all Char.isDigit = true → whole ≠ [] →
      IsExponent exponent → exponent ≠ [] → IsDecimal (whole ++ exponent)

/-- The words for numbers that have no digits. -/
def specials : List String := ["inf", "+inf", "-inf", "NaN", "+NaN", "-NaN"]

/-- What a whole number is read as. One that takes up more than 64 bits is read as one with a
point. -/
def Number.ofWhole (sign : Option Sign) (n : Nat) : Number :=
  if n ≤ maxSize sign then .integer sign n else .decimal

/-- The spellings of a number. A whole number of more than 64 bits has no base and no underlines. -/
inductive SpellsNumber : Number → List Char → Prop where
  | whole {sign : Option Sign} {n : Nat} {s t : List Char} : SpellsSign sign s → SpellsSize n t →
      (n ≤ maxSize sign ∨ t.all Char.isDigit = true) →
      SpellsNumber (.ofWhole sign n) (s ++ t)
  | decimal {sign : Option Sign} {s t : List Char} : SpellsSign sign s → IsDecimal t →
      SpellsNumber .decimal (s ++ t)
  | special {w : String} : w ∈ specials → SpellsNumber .decimal w.toList

/-! ### Characters of numbers -/

theorem not_integer_of_mem_stops : ∀ c ∈ stops, isIntegerChar c = false :=
  List.all_iff_forall_prop.mp (by decide)

theorem not_decimal_of_mem_stops : ∀ c ∈ stops, isDecimalChar c = false :=
  List.all_iff_forall_prop.mp (by decide)

theorem isDecimalChar_of_isDigit {c : Char} (h : c.isDigit = true) : isDecimalChar c = true := by
  simp [isDecimalChar, h]

theorem all_imp {α : Type} {p q : α → Bool} {xs : List α} (h : xs.all p = true)
    (hpq : ∀ x, p x = true → q x = true) : xs.all q = true := by
  rw [List.all_eq_true] at h ⊢
  exact fun x hx => hpq x (h x hx)

theorem isDigit_of_hexValue?_lt {c : Char} {d : Nat} (h : Decimal.hexValue? c = some d)
    (hd : d < 10) : c.isDigit = true := by
  unfold Decimal.hexValue? at h
  split at h
  · assumption
  · split at h
    · cases h
      omega
    · split at h
      · cases h
        omega
      · cases h

/-! ### Whole numbers -/

theorem run_digitsIn_cons (base : Nat) (c : Char) (rest : List Char) :
    (digitsIn base).run (c :: rest) =
      if isIntegerChar c && c ≠ '_' then
        (Decimal.valueIn? base ((c :: rest.takeWhile isIntegerChar).filter (· ≠ '_'))).map
          fun n => (n, rest.dropWhile isIntegerChar)
      else none := by
  rw [Reader.run, digitsIn]
  split
  · split
    · rename_i h
      rw [h]
      rfl
    · rename_i h
      rw [h]
      rfl
  · rfl

theorem SpellsDigits.all {base n : Nat} {t : List Char} (h : SpellsDigits base n t) :
    ∀ c ∈ t, c = '_' ∨ ∃ d, Decimal.hexValue? c = some d ∧ d < base := by
  intro c hc
  by_cases hunder : c = '_'
  · exact Or.inl hunder
  · have hmem : c ∈ t.filter (· ≠ '_') :=
      List.mem_filter.mpr ⟨hc, by rw [decide_eq_true_eq]; exact hunder⟩
    exact Or.inr (Decimal.hexValue?_of_mem h.2.2 hmem)

theorem SpellsDigits.integer {base n : Nat} {t : List Char} (h : SpellsDigits base n t) :
    t.all isIntegerChar = true := by
  rw [List.all_eq_true]
  intro c hc
  rcases h.all c hc with rfl | ⟨d, hd, -⟩
  · rfl
  · rw [isIntegerChar, hd]
    rfl

/-- The digits of a number in base ten, and underlines. -/
theorem SpellsDigits.plain {n : Nat} {t : List Char} (h : SpellsDigits 10 n t) :
    ∀ c ∈ t, c.isDigit = true ∨ c = '_' := by
  intro c hc
  rcases h.all c hc with rfl | ⟨d, hd, hlt⟩
  · exact Or.inr rfl
  · exact Or.inl (isDigit_of_hexValue?_lt hd hlt)

theorem run_digitsIn {base n : Nat} {t rest : List Char} (h : SpellsDigits base n t)
    (hrest : Stops rest) : (digitsIn base).run (t ++ rest) = some (n, rest) := by
  have hall := h.integer
  obtain ⟨hhead, hne, hvalue⟩ := h
  cases t with
  | nil => exact absurd rfl hne
  | cons c cs =>
    rw [List.all_cons, Bool.and_eq_true] at hall
    have hstop := hrest.head_eq_false not_integer_of_mem_stops
    rw [List.cons_append, run_digitsIn_cons, takeWhile_run hall.2 hstop, dropWhile_run hall.2 hstop,
      hvalue, hall.1]
    simp only [List.head?_cons, Option.all_some] at hhead
    rw [hhead]
    rfl

/-- The marks of the bases other than ten. -/
def baseMarks : List Char := ['x', 'o', 'b']

theorem mem_baseMarks {mark : Char} {base : Nat}
    (h : (mark, base) ∈ [('x', 16), ('o', 8), ('b', 2)]) : mark ∈ baseMarks :=
  List.mem_map_of_mem (f := Prod.fst) h

theorem not_digit_of_mem_baseMarks : ∀ c ∈ baseMarks, c.isDigit = false :=
  List.all_iff_forall_prop.mp (by decide)

theorem not_decimal_of_mem_baseMarks : ∀ c ∈ baseMarks, isDecimalChar c = false :=
  List.all_iff_forall_prop.mp (by decide)

theorem baseMarks_not_stop : ∀ c ∈ baseMarks, c ∉ stops :=
  List.all_iff_forall_prop.mp (by decide)

/-- Where no base stands, the digits are of base ten. -/
theorem run_size_plain {t rest : List Char} (hne : t ≠ []) (ht : ∀ c ∈ t, c ∉ baseMarks)
    (hrest : Stops rest) : size.run (t ++ rest) = (digitsIn 10).run (t ++ rest) := by
  have hbase : ∀ m more, m ∈ baseMarks → t ++ rest ≠ '0' :: m :: more := by
    intro m more hm hcs
    cases t with
    | nil => exact hne rfl
    | cons c cs =>
      cases cs with
      | nil =>
        cases hcs
        exact baseMarks_not_stop m hm (hrest m rfl)
      | cons d cs =>
        cases hcs
        exact ht m (by simp) hm
  rw [Reader.run, Reader.run, size]
  · exact fun more => hbase 'x' more (by decide)
  · exact fun more => hbase 'o' more (by decide)
  · exact fun more => hbase 'b' more (by decide)

theorem run_size {n : Nat} {t rest : List Char} (h : SpellsSize n t) (hrest : Stops rest) :
    size.run (t ++ rest) = some (n, rest) := by
  cases h with
  | plain hdigits =>
    rw [run_size_plain hdigits.2.1 ?_ hrest, run_digitsIn hdigits hrest]
    intro c hc hmark
    rcases hdigits.plain c hc with hd | rfl
    · rw [not_digit_of_mem_baseMarks c hmark] at hd
      cases hd
    · exact absurd hmark (by decide)
  | @based mark base n t hmark hdigits =>
    have hread := run_digitsIn hdigits hrest
    simp only [List.mem_cons, Prod.mk.injEq, List.not_mem_nil, or_false] at hmark
    rw [List.cons_append, List.cons_append, Reader.run]
    rcases hmark with ⟨rfl, rfl⟩ | ⟨rfl, rfl⟩ | ⟨rfl, rfl⟩ <;>
      (rw [size, Option.map_map]; exact hread)

theorem run_integer (sign : Option Sign) (cs : List Char) :
    (integer sign).run cs = (size.run cs).bind fun p =>
      if p.1 ≤ maxSize sign then some (.integer sign p.1, p.2) else none := by
  unfold Reader.run integer
  cases size cs with
  | none => rfl
  | some t =>
    simp only [Option.map_some, Option.bind_some]
    split <;> rfl

/-! ### Numbers with a point or an exponent -/

theorem run_decimal (cs : List Char) :
    decimal.run cs =
      if cs.takeWhile isDecimalChar ≠ [] ∧ isDecimal (cs.takeWhile isDecimalChar) then
        some (.decimal, cs.dropWhile isDecimalChar)
      else none := by
  unfold Reader.run decimal
  split <;> rfl

theorem run_unsigned (sign : Option Sign) (cs : List Char) :
    (unsigned sign).run cs =
      if (cs.takeWhile isIntegerChar).length < (cs.takeWhile isDecimalChar).length then
        decimal.run cs
      else ((integer sign).run cs).or (decimal.run cs) := by
  rw [← Reader.run_orElse]
  unfold Reader.run unsigned
  split <;> rfl

theorem behindDigits?_append {ds rest : List Char} (hne : ds ≠ [])
    (hds : ds.all Char.isDigit = true) (hrest : ∀ c ∈ rest.head?, c.isDigit = false) :
    behindDigits? (ds ++ rest) = some rest := by
  cases ds with
  | nil => exact absurd rfl hne
  | cons d ds =>
    rw [List.all_cons, Bool.and_eq_true] at hds
    rw [List.cons_append, behindDigits?, if_pos hds.1, dropWhile_run hds.2 hrest]

theorem behindDigits?_all {ds : List Char} (hne : ds ≠ []) (hds : ds.all Char.isDigit = true) :
    behindDigits? ds = some [] := by
  have hend : ∀ c ∈ ([] : List Char).head?, c.isDigit = false := by simp
  rw [← behindDigits?_append hne hds hend, List.append_nil]

theorem behindDigits?_eq_none {cs : List Char} (h : ∀ c ∈ cs.head?, c.isDigit = false) :
    behindDigits? cs = none := by
  cases cs with
  | nil => rfl
  | cons c cs => rw [behindDigits?, h c rfl]; rfl

theorem isExponent_of {cs : List Char} (h : IsExponent cs) : isExponent cs = true := by
  cases h with
  | none => rfl
  | @digits e sign s ds he hs hne hds =>
    have hbehind : behindDigits? ds = some [] := behindDigits?_all hne hds
    have hletter : (decide (e = 'e') || decide (e = 'E')) = true := by
      rcases he with rfl | rfl <;> rfl
    cases hs with
    | plus => simp [isExponent, hletter, hbehind]
    | minus => simp [isExponent, hletter, hbehind]
    | none =>
      -- Without a sign, the digits start with a digit.
      cases ds with
      | nil => exact absurd rfl hne
      | cons d ds =>
        rw [List.all_cons, Bool.and_eq_true] at hds
        have hplus : d ≠ '+' := by rintro rfl; exact absurd hds.1 (by decide)
        have hminus : d ≠ '-' := by rintro rfl; exact absurd hds.1 (by decide)
        rw [List.nil_append, isExponent, hletter, hbehind]
        · rfl
        · intro x hx
          cases hx
          exact hplus rfl
        · intro x hx
          cases hx
          exact hminus rfl

/-- An exponent starts with its letter. -/
theorem IsExponent.head {cs : List Char} (h : IsExponent cs) :
    ∀ c ∈ cs.head?, c = 'e' ∨ c = 'E' := by
  cases h with
  | none => simp
  | digits he _ _ _ =>
    intro c hc
    cases hc
    exact he

theorem not_digit_of_exponent {c : Char} (h : c = 'e' ∨ c = 'E') : c.isDigit = false := by
  rcases h with rfl | rfl <;> rfl

theorem IsExponent.all {cs : List Char} (h : IsExponent cs) : cs.all isDecimalChar = true := by
  cases h with
  | none => rfl
  | @digits e sign s ds he hs hne hds =>
    have hsign : s.all isDecimalChar = true := by cases hs <;> rfl
    have hletter : isDecimalChar e = true := by rcases he with rfl | rfl <;> rfl
    rw [List.all_cons, List.all_append, hletter, hsign,
      all_imp hds fun _ => isDecimalChar_of_isDigit]
    rfl

theorem IsDecimal.all {t : List Char} (h : IsDecimal t) : t.all isDecimalChar = true := by
  cases h with
  | point hwhole hfraction _ hexp =>
    rw [List.all_append, List.all_cons, List.all_append,
      all_imp hwhole fun _ => isDecimalChar_of_isDigit,
      all_imp hfraction fun _ => isDecimalChar_of_isDigit, hexp.all]
    rfl
  | exponent hwhole _ hexp _ =>
    rw [List.all_append, all_imp hwhole fun _ => isDecimalChar_of_isDigit, hexp.all]
    rfl

theorem IsDecimal.ne_nil {t : List Char} (h : IsDecimal t) : t ≠ [] := by
  cases h with
  | point => simp
  | exponent _ hne _ _ => simp [hne]

/-! The cases of `isDecimal`, by what stands behind the first digits. -/

theorem isDecimal_point {cs rest : List Char} (h : behindDigits? cs = some ('.' :: rest)) :
    isDecimal cs = isExponent ((behindDigits? rest).getD rest) := by
  unfold isDecimal
  split
  · rename_i heq
    cases h.symm.trans heq
    rfl
  · rename_i hnot heq
    cases h.symm.trans heq
    exact absurd rfl (hnot _)
  · rename_i heq
    cases h.symm.trans heq
  · cases h.symm.trans ‹_ = none›

theorem isDecimal_digits {cs rest : List Char} (h : behindDigits? cs = some rest)
    (hrest : ∀ c ∈ rest.head?, c ≠ '.') : isDecimal cs = isExponent rest := by
  unfold isDecimal
  split
  · rename_i heq
    cases h.symm.trans heq
    exact absurd rfl (hrest '.' rfl)
  · rename_i heq
    cases h.symm.trans heq
    rfl
  · rename_i heq
    cases h.symm.trans heq
  · cases h.symm.trans ‹_ = none›

theorem isDecimal_fraction (rest : List Char) :
    isDecimal ('.' :: rest) = ((behindDigits? rest).map isExponent).getD false := rfl

theorem isDecimal_of {t : List Char} (h : IsDecimal t) : isDecimal t = true := by
  cases h with
  | @point whole fraction exponent hwhole hfraction hne hexp =>
    have hstop : ∀ c ∈ exponent.head?, c.isDigit = false := fun c hc =>
      not_digit_of_exponent (hexp.head c hc)
    by_cases hfrac : fraction = []
    · have hw : whole ≠ [] := by simpa [hfrac] using hne
      rw [isDecimal_point (behindDigits?_append hw hwhole (by simp)), hfrac, List.nil_append,
        behindDigits?_eq_none hstop]
      exact isExponent_of hexp
    · have hbehind := behindDigits?_append hfrac hfraction hstop
      by_cases hw : whole = []
      · rw [hw, List.nil_append, isDecimal_fraction, hbehind]
        exact isExponent_of hexp
      · rw [isDecimal_point (behindDigits?_append hw hwhole (by simp)), hbehind]
        exact isExponent_of hexp
  | @exponent whole exponent hwhole hne hexp hsome =>
    have hstop : ∀ c ∈ exponent.head?, c.isDigit = false := fun c hc =>
      not_digit_of_exponent (hexp.head c hc)
    rw [isDecimal_digits (behindDigits?_append hne hwhole hstop)]
    · exact isExponent_of hexp
    · intro c hc
      rcases hexp.head c hc with rfl | rfl <;> decide

theorem isDecimal_of_digits {t : List Char} (hne : t ≠ []) (h : t.all Char.isDigit = true) :
    isDecimal t = true := by
  rw [isDecimal_digits (behindDigits?_all hne h) (by simp)]
  rfl

/-- Characters of numbers with a point are read as such a number if they are one. -/
theorem run_decimal_append {t rest : List Char} (hne : t ≠ []) (hall : t.all isDecimalChar = true)
    (hrest : ∀ c ∈ rest.head?, isDecimalChar c = false) :
    decimal.run (t ++ rest) = if isDecimal t then some (.decimal, rest) else none := by
  rw [run_decimal, takeWhile_run hall hrest, dropWhile_run hall hrest]
  simp [hne]

/-! ### All numbers -/

section Unsigned

variable {sign : Option Sign} {t rest : List Char}

theorem run_integer_of_size {n : Nat} (h : SpellsSize n t) (hrest : Stops rest) :
    (integer sign).run (t ++ rest) =
      if n ≤ maxSize sign then some (.integer sign n, rest) else none := by
  rw [run_integer, run_size h hrest]
  rfl

/-- Where as many characters are read as with a point, a whole number is tried first. -/
theorem run_unsigned_of_le (cs : List Char)
    (h : (cs.takeWhile isDecimalChar).length ≤ (cs.takeWhile isIntegerChar).length) :
    (unsigned sign).run cs = ((integer sign).run cs).or (decimal.run cs) := by
  rw [run_unsigned, if_neg (Nat.not_lt.mpr h)]

/-- A whole number without a base is read. -/
theorem run_unsigned_plain {n : Nat} (h : SpellsDigits 10 n t)
    (hsize : n ≤ maxSize sign ∨ t.all Char.isDigit = true) (hrest : Stops rest) :
    (unsigned sign).run (t ++ rest) = some (.ofWhole sign n, rest) := by
  have hdecimal : t.all isDecimalChar = true := by
    rw [List.all_eq_true]
    intro c hc
    rcases h.plain c hc with hd | rfl
    · exact isDecimalChar_of_isDigit hd
    · rfl
  have hinteger := hrest.head_eq_false not_integer_of_mem_stops
  have hpoint := hrest.head_eq_false not_decimal_of_mem_stops
  have hlong : ((t ++ rest).takeWhile isDecimalChar).length ≤
      ((t ++ rest).takeWhile isIntegerChar).length := by
    rw [takeWhile_run hdecimal hpoint, takeWhile_run h.integer hinteger]
  rw [run_unsigned_of_le _ hlong, run_integer_of_size (.plain h) hrest,
    run_decimal_append h.2.1 hdecimal hpoint, Number.ofWhole]
  by_cases hn : n ≤ maxSize sign
  · rw [if_pos hn, if_pos hn]
    rfl
  · rw [if_neg hn, if_neg hn, Option.none_or,
      if_pos (isDecimal_of_digits h.2.1 (hsize.resolve_left hn))]

/-- A whole number with a base is read. -/
theorem run_unsigned_based {mark : Char} {base n : Nat}
    (hmark : (mark, base) ∈ [('x', 16), ('o', 8), ('b', 2)]) (h : SpellsDigits base n t)
    (hsize : n ≤ maxSize sign) (hrest : Stops rest) :
    (unsigned sign).run ('0' :: mark :: t ++ rest) = some (.ofWhole sign n, rest) := by
  have hpoint : ∀ c ∈ (mark :: t ++ rest).head?, isDecimalChar c = false := by
    intro c hc
    cases hc
    exact not_decimal_of_mem_baseMarks mark (mem_baseMarks hmark)
  have htake : ('0' :: mark :: t ++ rest).takeWhile isDecimalChar = ['0'] :=
    takeWhile_run (show ['0'].all isDecimalChar = true from rfl) hpoint
  have hlong : (('0' :: mark :: t ++ rest).takeWhile isDecimalChar).length ≤
      (('0' :: mark :: t ++ rest).takeWhile isIntegerChar).length := by
    rw [htake, List.cons_append, List.cons_append, List.takeWhile_cons_of_pos rfl,
      List.length_cons]
    exact Nat.succ_le_succ (Nat.zero_le _)
  rw [run_unsigned_of_le _ hlong, run_integer_of_size (.based hmark h) hrest, Number.ofWhole,
    if_pos hsize, if_pos hsize]
  rfl

/-- A number with a point or an exponent, without a character that no whole number has: digits, one
letter and digits. -/
theorem IsDecimal.letter (h : IsDecimal t) (hall : t.all isIntegerChar = true) :
    (∀ c ∈ t, c.isDigit = true ∨ c = 'e' ∨ c = 'E') ∧ ∃ c ∈ t, c = 'e' ∨ c = 'E' := by
  cases h with
  | point hwhole hfraction hne hexp => simp [show isIntegerChar '.' = false from rfl] at hall
  | exponent hwhole hne hexp hsome =>
    cases hexp with
    | none => exact absurd rfl hsome
    | @digits e s' s ds he hs hds hdigits =>
      have hs : s = [] := by
        cases hs with
        | none => rfl
        | plus => simp [show isIntegerChar '+' = false from rfl] at hall
        | minus => simp [show isIntegerChar '-' = false from rfl] at hall
      subst hs
      refine ⟨?_, e, by simp, he⟩
      intro c hc
      rw [List.nil_append, List.mem_append, List.mem_cons] at hc
      rcases hc with hc | rfl | hc
      · exact Or.inl (List.all_eq_true.mp hwhole c hc)
      · exact Or.inr he
      · exact Or.inl (List.all_eq_true.mp hdigits c hc)

/-- A number with an exponent does not make a whole number of its own. -/
theorem run_size_of_decimal (h : IsDecimal t) (hrest : Stops rest)
    (hlong : t.length ≤ ((t ++ rest).takeWhile isIntegerChar).length) :
    size.run (t ++ rest) = none := by
  have hall : t.all isIntegerChar = true := by
    have hfront : t <+: (t ++ rest).takeWhile isIntegerChar :=
      List.prefix_of_prefix_length_le (List.prefix_append t rest) (List.takeWhile_prefix _) hlong
    rw [List.all_eq_true]
    intro c hc
    exact List.all_eq_true.mp List.all_takeWhile c (hfront.subset hc)
  have hstop := hrest.head_eq_false not_integer_of_mem_stops
  obtain ⟨hchars, e, he, hletter⟩ := h.letter hall
  have hvalue : Decimal.valueIn? 10 (t.filter (· ≠ '_')) = none := by
    cases hv : Decimal.valueIn? 10 (t.filter (· ≠ '_')) with
    | none => rfl
    | some n =>
      have hmem : e ∈ t.filter (· ≠ '_') :=
        List.mem_filter.mpr ⟨he, by rcases hletter with rfl | rfl <;> rfl⟩
      obtain ⟨d, hd, hlt⟩ := Decimal.hexValue?_of_mem hv hmem
      have := isDigit_of_hexValue?_lt hd hlt
      rw [not_digit_of_exponent hletter] at this
      cases this
  have hbase : ∀ c ∈ t, c ∉ baseMarks := by
    intro c hc hmark
    rcases hchars c hc with hd | rfl | rfl
    · rw [not_digit_of_mem_baseMarks c hmark] at hd
      cases hd
    · exact absurd hmark (by decide)
    · exact absurd hmark (by decide)
  rw [run_size_plain h.ne_nil hbase hrest]
  cases t with
  | nil => cases he
  | cons c cs =>
    rw [List.all_cons, Bool.and_eq_true] at hall
    rw [List.cons_append, run_digitsIn_cons, takeWhile_run hall.2 hstop, hvalue]
    split <;> rfl

/-- A number with a point or an exponent is read as one. -/
theorem run_unsigned_decimal (h : IsDecimal t) (hrest : Stops rest) :
    (unsigned sign).run (t ++ rest) = some (.decimal, rest) := by
  have hpoint := hrest.head_eq_false not_decimal_of_mem_stops
  have hread : decimal.run (t ++ rest) = some (.decimal, rest) := by
    rw [run_decimal_append h.ne_nil h.all hpoint, isDecimal_of h]
    rfl
  rw [run_unsigned, takeWhile_run h.all hpoint, hread]
  split
  · rfl
  · rename_i hlong
    have hnone : (integer sign).run (t ++ rest) = none := by
      rw [run_integer, run_size_of_decimal h hrest (Nat.not_lt.mp hlong)]
      rfl
    rw [hnone]
    rfl

end Unsigned

/-- A number starts with a digit or a point behind its sign. -/
def startsNumber (c : Char) : Bool := c.isDigit || c = '.'

theorem SpellsSize.head {n : Nat} {t : List Char} (h : SpellsSize n t) :
    ∃ c cs, t = c :: cs ∧ startsNumber c = true := by
  cases h with
  | plain hdigits =>
    cases t with
    | nil => exact absurd rfl hdigits.2.1
    | cons c cs =>
      rcases hdigits.plain c List.mem_cons_self with hd | hunder
      · exact ⟨c, cs, rfl, by rw [startsNumber, hd]; rfl⟩
      · have hhead := hdigits.1
        simp [hunder] at hhead
  | based => exact ⟨'0', _, rfl, rfl⟩

theorem IsDecimal.head {t : List Char} (h : IsDecimal t) :
    ∃ c cs, t = c :: cs ∧ startsNumber c = true := by
  have hdigit : ∀ {ds more : List Char}, ds ≠ [] → ds.all Char.isDigit = true →
      ∃ c cs, ds ++ more = c :: cs ∧ startsNumber c = true := by
    intro ds more hne hds
    cases ds with
    | nil => exact absurd rfl hne
    | cons d ds =>
      rw [List.all_cons, Bool.and_eq_true] at hds
      exact ⟨d, ds ++ more, rfl, by rw [startsNumber, hds.1]; rfl⟩
  cases h with
  | @point whole fraction exponent hwhole _ _ _ =>
    by_cases hne : whole = []
    · exact ⟨'.', fraction ++ exponent, by rw [hne]; rfl, rfl⟩
    · exact hdigit hne hwhole
  | exponent hwhole hne _ _ => exact hdigit hne hwhole

theorem run_specials_none {words : List String} {cs : List Char}
    (h : ∀ w ∈ words, (wholeWord w).run cs = none) :
    (words.foldr (fun w others => ((wholeWord w).as Number.decimal).orElse others)
      Reader.never).run cs = none := by
  induction words with
  | nil => rfl
  | cons w words ih =>
    rw [List.foldr_cons, Reader.run_orElse, Reader.run_as, h w List.mem_cons_self,
      ih fun w hw => h w (List.mem_cons_of_mem _ hw)]
    rfl

theorem run_specials {words : List String} {cs rest : List Char} {w : String} (hw : w ∈ words)
    (h : ∀ v ∈ words, v = w ∨ (wholeWord v).run cs = none)
    (hread : (wholeWord w).run cs = some ((), rest)) :
    (words.foldr (fun w others => ((wholeWord w).as Number.decimal).orElse others)
      Reader.never).run cs = some (.decimal, rest) := by
  induction words with
  | nil => cases hw
  | cons v words ih =>
    rw [List.foldr_cons, Reader.run_orElse, Reader.run_as]
    rcases h v List.mem_cons_self with rfl | hnone
    · rw [hread]
      rfl
    · rw [hnone, Option.map_none, Option.none_or]
      rcases List.mem_cons.mp hw with rfl | hw
      · cases hnone.symm.trans hread
      · exact ih hw fun u hu => h u (List.mem_cons_of_mem _ hu)

theorem specials_ne_empty : ∀ w ∈ specials, w ≠ "" := by decide

/-- No special number starts another one. -/
theorem specials_apart : ∀ v ∈ specials, ∀ w ∈ specials,
    v = w ∨ ¬ v.toList <+: w.toList ∧ ¬ w.toList <+: v.toList := by decide

theorem run_special {w : String} (hw : w ∈ specials) {rest : List Char} (hrest : Stops rest) :
    special.run (w.toList ++ rest) = some (.decimal, rest) := by
  refine run_specials hw ?_ (run_wholeWord_self (specials_ne_empty w hw) hrest)
  intro v hv
  refine (specials_apart v hv w hw).imp_right ?_
  rintro ⟨hvw, hwv⟩
  apply run_wholeWord_of_not_prefix (specials_ne_empty v hv)
  intro hprefix
  rcases List.prefix_or_prefix_of_prefix hprefix (List.prefix_append w.toList rest) with h | h
  · exact hvw h
  · exact hwv h

/-- What starts with a digit or a point behind a sign is no special number. -/
theorem run_special_none {sign : Option Sign} {s cs : List Char} {c : Char}
    (hs : SpellsSign sign s) (hc : startsNumber c = true) : special.run (s ++ c :: cs) = none := by
  have hi : c ≠ 'i' := by rintro rfl; cases hc
  have hN : c ≠ 'N' := by rintro rfl; cases hc
  have hplus : c ≠ '+' := by rintro rfl; cases hc
  have hminus : c ≠ '-' := by rintro rfl; cases hc
  apply run_specials_none
  intro w hw
  apply run_wholeWord_of_not_prefix (specials_ne_empty w hw)
  simp only [List.mem_cons, List.not_mem_nil, or_false] at hw
  rcases hw with rfl | rfl | rfl | rfl | rfl | rfl <;> cases hs <;>
    simp [List.cons_prefix_cons, hi.symm, hN.symm, hplus.symm, hminus.symm]

theorem run_number_unsigned {sign : Option Sign} {s cs : List Char} {c : Char}
    (hs : SpellsSign sign s) (hc : startsNumber c = true) :
    number.run (s ++ c :: cs) = (unsigned sign).run (c :: cs) := by
  rw [number, Reader.run_orElse, run_special_none hs hc, Option.none_or]
  cases hs with
  | none =>
    rw [List.nil_append]
    generalize hcs : c :: cs = whole
    unfold Reader.run
    dsimp only
    split
    · cases hcs
      cases hc
    · cases hcs
      cases hc
    · rfl
  | plus =>
    unfold Reader.run
    exact Option.map_map _ _ _
  | minus =>
    unfold Reader.run
    exact Option.map_map _ _ _

/-- A number is one of the special words, or starts with a digit or a point behind its sign. -/
theorem SpellsNumber.special_or_signed {v : Number} {t : List Char} (h : SpellsNumber v t) :
    (∃ w ∈ specials, v = .decimal ∧ t = w.toList) ∨
      ∃ sign s c cs, SpellsSign sign s ∧ t = s ++ c :: cs ∧ startsNumber c = true := by
  cases h with
  | @whole sign n s t hs hn _ =>
    obtain ⟨c, cs, rfl, hc⟩ := hn.head
    exact Or.inr ⟨sign, s, c, cs, hs, rfl, hc⟩
  | @decimal sign s t hs ht =>
    obtain ⟨c, cs, rfl, hc⟩ := ht.head
    exact Or.inr ⟨sign, s, c, cs, hs, rfl, hc⟩
  | special hw => exact Or.inl ⟨_, hw, rfl, rfl⟩

/-- **A number is read from each of its spellings.** -/
theorem run_number {v : Number} {t rest : List Char} (h : SpellsNumber v t) (hrest : Stops rest) :
    number.run (t ++ rest) = some (v, rest) := by
  cases h with
  | @whole sign n s t hs hn hsize =>
    have hread : (unsigned sign).run (t ++ rest) = some (.ofWhole sign n, rest) := by
      cases hn with
      | plain hdigits => exact run_unsigned_plain hdigits hsize hrest
      | @based mark base n t hmark hdigits =>
        -- The mark of the base is no digit.
        have hn : n ≤ maxSize sign := by
          simpa [not_digit_of_mem_baseMarks mark (mem_baseMarks hmark)] using hsize
        exact run_unsigned_based hmark hdigits hn hrest
    obtain ⟨c, cs, rfl, hc⟩ := hn.head
    rw [List.append_assoc, List.cons_append, run_number_unsigned hs hc]
    exact hread
  | @decimal sign s t hs ht =>
    obtain ⟨c, cs, rfl, hc⟩ := ht.head
    rw [List.append_assoc, List.cons_append, run_number_unsigned hs hc]
    exact run_unsigned_decimal ht hrest
  | special hw =>
    rw [number, Reader.run_orElse, run_special hw hrest]
    rfl

end Adventure.Record.Ron
