import Mathlib.Data.List.TakeWhile
import Adventure.Effect.Line
import Adventure.Proofs.Text.Letter
import Adventure.Proofs.Text.Runs

/-!
The two searches of an effect line, for stat changes and for traits. Both go through a text in the
same way (`IsSearch`): they take what they find at the front, and else try again one character on. So
what a search does with a text is known from where something starts in it, and for both it is shown
here where nothing does and what is found where something is written.
-/

namespace Adventure.Effect

/-- A search that tries every place from the left and goes on behind what it finds. -/
structure IsSearch {α : Type} (find? : List Char → Option (α × List Char))
    (finds : List Char → List α) : Prop where
  at_end : find? [] = none
  step : ∀ c rest, finds (c :: rest) =
    match find? (c :: rest) with
    | some (find, behind) => find :: finds behind
    | none => finds rest

namespace IsSearch

variable {α : Type} {find? : List Char → Option (α × List Char)} {finds : List Char → List α}

theorem of_some (hs : IsSearch find? finds) {cs behind : List Char} {find : α}
    (h : find? cs = some (find, behind)) : finds cs = find :: finds behind := by
  cases cs with
  | nil => cases hs.at_end.symm.trans h
  | cons c rest => rw [hs.step, h]

theorem of_none (hs : IsSearch find? finds) {c : Char} {rest : List Char}
    (h : find? (c :: rest) = none) : finds (c :: rest) = finds rest := by
  rw [hs.step, h]

/-- Characters at which nothing starts are passed over. -/
theorem append (hs : IsSearch find? finds) {cs rest : List Char}
    (h : ∀ part, part <:+ cs → part ≠ [] → find? (part ++ rest) = none) :
    finds (cs ++ rest) = finds rest := by
  induction cs with
  | nil => rfl
  | cons c cs ih =>
    have hhead : find? (c :: (cs ++ rest)) = none := h (c :: cs) List.suffix_rfl (by simp)
    rw [List.cons_append, hs.of_none hhead]
    exact ih fun part hpart => h part (hpart.trans (List.suffix_cons c cs))

/-- Where nothing starts, nothing is found. -/
theorem eq_end (hs : IsSearch find? finds) {cs : List Char}
    (h : ∀ part, part <:+ cs → find? part = none) : finds cs = finds [] := by
  have hnone : ∀ part, part <:+ cs → part ≠ [] → find? (part ++ []) = none := by
    intro part hpart _
    rw [List.append_nil]
    exact h part hpart
  rw [← hs.append hnone, List.append_nil]

end IsSearch

/-- The search for stat changes. -/
theorem isSearch_statFinds : IsSearch statFind? statFinds where
  at_end := rfl
  step c rest := by
    rw [statFinds]
    split
    · rename_i h
      rw [h]
    · rename_i h
      rw [h]

/-- The search for traits. -/
theorem isSearch_traitFinds : IsSearch traitFind? traitFinds where
  at_end := rfl
  step c rest := by
    rw [traitFinds]
    split
    · rename_i h
      rw [h]
    · rename_i h
      rw [h]

/-! ### Signs and numbers -/

/-- The character that a sign is written as. -/
def Sign.char : Sign → Char
  | plus => '+'
  | minus => '-'
  | equals => '='

/-- Whether a text is a whole number: digits, perhaps behind a minus sign. -/
def IsNumber (value : List Char) : Prop :=
  ∃ minus ds, value = minus ++ ds ∧ (minus = [] ∨ minus = ['-']) ∧ ds ≠ [] ∧
    ds.all Char.isDigit = true

/-! ### Kinds of characters -/

theorem toNat_of_isAsciiLetter {c : Char} (h : isAsciiLetter c = true) :
    65 ≤ c.toNat ∧ c.toNat ≤ 90 ∨ 97 ≤ c.toNat ∧ c.toNat ≤ 122 := by
  unfold isAsciiLetter Char.isAlpha Char.isUpper Char.isLower at h
  simp only [Bool.or_eq_true, Bool.and_eq_true, decide_eq_true_eq, UInt32.le_iff_toNat_le,
    ge_iff_le] at h
  exact h

theorem isAsciiLetter_of_isDigit {c : Char} (h : c.isDigit = true) : isAsciiLetter c = false := by
  have hdigit := Text.toNat_of_isDigit h
  rw [← Bool.not_eq_true]
  intro hletter
  have := toNat_of_isAsciiLetter hletter
  omega

theorem isAsciiBlank_of_isAsciiLetter {c : Char} (h : isAsciiLetter c = true) :
    Text.isAsciiBlank c = false := by
  have hletter := toNat_of_isAsciiLetter h
  rw [Text.isAsciiBlank, Bool.or_eq_false_iff]
  constructor
  · rw [decide_eq_false_iff_not]
    rintro rfl
    exact absurd h (by decide)
  · rw [Bool.and_eq_false_iff, decide_eq_false_iff_not, decide_eq_false_iff_not]
    right
    omega

theorem isAsciiLetter_of_isAsciiBlank {c : Char} (h : Text.isAsciiBlank c = true) :
    isAsciiLetter c = false := by
  rw [← Bool.not_eq_true]
  intro hletter
  exact absurd (h.symm.trans (isAsciiBlank_of_isAsciiLetter hletter)) (by decide)

theorem isBlank_of_isAsciiLetter {c : Char} (h : isAsciiLetter c = true) :
    Text.isBlank c = false := by
  have hletter := toNat_of_isAsciiLetter h
  rw [← Bool.not_eq_true]
  intro hblank
  have hpoint := Text.mem_blankPoints hblank
  simp only [Text.blankPoints, List.mem_cons, List.not_mem_nil, or_false] at hpoint
  omega

/-- A word ends at blanks as at what stands behind them. -/
theorem not_letter_of_blanks {blanks : List Char} (h : blanks.all Text.isAsciiBlank = true) {c : Char}
    (hc : isAsciiLetter c = false) (rest : List Char) :
    ∀ c' ∈ (blanks ++ c :: rest).head?, isAsciiLetter c' = false := by
  intro c' hc'
  cases blanks with
  | nil =>
    cases hc'
    exact hc
  | cons b blanks =>
    cases hc'
    rw [List.all_cons, Bool.and_eq_true] at h
    exact isAsciiLetter_of_isAsciiBlank h.1

theorem Sign.ofChar?_char (s : Sign) : ofChar? s.char = some s := by cases s <;> rfl

theorem Sign.isAsciiLetter_char (s : Sign) : isAsciiLetter s.char = false := by cases s <;> rfl

theorem Sign.isAsciiBlank_char (s : Sign) : Text.isAsciiBlank s.char = false := by
  cases s <;> rfl

/-! ### The search for stat changes -/

/-- Without a sign behind the word there is no stat change. -/
theorem statFind?_of_no_sign {cs : List Char}
    (h : ∀ c ∈ ((cs.dropWhile isAsciiLetter).dropWhile Text.isAsciiBlank).head?,
      Sign.ofChar? c = none) : statFind? cs = none := by
  unfold statFind?
  simp only
  split
  · rfl
  · rename_i c behindSign hsign
    rw [hsign] at h
    rw [h c rfl]

/-- Without a word in front there is no stat change. -/
theorem statFind?_of_no_word {c : Char} (h : isAsciiLetter c = false) (rest : List Char) :
    statFind? (c :: rest) = none := by
  have hword : (c :: rest).takeWhile isAsciiLetter = [] :=
    List.takeWhile_cons_of_neg (by simp [h])
  unfold statFind?
  simp only [hword, true_or, if_true]
  split
  · rfl
  · split
    · rfl
    · rfl

/-- A plus sign before a quote makes no stat change. -/
theorem statFind?_of_quote {word : List Char} (hword : word.all isAsciiLetter = true)
    (rest : List Char) : statFind? (word ++ '+' :: '"' :: rest) = none := by
  have hplus : ∀ c ∈ ('+' :: '"' :: rest).head?, isAsciiLetter c = false := by
    intro c hc
    cases hc
    rfl
  have hdrop := Text.dropWhile_run hword hplus
  have hblank : ('+' :: '"' :: rest).dropWhile Text.isAsciiBlank = '+' :: '"' :: rest := rfl
  have hquote : ('"' :: rest).dropWhile Text.isAsciiBlank = '"' :: rest := rfl
  have hminus : ('"' :: rest).takeWhile (· = '-') = [] := rfl
  have hdigits : ('"' :: rest).takeWhile Char.isDigit = [] := rfl
  unfold statFind?
  simp only [hdrop, hblank, Sign.ofChar?, hquote, hminus, List.take_nil, List.length_nil,
    List.drop_zero, hdigits, or_true, if_true]

/-- A stat change is found where it is written, with blanks on either side of the sign or without. -/
theorem statFind?_stat {word before behind value : List Char} (hword : word ≠ [])
    (hall : word.all isAsciiLetter = true) (hbefore : before.all Text.isAsciiBlank = true)
    (sign : Sign) (hbehind : behind.all Text.isAsciiBlank = true) (hvalue : IsNumber value)
    {rest : List Char} (hrest : ∀ c ∈ rest.head?, c.isDigit = false) :
    statFind? (word ++ before ++ sign.char :: (behind ++ value) ++ rest) =
      some (⟨word, sign, value, word ++ before ++ sign.char :: (behind ++ value)⟩, rest) := by
  obtain ⟨minus, ds, rfl, hminus, hne, hds⟩ := hvalue
  obtain ⟨d, ds, rfl⟩ := List.exists_cons_of_ne_nil hne
  have hd : d.isDigit = true := by
    rw [List.all_cons, Bool.and_eq_true] at hds
    exact hds.1
  have hdash : d ≠ '-' := by
    rintro rfl
    exact absurd hd (by decide)
  let number := minus ++ d :: ds ++ rest
  have hletter := not_letter_of_blanks hbefore sign.isAsciiLetter_char (behind ++ number)
  have hsign : ∀ c ∈ (sign.char :: (behind ++ number)).head?, Text.isAsciiBlank c = false := by
    intro c hc
    cases hc
    exact sign.isAsciiBlank_char
  -- The number starts with its minus sign or its first digit.
  have hnumber : (∀ c ∈ number.head?, Text.isAsciiBlank c = false) ∧
      (number.takeWhile (· = '-')).take 1 = minus := by
    rcases hminus with rfl | rfl
    · simp [number, Text.isAsciiBlank_of_isDigit hd, hdash]
    · have hblank : Text.isAsciiBlank '-' = false := rfl
      simp [number, hblank, hdash]
  obtain ⟨hblank, hminus⟩ := hnumber
  have hdigits : number.drop minus.length = d :: ds ++ rest := by
    simp [number]
  have hassoc : word ++ before ++ sign.char :: (behind ++ (minus ++ d :: ds)) ++ rest =
      word ++ (before ++ sign.char :: (behind ++ number)) := by
    simp [number]
  rw [hassoc]
  unfold statFind?
  simp only [Text.takeWhile_run hall hletter, Text.dropWhile_run hall hletter,
    Text.takeWhile_run hbefore hsign, Text.dropWhile_run hbefore hsign, sign.ofChar?_char,
    Text.takeWhile_run hbehind hblank, Text.dropWhile_run hbehind hblank, hminus, hdigits,
    Text.takeWhile_run hds hrest, Text.dropWhile_run hds hrest]
  rw [if_neg (by simp [hword])]
  simp

/-! ### The search for traits -/

/-- Without a plus sign behind the word there is no trait. -/
theorem traitFind?_of_no_plus {cs : List Char}
    (h : ∀ c ∈ ((cs.dropWhile isAsciiLetter).dropWhile Text.isAsciiBlank).head?, c ≠ '+') :
    traitFind? cs = none := by
  unfold traitFind?
  split
  · rename_i behindSign hsign
    rw [hsign] at h
    exact absurd rfl (h '+' rfl)
  · rfl

/-- No trait starts at a character that is no letter, no blank and no plus sign. -/
theorem traitFind?_of_char {c : Char} (hletter : isAsciiLetter c = false)
    (hblank : Text.isAsciiBlank c = false) (hplus : c ≠ '+') (rest : List Char) :
    traitFind? (c :: rest) = none := by
  apply traitFind?_of_no_plus
  rw [List.dropWhile_cons_of_neg (by simp [hletter]), List.dropWhile_cons_of_neg (by simp [hblank])]
  intro c' hc'
  cases hc'
  exact hplus

/-- A name is cut at the quotation mark behind it. -/
theorem cut_name {name : List Char} (hname : '"' ∉ name) (rest : List Char) :
    (name ++ '"' :: rest).takeWhile (· ≠ '"') = name ∧
      (name ++ '"' :: rest).dropWhile (· ≠ '"') = '"' :: rest := by
  have hall : name.all (· ≠ '"') = true := by
    rw [List.all_eq_true]
    intro c hc
    rw [decide_eq_true_eq]
    rintro rfl
    exact hname hc
  have hquote : ∀ c ∈ ('"' :: rest).head?, decide (c ≠ '"') = false := by
    intro c hc
    cases hc
    rfl
  exact ⟨Text.takeWhile_run hall hquote, Text.dropWhile_run hall hquote⟩

/-- The name that the next quotation mark ends, and the text behind that mark. -/
def closedName? (cs : List Char) : Option (List Char × List Char) :=
  match cs.dropWhile (· ≠ '"') with
  | _ :: behind => some (cs.takeWhile (· ≠ '"'), behind)
  | [] => none

theorem closedName?_append {name : List Char} (hname : '"' ∉ name) (rest : List Char) :
    closedName? (name ++ '"' :: rest) = some (name, rest) := by
  obtain ⟨htake, hdrop⟩ := cut_name hname rest
  rw [closedName?, htake, hdrop]

theorem closedName?_of_no_quote {cs : List Char} (h : '"' ∉ cs) : closedName? cs = none := by
  have hdrop : cs.dropWhile (· ≠ '"') = [] := by
    rw [List.dropWhile_eq_nil_iff]
    intro c hc
    rw [decide_eq_true_eq]
    rintro rfl
    exact h hc
  rw [closedName?, hdrop]

/-- Whether a text is a word and a plus sign, perhaps with blanks behind each of them: what stands in
front of the name of a trait. The word may be missing. -/
def opensName (cs : List Char) : Bool :=
  match (cs.dropWhile isAsciiLetter).dropWhile Text.isAsciiBlank with
  | '+' :: blanks => blanks.all Text.isAsciiBlank
  | _ => false

/-- What comes to a character that is no letter, no blank and no plus sign goes on over it only to the
end of a name, where that character is a quotation mark and what stands before it opens a name. -/
theorem traitFind?_append_cons {c : Char} (hletter : isAsciiLetter c = false)
    (hblank : Text.isAsciiBlank c = false) (hplus : c ≠ '+') {cs : List Char} (hcs : '"' ∉ cs)
    (rest : List Char) :
    traitFind? (cs ++ c :: rest) =
      if c = '"' ∧ opensName cs then
        (closedName? rest).map fun closed => (⟨cs.takeWhile isAsciiLetter, closed.1⟩, closed.2)
      else none := by
  have hsuffix : (cs.dropWhile isAsciiLetter).dropWhile Text.isAsciiBlank <:+ cs :=
    (List.dropWhile_suffix _).trans (List.dropWhile_suffix _)
  unfold traitFind? opensName
  simp only [Text.dropWhile_append_cons hletter, Text.takeWhile_append_cons hletter,
    Text.dropWhile_append_cons hblank]
  generalize (cs.dropWhile isAsciiLetter).dropWhile Text.isAsciiBlank = left at hsuffix
  cases left with
  | nil => simp [hplus]
  | cons sign behindSign =>
    by_cases hsign : sign = '+'
    · subst hsign
      simp only [List.cons_append, Text.dropWhile_append_cons hblank]
      cases hbehind : behindSign.dropWhile Text.isAsciiBlank with
      | nil =>
        have hall : behindSign.all Text.isAsciiBlank = true :=
          List.all_eq_true.mpr (List.dropWhile_eq_nil_iff.mp hbehind)
        by_cases hquote : c = '"'
        · subst hquote
          cases hend : rest.dropWhile (· ≠ '"') <;>
            simp only [closedName?, List.nil_append, hall, and_self, if_true, hend, Option.map]
        · simp [hquote]
      | cons c' behind =>
        have hmem : c' ∈ behindSign.dropWhile Text.isAsciiBlank := hbehind ▸ List.mem_cons_self
        have hnot : behindSign.all Text.isAsciiBlank = false := by
          rw [← Bool.not_eq_true]
          intro hall
          rw [List.dropWhile_eq_nil_iff.mpr (List.all_eq_true.mp hall)] at hbehind
          cases hbehind
        have hne : c' ≠ '"' := by
          rintro rfl
          exact hcs (hsuffix.subset (List.mem_cons_of_mem _
            ((List.dropWhile_suffix _).subset hmem)))
        simp [hnot, hne]
    · simp [hsign]

/-- A trait is found where it is written, with blanks on either side of the plus sign or without. -/
theorem traitFind?_trait {scope before behind name : List Char}
    (hscope : scope.all isAsciiLetter = true) (hbefore : before.all Text.isAsciiBlank = true)
    (hbehind : behind.all Text.isAsciiBlank = true) (hname : '"' ∉ name) (rest : List Char) :
    traitFind? (scope ++ before ++ '+' :: (behind ++ '"' :: (name ++ '"' :: rest))) =
      some (⟨scope, name⟩, rest) := by
  have hletter : isAsciiLetter '+' = false := rfl
  have hplus : ∀ more : List Char, ∀ c ∈ ('+' :: more).head?, Text.isAsciiBlank c = false := by
    intro more c hc
    cases hc
    rfl
  have hquote : ∀ more : List Char, ∀ c ∈ ('"' :: more).head?, Text.isAsciiBlank c = false := by
    intro more c hc
    cases hc
    rfl
  obtain ⟨htake, hdrop⟩ := cut_name hname rest
  rw [List.append_assoc]
  unfold traitFind?
  simp only [Text.takeWhile_run hscope (not_letter_of_blanks hbefore hletter _),
    Text.dropWhile_run hscope (not_letter_of_blanks hbefore hletter _),
    Text.dropWhile_run hbefore (hplus _), Text.dropWhile_run hbehind (hquote _), htake, hdrop]

/-- No trait goes on over a character of a number. -/
theorem stop_of_mem_number {value : List Char} (h : IsNumber value) {c : Char} (hc : c ∈ value) :
    isAsciiLetter c = false ∧ Text.isAsciiBlank c = false ∧ c ≠ '+' ∧ c ≠ '"' := by
  obtain ⟨minus, ds, rfl, hminus, -, hds⟩ := h
  rcases List.mem_append.mp hc with hc | hc
  · have hdash : c = '-' := by
      rcases hminus with rfl | rfl
      · cases hc
      · exact List.mem_singleton.mp hc
    rw [hdash]
    decide
  · have hdigit := List.all_eq_true.mp hds c hc
    refine ⟨isAsciiLetter_of_isDigit hdigit, Text.isAsciiBlank_of_isDigit hdigit, ?_, ?_⟩
    · rintro rfl
      exact absurd hdigit (by decide)
    · rintro rfl
      exact absurd hdigit (by decide)

/-- Up to the end of a number there is no trait, where no quotation mark stands before it. -/
theorem traitFinds_number {front value : List Char} (hfront : '"' ∉ front) (h : IsNumber value)
    (rest : List Char) : traitFinds (front ++ value ++ rest) = traitFinds rest := by
  have hstop := fun {c} => stop_of_mem_number h (c := c)
  have hne : value ≠ [] := by
    obtain ⟨minus, ds, rfl, -, hds, -⟩ := h
    exact List.append_ne_nil_of_right_ne_nil minus hds
  obtain ⟨digits, last, rfl⟩ : ∃ digits last, value = digits ++ [last] :=
    ⟨_, _, (List.dropLast_concat_getLast hne).symm⟩
  have hlast := hstop (List.mem_append_right digits List.mem_cons_self)
  apply isSearch_traitFinds.append
  -- Every part ends with the last digit, which stops a trait that starts before it.
  intro part hpart hpartNe
  rw [← List.append_assoc] at hpart
  obtain ⟨before, rfl, hbefore⟩ := (List.suffix_concat_iff.mp hpart).resolve_left hpartNe
  have hquote : '"' ∉ before := by
    intro hmem
    rcases List.mem_append.mp (hbefore.subset hmem) with hmem | hmem
    · exact hfront hmem
    · exact (hstop (List.mem_append_left _ hmem)).2.2.2 rfl
  rw [List.append_assoc, List.singleton_append,
    traitFind?_append_cons hlast.1 hlast.2.1 hlast.2.2.1 hquote, if_neg]
  exact fun h => hlast.2.2.2 h.1

/-- Blanks do not matter to the search for stat changes. -/
theorem statFinds_blanks {blanks : List Char} (h : blanks.all Text.isAsciiBlank = true)
    (cs : List Char) : statFinds (blanks ++ cs) = statFinds cs := by
  induction blanks with
  | nil => rfl
  | cons b blanks ih =>
    rw [List.all_cons, Bool.and_eq_true] at h
    rw [List.cons_append, isSearch_statFinds.of_none
      (statFind?_of_no_word (isAsciiLetter_of_isAsciiBlank h.1) _), ih h.2]

/-- Blanks do not matter to the search for traits: a trait without a word in front may be found at
the blanks before it, but it is the same trait. -/
theorem traitFinds_blank {b : Char} (hb : Text.isAsciiBlank b = true) (cs : List Char) :
    traitFinds (b :: cs) = traitFinds cs := by
  have hletter : isAsciiLetter b = false := isAsciiLetter_of_isAsciiBlank hb
  cases cs with
  | nil => exact isSearch_traitFinds.of_none (traitFind?_of_no_plus (by simp [hletter, hb]))
  | cons c cs =>
    cases hc : isAsciiLetter c with
    | true =>
      apply isSearch_traitFinds.of_none
      apply traitFind?_of_no_plus
      rw [List.dropWhile_cons_of_neg (by simp [hletter]), List.dropWhile_cons_of_pos hb,
        List.dropWhile_cons_of_neg (by simp [isAsciiBlank_of_isAsciiLetter hc])]
      intro c' hc'
      cases hc'
      rintro rfl
      exact absurd hc (by decide)
    | false =>
      have hsame : traitFind? (b :: c :: cs) = traitFind? (c :: cs) := by
        simp [traitFind?, hletter, hb, hc]
      cases hfind : traitFind? (c :: cs) with
      | none => exact isSearch_traitFinds.of_none (hsame.trans hfind)
      | some found =>
        rw [isSearch_traitFinds.of_some hfind, isSearch_traitFinds.of_some (hsame.trans hfind)]

theorem traitFinds_blanks {blanks : List Char} (h : blanks.all Text.isAsciiBlank = true)
    (cs : List Char) : traitFinds (blanks ++ cs) = traitFinds cs := by
  induction blanks with
  | nil => rfl
  | cons b blanks ih =>
    rw [List.all_cons, Bool.and_eq_true] at h
    rw [List.cons_append, traitFinds_blank h.1, ih h.2]

end Adventure.Effect
