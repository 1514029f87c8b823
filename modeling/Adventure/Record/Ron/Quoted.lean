import Adventure.Record.Reader
import Adventure.Text.Decimal

/-!
Texts and characters in quotes, as they stand in RON: with escapes, or raw as in `r"..."`, where a
backslash is just that.
-/

namespace Adventure.Record.Ron

/-- The character that an escape stands for, and what is behind it. The backslash comes before. -/
def escape? : List Char → Option (Char × List Char)
  | 'u' :: '\x7b' :: rest =>
    let digits := rest.takeWhile (· ≠ '\x7d')
    match rest.dropWhile (· ≠ '\x7d') with
    | [] => none
    | _ :: behind =>
      if 1 ≤ digits.length ∧ digits.length ≤ 6 then
        match Decimal.valueIn? 16 digits with
        | some n => if n.isValidChar then some (Char.ofNat n, behind) else none
        | none => none
      else none
  | 'x' :: a :: b :: rest =>
    match Decimal.hexValue? a, Decimal.hexValue? b with
    | some m, some n => some (Char.ofNat (16 * m + n), rest)
    | _, _ => none
  | '\'' :: rest => some ('\'', rest)
  | '"' :: rest => some ('"', rest)
  | '\\' :: rest => some ('\\', rest)
  | 'n' :: rest => some ('\n', rest)
  | 'r' :: rest => some ('\r', rest)
  | 't' :: rest => some ('\t', rest)
  | '0' :: rest => some ('\x00', rest)
  | _ => none

theorem length_escape? {cs rest : List Char} {c : Char} (h : escape? cs = some (c, rest)) :
    rest.length < cs.length := by
  unfold escape? at h
  split at h
  · rename_i more
    have h₁ := (List.dropWhile_sublist (· ≠ '\x7d') (l := more)).length_le
    simp only at h
    split at h
    · simp at h
    · rename_i behind hb
      simp only [hb, List.length_cons] at h₁
      split at h
      · split at h
        · split at h
          · simp only [Option.some.injEq, Prod.mk.injEq] at h
            obtain ⟨-, rfl⟩ := h
            simp only [List.length_cons]
            omega
          · simp at h
        · simp at h
      · simp at h
  · split at h
    · simp only [Option.some.injEq, Prod.mk.injEq] at h
      obtain ⟨-, rfl⟩ := h
      simp only [List.length_cons]
      omega
    · simp at h
  all_goals first
    | simp at h; done
    | simp only [Option.some.injEq, Prod.mk.injEq] at h
      obtain ⟨-, rfl⟩ := h
      simp

/-- The characters of a text behind its opening quote, and what is behind its closing one. -/
def quoted? : List Char → Option (List Char × List Char)
  | [] => none
  | c :: rest =>
    if c = '"' then some ([], rest)
    else if c = '\\' then
      match _h : escape? rest with
      | some (e, behind) => (quoted? behind).map fun (cs, r) => (e :: cs, r)
      | none => none
    else (quoted? rest).map fun (cs, r) => (c :: cs, r)
termination_by cs => cs.length
decreasing_by
  · have := length_escape? _h
    simp only [List.length_cons]
    omega
  · simp

theorem length_quoted? {cs text rest : List Char} (h : quoted? cs = some (text, rest)) :
    rest.length < cs.length := by
  fun_induction quoted? cs generalizing text rest with
  | case1 => simp at h
  | case2 more =>
    simp only [Option.some.injEq, Prod.mk.injEq] at h
    obtain ⟨-, rfl⟩ := h
    simp
  | case3 more e behind he _ ih =>
    obtain ⟨⟨t, r⟩, ht, hr⟩ := Option.map_eq_some_iff.mp h
    simp only [Prod.mk.injEq] at hr
    obtain ⟨-, rfl⟩ := hr
    have := ih ht
    have := length_escape? he
    simp only [List.length_cons]
    omega
  | case4 => simp at h
  | case5 c more _ _ ih =>
    obtain ⟨⟨t, r⟩, ht, hr⟩ := Option.map_eq_some_iff.mp h
    simp only [Prod.mk.injEq] at hr
    obtain ⟨-, rfl⟩ := hr
    have := ih ht
    simp only [List.length_cons]
    omega

/-- A text, with escapes or raw. A raw text ends with as many number signs as it starts with. -/
def text : Reader String
  | '"' :: rest =>
    match h : quoted? rest with
    | some (cs, behind) => some ⟨String.ofList cs, behind, by
        have := length_quoted? h
        simp only [List.length_cons]
        omega⟩
    | none => none
  | 'r' :: rest =>
    let hashes := rest.takeWhile (· = '#')
    match h : rest.dropWhile (· = '#') with
    | '"' :: inside =>
      match hs : Text.splitAround? ('"' :: hashes) inside with
      | some (cs, behind) => some ⟨String.ofList cs, behind, by
          have h₁ := Text.length_splitAround? hs
          have h₂ := (List.dropWhile_sublist (· = '#') (l := rest)).length_le
          simp only [h, List.length_cons] at h₂ ⊢
          omega⟩
      | none => none
    | _ => none
  | _ => none

/-- A character between single quotes. -/
def char : Reader Char
  | '\'' :: '\\' :: rest =>
    match h : escape? rest with
    | some (c, '\'' :: behind) => some ⟨c, behind, by
        have := length_escape? h
        simp only [List.length_cons] at this ⊢
        omega⟩
    | _ => none
  | '\'' :: c :: '\'' :: rest =>
    if c = '\'' then none else some ⟨c, rest, by simp only [List.length_cons]; omega⟩
  | _ => none

end Adventure.Record.Ron
