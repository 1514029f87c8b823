import Adventure.Proofs.Record.Reader
import Adventure.Proofs.Text.Cuts
import Adventure.Proofs.Text.Decimal
import Adventure.Record.Ron.Quoted

/-!
The spellings of texts (`SpellsText`) and of single characters (`SpellsChar`) in RON, and that they
are read from each of them (`run_text`, `run_char`).
-/

namespace Adventure.Record.Ron

open Text

/-- The escapes of one character. The backslash comes before. -/
inductive SpellsEscape : Char → List Char → Prop where
  | mark {c e : Char} :
      (c, e) ∈ [('\'', '\''), ('"', '"'), ('\\', '\\'), ('\n', 'n'), ('\r', 'r'), ('\t', 't'),
        ('\x00', '0')] →
      SpellsEscape c [e]
  | byte {a b : Char} {m n : Nat} :
      Decimal.hexValue? a = some m → Decimal.hexValue? b = some n →
      SpellsEscape (Char.ofNat (16 * m + n)) ['x', a, b]
  | point {ds : List Char} {n : Nat} :
      1 ≤ ds.length → ds.length ≤ 6 → Decimal.valueIn? 16 ds = some n → n.isValidChar →
      SpellsEscape (Char.ofNat n) ('u' :: '\x7b' :: ds ++ ['\x7d'])

/-- The spellings of the inside of a text in quotes. -/
inductive SpellsInside : List Char → List Char → Prop where
  | nil : SpellsInside [] []
  | plain {c : Char} {cs t : List Char} : c ≠ '"' → c ≠ '\\' → SpellsInside cs t →
      SpellsInside (c :: cs) (c :: t)
  | escape {c : Char} {e cs t : List Char} : SpellsEscape c e → SpellsInside cs t →
      SpellsInside (c :: cs) ('\\' :: e ++ t)

/-- The spellings of a text: with escapes, or raw, with enough number signs around it that none of
its quotes can be taken for the last one. -/
inductive SpellsText : String → List Char → Prop where
  | quoted {s : String} {t : List Char} : SpellsInside s.toList t → SpellsText s ('"' :: t ++ ['"'])
  | raw {s : String} {hashes : List Char} : hashes.all (· = '#') = true →
      ¬ '"' :: hashes <:+: s.toList →
      SpellsText s ('r' :: hashes ++ '"' :: s.toList ++ '"' :: hashes)

/-- The spellings of a single character. -/
inductive SpellsChar : Char → List Char → Prop where
  | plain {c : Char} : c ≠ '\'' → c ≠ '\\' → SpellsChar c ['\'', c, '\'']
  | escape {c : Char} {e : List Char} : SpellsEscape c e →
      SpellsChar c ('\'' :: '\\' :: e ++ ['\''])

/-! ### Escapes -/

theorem escape?_append {c : Char} {e : List Char} (h : SpellsEscape c e) (rest : List Char) :
    escape? (e ++ rest) = some (c, rest) := by
  cases h with
  | mark hmem =>
    simp only [List.mem_cons, Prod.mk.injEq, List.not_mem_nil, or_false] at hmem
    rcases hmem with ⟨rfl, rfl⟩ | ⟨rfl, rfl⟩ | ⟨rfl, rfl⟩ | ⟨rfl, rfl⟩ | ⟨rfl, rfl⟩ | ⟨rfl, rfl⟩ |
      ⟨rfl, rfl⟩ <;> rfl
  | byte ha hb =>
    rw [List.cons_append, List.cons_append, List.singleton_append, escape?]
    simp only [ha, hb]
  | @point ds n hmin hmax hvalue hvalid =>
    have hall : ds.all (· ≠ '\x7d') = true := by
      rw [List.all_eq_true]
      intro c hc
      rw [decide_eq_true_eq]
      rintro rfl
      obtain ⟨d, hd, -⟩ := Decimal.hexValue?_of_mem hvalue hc
      cases hd
    have hstop : ∀ c ∈ ('\x7d' :: rest).head?, decide (c ≠ '\x7d') = false := by
      intro c hc
      cases hc
      rfl
    rw [List.append_assoc, List.singleton_append, List.cons_append, List.cons_append, escape?]
    simp only [takeWhile_run hall hstop, dropWhile_run hall hstop, hmin, hmax, hvalue, hvalid,
      and_self, if_true]

/-! ### Texts -/

theorem quoted?_append {cs t : List Char} (h : SpellsInside cs t) (rest : List Char) :
    quoted? (t ++ '"' :: rest) = some (cs, rest) := by
  induction h with
  | nil => rw [List.nil_append, quoted?, if_pos rfl]
  | plain hquote hslash _ ih =>
    rw [List.cons_append, quoted?, if_neg hquote, if_neg hslash, ih]
    rfl
  | @escape c e cs t he _ ih =>
    rw [List.cons_append, List.cons_append, List.append_assoc, quoted?, if_neg (by decide),
      if_pos rfl]
    split
    · rename_i e' behind h
      rw [escape?_append he] at h
      cases h
      rw [ih]
      rfl
    · rename_i h
      rw [escape?_append he] at h
      cases h

theorem rawText_append (hashes inside rest : List Char) :
    'r' :: hashes ++ '"' :: inside ++ '"' :: hashes ++ rest =
      'r' :: (hashes ++ '"' :: (inside ++ ('"' :: hashes ++ rest))) := by
  simp

/-- **A text is read from each of its spellings.** -/
theorem run_text {s : String} {t : List Char} (h : SpellsText s t) (rest : List Char) :
    text.run (t ++ rest) = some (s, rest) := by
  cases h with
  | @quoted t ht =>
    have hread := quoted?_append ht rest
    rw [List.cons_append, List.cons_append, List.append_assoc, List.singleton_append, Reader.run,
      text]
    split
    · rename_i cs behind h
      cases hread.symm.trans h
      rw [Option.map_some, String.ofList_toList]
    · rename_i h
      cases hread.symm.trans h
  | @raw hashes hall hinside =>
    have hstop : ∀ c ∈ ('"' :: (s.toList ++ ('"' :: hashes ++ rest))).head?,
        decide (c = '#') = false := by
      intro c hc
      cases hc
      rfl
    have hquote : '"' ∉ hashes := by
      intro hmem
      exact absurd (List.all_eq_true.mp hall '"' hmem) (by decide)
    have hcut := splitAround?_append hquote hinside rest
    rw [rawText_append, Reader.run, text]
    split
    · rename_i inside hinside
      rw [dropWhile_run hall hstop] at hinside
      cases hinside
      split
      · rename_i cs behind h
        rw [takeWhile_run hall hstop, hcut] at h
        cases h
        rw [Option.map_some, String.ofList_toList]
      · rename_i h
        rw [takeWhile_run hall hstop, hcut] at h
        cases h
    · rename_i hnot
      exact absurd (dropWhile_run hall hstop) (hnot _)

/-- **A character is read from each of its spellings.** -/
theorem run_char {c : Char} {t : List Char} (h : SpellsChar c t) (rest : List Char) :
    char.run (t ++ rest) = some (c, rest) := by
  cases h with
  | plain hquote hslash =>
    rw [List.cons_append, List.cons_append, List.singleton_append, Reader.run, char]
    · rw [if_neg hquote]
      rfl
    · exact fun h => absurd h hslash
  | @escape e he =>
    have hread := escape?_append he ('\'' :: rest)
    rw [List.append_assoc, List.singleton_append, List.cons_append, List.cons_append, Reader.run,
      char]
    split
    · rename_i d behind h
      cases hread.symm.trans h
      rfl
    · rename_i hnot
      exact absurd hread (hnot _ _)

end Adventure.Record.Ron
