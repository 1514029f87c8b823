import Adventure.Proofs.Condition.Lexeme
import Adventure.Proofs.Text.Decimal
import Adventure.Proofs.Text.Lowercase

/-!
The grammar of the words of a condition. A script is cut into blanks and lexemes (`Cut`): signs, names
in quotation marks, numbers, and words that are looked up in lower case. A number may not be followed
by a further digit, nor a word by a further character of words.

Scanning gives some tokens exactly where the script can be cut into lexemes that spell them
(`scan_eq_ok_iff`). So what a script spells is never open to doubt.
-/

namespace Adventure.Condition

/-! ### The grammar -/

/-- The signs and the tokens that they spell. -/
def signs : List (List Char × Token) :=
  [(['('], .openParen), ([')'], .closeParen), ([','], .comma), (['>'], .comparison .greater),
    (['<'], .comparison .less), (['='], .comparison .equal), (['!', '='], .comparison .unequal)]

/-- The words in lower case and the tokens that they spell, all names of stats among them. -/
def keywords : List (String × Token) :=
  Token.words ++ Stat.words.map fun (word, s) => (word, .stat s)

/-- The ways to cut a script into blanks and lexemes, with the tokens that the lexemes spell. -/
inductive Cut : List Char → List Token → Prop where
  | nothing : Cut [] []
  | blank {c : Char} {rest : List Char} {ts : List Token} (hc : Text.isBlank c = true)
    (h : Cut rest ts) : Cut (c :: rest) ts
  | sign {sign rest : List Char} {t : Token} {ts : List Token} (ht : (sign, t) ∈ signs)
    (h : Cut rest ts) : Cut (sign ++ rest) (t :: ts)
  | quote {name rest : List Char} {ts : List Token} (hname : '"' ∉ name) (h : Cut rest ts) :
    Cut ('"' :: name ++ '"' :: rest) (.quote (String.ofList name) :: ts)
  /-- Digits in a row are one number, which must be a score. -/
  | number {digits rest : List Char} {n : Score} {ts : List Token} (hne : digits ≠ [])
    (hdigits : ∀ d ∈ digits, d.isDigit = true) (hn : n.val = Decimal.value digits)
    (hend : ∀ c ∈ rest.head?, c.isDigit = false) (h : Cut rest ts) :
    Cut (digits ++ rest) (.number n :: ts)
  | negative {digits rest : List Char} {n : Score} {ts : List Token} (hne : digits ≠ [])
    (hdigits : ∀ d ∈ digits, d.isDigit = true) (hn : n.val = -Decimal.value digits)
    (hend : ∀ c ∈ rest.head?, c.isDigit = false) (h : Cut rest ts) :
    Cut ('-' :: digits ++ rest) (.number n :: ts)
  /-- Characters of words in a row are one word, which must start with a letter. -/
  | word {first : Char} {others rest : List Char} {t : Token} {ts : List Token}
    (hfirst : Text.isLetter first = true) (hothers : ∀ c ∈ others, isWordChar c = true)
    (ht : (String.ofList (Text.lowercase (first :: others)), t) ∈ keywords)
    (hend : ∀ c ∈ rest.head?, isWordChar c = false) (h : Cut rest ts) :
    Cut (first :: others ++ rest) (t :: ts)

/-! ### Signs, numbers and words -/

theorem mem_signs_of_symbol? {c : Char} {t : Token} (h : symbol? c = some t) : ([c], t) ∈ signs := by
  unfold symbol? at h
  split at h <;> cases h <;> decide

/-- Every sign is a lexeme of the token that it spells, and nothing makes it longer. -/
theorem lexeme_of_mem_signs {sign : List Char} {t : Token} (h : (sign, t) ∈ signs) :
    Lexeme t sign ∧ ∀ c, t.goesOnWith c = false := by
  have hsigns : ∀ p ∈ signs, Lexeme p.2 p.1 ∧ ∀ c, p.2.goesOnWith c = false := by
    simp only [signs, List.forall_mem_cons]
    refine ⟨⟨.symbol rfl, fun _ => rfl⟩, ⟨.symbol rfl, fun _ => rfl⟩, ⟨.symbol rfl, fun _ => rfl⟩,
      ⟨.symbol rfl, fun _ => rfl⟩, ⟨.symbol rfl, fun _ => rfl⟩, ⟨.symbol rfl, fun _ => rfl⟩,
      ⟨.unequal, fun _ => rfl⟩, List.forall_mem_nil _⟩
  exact hsigns _ h

theorem ofWord?_of_mem_keywords {word : String} {t : Token} (h : (word, t) ∈ keywords) :
    Token.ofWord? word = some t := by
  have hkeywords : ∀ p ∈ keywords, Token.ofWord? p.1 = some p.2 := by decide
  exact hkeywords _ h

/-- A word without capitals that stands for a token is in the table. -/
theorem mem_keywords_of_ofWord? {word : List Char} {t : Token}
    (hsmall : Text.asciiLower word = word) (h : Token.ofWord? (String.ofList word) = some t) :
    (String.ofList word, t) ∈ keywords := by
  rw [Token.ofWord?, Option.or_eq_some_iff] at h
  rcases h with h | ⟨-, h⟩
  · obtain ⟨front, behind, hsplit, -⟩ := List.lookup_eq_some_iff.mp h
    exact List.mem_append_left _ (hsplit ▸ List.mem_append_right front List.mem_cons_self)
  · obtain ⟨s, hs, rfl⟩ := Option.map_eq_some_iff.mp h
    rw [Stat.ofWord?, String.toList_ofList, hsmall] at hs
    obtain ⟨front, behind, hsplit, -⟩ := List.lookup_eq_some_iff.mp hs
    exact List.mem_append_right _ (List.mem_map.mpr
      ⟨_, hsplit ▸ List.mem_append_right front List.mem_cons_self, rfl⟩)

/-- A word that can be read stands for a token of the table. -/
theorem mem_keywords_of_readWord {word : List Char} {t : Token} (h : readWord word = .ok t) :
    (String.ofList (Text.lowercase word), t) ∈ keywords := by
  rw [readWord] at h
  split at h
  · rename_i u hu
    cases h
    exact mem_keywords_of_ofWord? (Text.asciiLower_lowercase word) hu
  · cases h

/-- A number that can be read is a score. -/
theorem exists_of_readNumber {position : Nat} {digits : List Char} {t : Token}
    (h : readNumber position digits = .ok t) :
    ∃ n : Score, t = .number n ∧ Decimal.read? digits = some n.val := by
  rw [readNumber] at h
  split at h
  · rename_i n hn
    cases h
    obtain ⟨i, hi, hscore⟩ := Option.bind_eq_some_iff.mp hn
    exact ⟨n, rfl, hi.trans (congrArg some (Score.ofInt?_eq_some_iff.mp hscore).symm)⟩
  · cases h

/-! ### What is scanned can be cut -/

/-- Where one step after another succeeds, each of them does. -/
theorem exists_of_bind_eq_ok {α β : Type} {x : Except Error α} {f : α → Except Error β} {b : β}
    (h : x >>= f = .ok b) : ∃ a, x = .ok a ∧ f a = .ok b := by
  cases x with
  | error e => cases h
  | ok a => exact ⟨a, rfl, h⟩

/-- A row of digits, perhaps behind a minus sign, that can be read as a number is cut off. -/
theorem Cut.of_readNumber {position : Nat} {c : Char} {digits rest : List Char} {t : Token}
    {ts : List Token} (hc : c.isDigit = true ∨ c = '-') (hdigits : ∀ d ∈ digits, d.isDigit = true)
    (ht : readNumber position (c :: digits) = .ok t) (hend : ∀ c ∈ rest.head?, c.isDigit = false)
    (h : Cut rest ts) : Cut (c :: digits ++ rest) (t :: ts) := by
  obtain ⟨n, rfl, hn⟩ := exists_of_readNumber ht
  rcases hc with hc | rfl
  · have hall : ∀ d ∈ c :: digits, d.isDigit = true := List.forall_mem_cons.mpr ⟨hc, hdigits⟩
    rw [Decimal.read?_of_digits (List.cons_ne_nil _ _) (List.all_eq_true.mpr hall)] at hn
    exact .number (List.cons_ne_nil _ _) hall (Option.some.inj hn).symm hend h
  · rw [Decimal.read?] at hn
    split at hn
    · rename_i hne
      exact .negative hne.1 hdigits (Option.some.inj hn).symm hend h
    · cases hn

/-- **What is scanned can be cut.** -/
theorem cut_of_scanFrom {position : Nat} {cs : List Char} {ts : List Token}
    (h : scanFrom position cs = .ok ts) : Cut cs ts := by
  fun_induction scanFrom position cs generalizing ts with
  | case1 =>
    cases h
    exact .nothing
  | case2 position c rest hc ih => exact .blank hc (ih h)
  | case3 position c rest hblank hc lexeme =>
    rename_i ih
    obtain ⟨t, ht, h⟩ := exists_of_bind_eq_ok h
    obtain ⟨us, hus, h⟩ := exists_of_bind_eq_ok h
    cases h
    rw [Bool.or_eq_true, decide_eq_true_eq] at hc
    have hdigits := List.all_eq_true.mp (List.all_takeWhile (p := Char.isDigit) (l := rest))
    have hcut := Cut.of_readNumber hc hdigits ht Text.head?_dropWhile (ih hus)
    rwa [List.cons_append, List.takeWhile_append_dropWhile] at hcut
  | case4 position c rest hblank hnumber hc lexeme =>
    rename_i ih
    obtain ⟨t, ht, h⟩ := exists_of_bind_eq_ok h
    obtain ⟨us, hus, h⟩ := exists_of_bind_eq_ok h
    cases h
    have hothers := List.all_eq_true.mp (List.all_takeWhile (p := isWordChar) (l := rest))
    have hcut := Cut.word hc hothers (mem_keywords_of_readWord ht) Text.head?_dropWhile (ih hus)
    rwa [List.cons_append, List.takeWhile_append_dropWhile] at hcut
  | case5 => cases h
  | case6 position rest name first behind hbehind hblank hnumber hletter =>
    rename_i ih
    obtain ⟨us, hus, h⟩ := exists_of_bind_eq_ok h
    cases h
    have hcut := Cut.quote (not_mem_quoted rest) (ih hus)
    rwa [List.cons_append, quoted_append hbehind] at hcut
  | case7 position behind _ _ _ _ ih =>
    obtain ⟨us, hus, h⟩ := exists_of_bind_eq_ok h
    cases h
    exact .sign (by decide : (['!', '='], _) ∈ signs) (ih hus)
  | case8 => cases h
  | case9 position c rest hblank hnumber hletter hquote hbang t ht ih =>
    obtain ⟨us, hus, h⟩ := exists_of_bind_eq_ok h
    cases h
    exact .sign (mem_signs_of_symbol? ht) (ih hus)
  | case10 => cases h

/-! ### What can be cut is scanned -/

theorem lexeme_number {digits : List Char} {n : Score} (hne : digits ≠ [])
    (hdigits : ∀ d ∈ digits, d.isDigit = true) (hn : n.val = Decimal.value digits) :
    Lexeme (.number n) digits := by
  have hread := Decimal.read?_of_digits hne (List.all_eq_true.mpr hdigits)
  obtain ⟨c, ds, rfl⟩ := List.exists_cons_of_ne_nil hne
  obtain ⟨hc, hds⟩ := List.forall_mem_cons.mp hdigits
  exact .number (Or.inl hc) (List.all_eq_true.mpr hds) (hn ▸ hread)

theorem lexeme_negative {digits : List Char} {n : Score} (hne : digits ≠ [])
    (hdigits : ∀ d ∈ digits, d.isDigit = true) (hn : n.val = -Decimal.value digits) :
    Lexeme (.number n) ('-' :: digits) := by
  have hall : digits.all Char.isDigit = true := List.all_eq_true.mpr hdigits
  have hread : Decimal.read? ('-' :: digits) = some n.val := by
    rw [Decimal.read?, if_pos ⟨hne, hall⟩, hn]
  exact .number (Or.inr rfl) hall hread

/-- **What can be cut is scanned.** -/
theorem scanFrom_of_cut {cs : List Char} {ts : List Token} (h : Cut cs ts) (position : Nat) :
    scanFrom position cs = .ok ts := by
  induction h generalizing position with
  | nothing => rw [scanFrom]
  | blank hc h ih => rw [scanFrom_blank hc, ih]
  | sign ht h ih =>
    obtain ⟨hlexeme, hend⟩ := lexeme_of_mem_signs ht
    rw [scanFrom_lexeme hlexeme (fun c _ => hend c), ih]
    rfl
  | @quote name rest ts hname h ih =>
    have hend : ∀ c ∈ rest.head?, (Token.quote (String.ofList name)).goesOnWith c = false :=
      fun _ _ => rfl
    have hscan := scanFrom_lexeme (.quote hname) hend position
    rw [ih, List.append_assoc] at hscan
    exact hscan
  | number hne hdigits hn hend h ih =>
    rw [scanFrom_lexeme (lexeme_number hne hdigits hn) hend, ih]
    rfl
  | negative hne hdigits hn hend h ih =>
    rw [scanFrom_lexeme (lexeme_negative hne hdigits hn) hend, ih]
    rfl
  | word hfirst hothers ht hend h ih =>
    have hlexeme := Lexeme.word hfirst (List.all_eq_true.mpr hothers) (ofWord?_of_mem_keywords ht)
    have hword := goesOnWith_of_ofWord? (ofWord?_of_mem_keywords ht)
    rw [scanFrom_lexeme hlexeme (hword ▸ hend), ih]
    rfl

/-- **Scanning accepts exactly the grammar.** The tokens of a script are some tokens exactly if the
script can be cut into blanks and lexemes that spell these tokens in order, where no number is
directly followed by a digit and no word by a character of words. -/
theorem scan_eq_ok_iff (script : String) (ts : List Token) :
    Token.scan script = .ok ts ↔ Cut script.toList ts := by
  constructor
  · intro h
    exact cut_of_scanFrom h
  · intro h
    exact scanFrom_of_cut h 0

/-- Lexemes may touch: a sign ends a word, and a hyphen behind a sign starts a number. -/
example : (Token.scan "STR>-5(not)").toOption = some [.stat .strength, .comparison .greater,
    .number ⟨-5, by decide, by decide⟩, .openParen, .notWord, .closeParen] := by
  decide +kernel

end Adventure.Condition
