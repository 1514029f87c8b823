import Adventure.Condition.Token.Scan
import Adventure.Proofs.Text.Letter
import Adventure.Proofs.Text.Runs

/-!
The lexemes of a condition, and how they are scanned.

A `Lexeme` of a token is a piece of text that spells it. Scanning takes the lexeme at the front as
long as it goes: the text behind a word must not start with a character of words, and the text behind
a number must not start with a digit (`Token.goesOnWith`). Then the token comes out, and scanning goes
on behind the lexeme (`scanFrom_lexeme`).
-/

namespace Adventure.Condition

/-- The characters that the lexeme of a token would go on with. -/
def Token.goesOnWith : Token → Char → Bool
  | .number _ => Char.isDigit
  | .stat _ | .connective _ | .scope _ | .hasWord | .notWord | .traitWord => isWordChar
  | .quote _ | .comparison _ | .openParen | .closeParen | .comma | .phrase _ => fun _ => false

/-- What spells a token. -/
inductive Lexeme : Token → List Char → Prop where
  | symbol {c : Char} {t : Token} (h : symbol? c = some t) : Lexeme t [c]
  | unequal : Lexeme (.comparison .unequal) ['!', '=']
  | quote {text : List Char} (h : '"' ∉ text) :
    Lexeme (.quote (String.ofList text)) ('"' :: text ++ ['"'])
  | number {c : Char} {ds : List Char} {n : Score} (hc : c.isDigit = true ∨ c = '-')
    (hds : ds.all Char.isDigit = true) (h : Decimal.read? (c :: ds) = some n.val) :
    Lexeme (.number n) (c :: ds)
  | word {c : Char} {cs : List Char} {t : Token} (hc : Text.isLetter c = true)
    (hcs : cs.all isWordChar = true)
    (h : Token.ofWord? (String.ofList (Text.lowercase (c :: cs))) = some t) : Lexeme t (c :: cs)

/-! ### The parts of a lexeme -/

/-- The quotes around a text are a byte each. -/
theorem byteLength_quoted (text : List Char) :
    byteLength ('"' :: (text ++ ['"'])) = byteLength text + 2 := by
  have hq : '"'.utf8Size = 1 := rfl
  induction text with
  | nil => rfl
  | cons c text ih =>
    simp only [byteLength, List.cons_append, List.map_cons, List.foldr_cons, hq] at ih ⊢
    omega

/-- A quoted name holds no quotation mark. -/
theorem not_mem_quoted (cs : List Char) : '"' ∉ cs.takeWhile (· ≠ '"') := by
  intro hmem
  exact absurd (List.all_eq_true.mp List.all_takeWhile _ hmem) (by decide)

/-- What stops a quoted name is the closing quotation mark. -/
theorem quoted_append {cs behind : List Char} {d : Char}
    (h : cs.dropWhile (· ≠ '"') = d :: behind) : cs.takeWhile (· ≠ '"') ++ '"' :: behind = cs := by
  have hd : d = '"' := by
    have hstop : decide (d ≠ '"') = false := Text.head?_dropWhile d (by rw [h]; rfl)
    simpa using hstop
  subst hd
  rw [← h, List.takeWhile_append_dropWhile]

/-- A character that starts a word starts no number. -/
theorem isDigit_of_isLetter {c : Char} (h : Text.isLetter c = true) :
    c.isDigit = false ∧ c ≠ '-' := by
  have hl := Text.le_of_isLetter h
  constructor
  · cases hd : c.isDigit with
    | false => rfl
    | true =>
      have hn := (Text.toNat_of_isDigit hd).2
      omega
  · rintro rfl
    exact absurd hl (by decide)

/-- A symbol starts none of the longer lexemes. -/
theorem starts_of_symbol? {c : Char} {t : Token} (h : symbol? c = some t) :
    Text.isBlank c = false ∧ c.isDigit = false ∧ c ≠ '-' ∧ Text.isLetter c = false ∧ c ≠ '"' ∧
      c ≠ '!' := by
  unfold symbol? at h
  split at h <;> first | decide | cases h

/-- Words stand for tokens whose lexemes go on with the characters of words. -/
theorem goesOnWith_of_ofWord? {word : String} {t : Token} (h : Token.ofWord? word = some t) :
    t.goesOnWith = isWordChar := by
  have hwords : ∀ p ∈ Token.words, p.2.goesOnWith = isWordChar := by
    simp [Token.words, Token.goesOnWith]
  rw [Token.ofWord?, Option.or_eq_some_iff] at h
  rcases h with h | ⟨-, h⟩
  · obtain ⟨front, behind, hsplit, -⟩ := List.lookup_eq_some_iff.mp h
    exact hwords (_, t) (hsplit ▸ List.mem_append_right front List.mem_cons_self)
  · obtain ⟨s, -, rfl⟩ := Option.map_eq_some_iff.mp h
    rfl

/-! ### Scanning -/

section Front

variable {c : Char} {rest : List Char}

/-- Blanks are passed over. -/
theorem scanFrom_blank (h : Text.isBlank c = true) (position : Nat) :
    scanFrom position (c :: rest) = scanFrom (position + c.utf8Size) rest := by
  conv => lhs; unfold scanFrom
  exact if_pos h

theorem scanFrom_symbol {t : Token} (h : symbol? c = some t) (position : Nat) :
    scanFrom position (c :: rest) =
      (do return t :: (← scanFrom (position + c.utf8Size) rest)) := by
  obtain ⟨hblank, hdigit, hminus, hletter, hquote, hbang⟩ := starts_of_symbol? h
  conv => lhs; unfold scanFrom
  simp [hblank, hdigit, hminus, hletter, hquote, hbang, h]

theorem scanFrom_number (hc : c.isDigit = true ∨ c = '-') (position : Nat) :
    scanFrom position (c :: rest) = (do
      let token ← readNumber position (c :: rest.takeWhile Char.isDigit)
      return token :: (← scanFrom (position + byteLength (c :: rest.takeWhile Char.isDigit))
        (rest.dropWhile Char.isDigit))) := by
  have hblank : ¬Text.isBlank c = true := by simp [Text.isBlank_of_isDigit hc]
  conv => lhs; unfold scanFrom
  rw [if_neg hblank, if_pos (by simpa using hc)]

theorem scanFrom_word (hc : Text.isLetter c = true) (position : Nat) :
    scanFrom position (c :: rest) = (do
      let token ← readWord (c :: rest.takeWhile isWordChar)
      return token :: (← scanFrom (position + byteLength (c :: rest.takeWhile isWordChar))
        (rest.dropWhile isWordChar))) := by
  obtain ⟨hdigit, hminus⟩ := isDigit_of_isLetter hc
  conv => lhs; unfold scanFrom
  rw [if_neg (by simp [Text.isBlank_of_isLetter hc]), if_neg (by simp [hdigit, hminus]), if_pos hc]

/-- A name in quotation marks must be closed. -/
theorem scanFrom_unclosed (h : rest.dropWhile (· ≠ '"') = []) (position : Nat) :
    scanFrom position ('"' :: rest) = .error (.unclosedQuote position) := by
  conv => lhs; unfold scanFrom
  rw [if_neg (by decide), if_neg (by decide), if_neg (by decide), if_pos rfl]
  split
  · rfl
  · rename_i hcons
    rw [h] at hcons
    cases hcons

theorem scanFrom_quote {d : Char} {behind : List Char}
    (h : rest.dropWhile (· ≠ '"') = d :: behind) (position : Nat) :
    scanFrom position ('"' :: rest) = (do
      return .quote (String.ofList (rest.takeWhile (· ≠ '"'))) ::
        (← scanFrom (position + byteLength (rest.takeWhile (· ≠ '"')) + 2) behind)) := by
  conv => lhs; unfold scanFrom
  rw [if_neg (by decide), if_neg (by decide), if_neg (by decide), if_pos rfl]
  split
  · rename_i hnil
    rw [h] at hnil
    cases hnil
  · rename_i hcons
    rw [h] at hcons
    cases hcons
    rfl

theorem scanFrom_unequal (position : Nat) (behind : List Char) :
    scanFrom position ('!' :: '=' :: behind) =
      (do return .comparison .unequal :: (← scanFrom (position + 2) behind)) := by
  conv => lhs; unfold scanFrom
  rfl

/-- An exclamation mark must be followed by an equals sign. -/
theorem scanFrom_loneBang (h : ∀ behind, rest = '=' :: behind → False) (position : Nat) :
    scanFrom position ('!' :: rest) = .error (.loneBang position) := by
  conv => lhs; unfold scanFrom
  rw [if_neg (by decide), if_neg (by decide), if_neg (by decide), if_neg (by decide), if_pos rfl]
  split
  · exact (h _ rfl).elim
  · rfl

end Front

/-- **Scanning takes the lexeme at the front**, when the text behind it does not make it longer. -/
theorem scanFrom_lexeme {t : Token} {lexeme rest : List Char} (h : Lexeme t lexeme)
    (hrest : ∀ c ∈ rest.head?, t.goesOnWith c = false) (position : Nat) :
    scanFrom position (lexeme ++ rest) =
      (do return t :: (← scanFrom (position + byteLength lexeme) rest)) := by
  cases h with
  | symbol h => exact scanFrom_symbol h position
  | unequal => exact scanFrom_unequal position rest
  | @quote text h =>
    have htext : text.all (· ≠ '"') = true := by
      simpa [List.all_eq_true] using fun c hc (heq : c = '"') => h (heq ▸ hc)
    have hquote : ∀ c ∈ ('"' :: rest).head?, decide (c ≠ '"') = false := by simp
    have hdrop := Text.dropWhile_run htext hquote
    rw [List.cons_append, List.cons_append, List.append_assoc, List.singleton_append,
      scanFrom_quote hdrop, Text.takeWhile_run htext hquote, byteLength_quoted, Nat.add_assoc]
  | number hc hds h =>
    rw [List.cons_append, scanFrom_number hc, Text.takeWhile_run hds hrest,
      Text.dropWhile_run hds hrest, readNumber, h, Option.bind_some, Score.ofInt?_val]
    rfl
  | word hc hcs h =>
    rw [goesOnWith_of_ofWord? h] at hrest
    rw [List.cons_append, scanFrom_word hc, Text.takeWhile_run hcs hrest,
      Text.dropWhile_run hcs hrest, readWord, h]
    rfl

end Adventure.Condition
