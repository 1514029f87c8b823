import Adventure.Condition.Token.Fold
import Adventure.Proofs.Condition.Lexeme
import Adventure.Proofs.Text.Decimal

/-!
Conditions in words.

A folded token is spelled out by the words that fold to it (`foldPhrases_spelledOut`), every word has
a spelling of its own, and a row of words is written with blanks between them (`scan_write`).
-/

namespace Adventure.Condition

/-! ### The words of folded tokens -/

/-- The words of a phrase. -/
def Phrase.words : Phrase → List Token
  | stat p => [.stat p.stat, .comparison p.comparison, .number p.number]
  | traits p =>
    .hasWord :: (if p.inverse then [.notWord] else []) ++ .traitWord :: p.traits.map .quote

namespace Token

/-- The words that a token is folded from. -/
def spelledOut : Token → List Token
  | phrase p => p.words
  | t => [t]

/-- Whether a token is one that folding leaves in a condition. A phrase about traits names one. -/
def IsFolded : Token → Prop
  | phrase (.traits p) => p.traits ≠ []
  | phrase (.stat _) | connective _ | scope _ | openParen | closeParen | comma => True
  | quote _ | number _ | stat _ | comparison _ | hasWord | notWord | traitWord => False

/-- Names are taken up to the first token that is none. -/
theorem takeNames_append (names : List String) {rest : List Token}
    (h : ∀ text, rest.head? ≠ some (quote text)) :
    takeNames (names.map quote ++ rest) = (names, rest) := by
  induction names with
  | nil =>
    cases rest with
    | nil => rfl
    | cons t rest =>
      cases t with
      | quote text => exact absurd rfl (h text)
      | _ => rfl
  | cons name names ih => simp [takeNames, ih]

/-- The words of a phrase are folded back. -/
theorem foldPhrases_words {p : Phrase} (hp : (phrase p).IsFolded) {rest : List Token}
    (h : ∀ text, rest.head? ≠ some (quote text)) :
    foldPhrases (p.words ++ rest) = (do return phrase p :: (← foldPhrases rest)) := by
  cases p with
  | stat p => simp [Phrase.words, foldPhrases]
  | traits p =>
    obtain ⟨inverse, names⟩ := p
    have hnames := takeNames_append names h
    -- The words differ by `not`, and are folded alike.
    cases inverse
    all_goals
      simp only [Phrase.words, Bool.false_eq_true, if_false, if_true, List.cons_append,
        List.nil_append]
      rw [foldPhrases]
      split
      · rename_i heq
        rw [hnames] at heq
        cases heq
        exact absurd rfl hp
      · rename_i heq
        rw [hnames] at heq
        cases heq
        rfl

/-- The words of a token are folded back, and all other tokens stay as they are. -/
theorem foldPhrases_append {t : Token} (ht : t.IsFolded) {rest : List Token}
    (h : ∀ text, rest.head? ≠ some (quote text)) :
    foldPhrases (t.spelledOut ++ rest) = (do return t :: (← foldPhrases rest)) := by
  cases t with
  | phrase p => exact foldPhrases_words ht h
  | connective c => simp [spelledOut, foldPhrases]
  | scope s => simp [spelledOut, foldPhrases]
  | openParen => simp [spelledOut, foldPhrases]
  | closeParen => simp [spelledOut, foldPhrases]
  | comma => simp [spelledOut, foldPhrases]
  | _ => exact ht.elim

/-- The words of a token do not start with a name. -/
theorem head?_spelledOut {t : Token} (h : t.IsFolded) (rest : List Token) (text : String) :
    (t.spelledOut ++ rest).head? ≠ some (quote text) := by
  cases t with
  | phrase p => cases p <;> nofun
  | quote text => exact h.elim
  | _ => nofun

/-- **Folding undoes spelling out.** -/
theorem foldPhrases_spelledOut {ts : List Token} (h : ∀ t ∈ ts, t.IsFolded) :
    foldPhrases (ts.flatMap spelledOut) = .ok ts := by
  induction ts with
  | nil => rw [List.flatMap_nil, foldPhrases]
  | cons t ts ih =>
    obtain ⟨ht, hts⟩ := List.forall_mem_cons.mp h
    have hhead : ∀ text, (ts.flatMap spelledOut).head? ≠ some (quote text) := by
      cases ts with
      | nil =>
        intro text htext
        cases htext
      | cons u us => exact head?_spelledOut (hts u List.mem_cons_self) _
    rw [List.flatMap_cons, foldPhrases_append ht hhead, ih hts]
    rfl

/-! ### The spelling of words -/

/-- How a word is spelled. A phrase is no word, and has no spelling but that of its words. -/
def spelling : Token → List Char
  | quote text => '"' :: text.toList ++ ['"']
  | number n => Decimal.signed n.val
  | stat s => s.fieldName.toList
  | connective c => c.word.toList
  | comparison c => c.symbol.toList
  | scope s => s.word.toList
  | openParen => ['(']
  | closeParen => [')']
  | comma => [',']
  | hasWord => "has".toList
  | notWord => "not".toList
  | traitWord => "trait".toList
  | phrase _ => []

/-- Whether a token is a word that can be written: a name holds no quotation mark. -/
def IsWord : Token → Prop
  | quote text => '"' ∉ text.toList
  | phrase _ => False
  | _ => True

/-- A word of small ASCII letters that stands for a token is a lexeme of it. -/
theorem lexeme_word {t : Token} (h : t.spelling ≠ [] ∧ t.spelling.all Char.isLower = true ∧
    ofWord? (String.ofList t.spelling) = some t) : Lexeme t t.spelling := by
  obtain ⟨hne, hsmall, h⟩ := h
  rw [← Text.lowercase_of_isLower hsmall] at h
  obtain ⟨c, cs, hcs⟩ := List.exists_cons_of_ne_nil hne
  rw [hcs] at h hsmall ⊢
  rw [List.all_cons, Bool.and_eq_true] at hsmall
  apply Lexeme.word (Text.isLetter_of_isLower hsmall.1) _ h
  rw [List.all_eq_true] at hsmall ⊢
  intro d hd
  simp [isWordChar, Text.isLetter_of_isLower (hsmall.2 d hd)]

/-- **The spelling of a word is a lexeme of it.** -/
theorem lexeme_spelling {t : Token} (h : t.IsWord) : Lexeme t t.spelling := by
  cases t with
  | quote text =>
    have hq := Lexeme.quote h
    rwa [String.ofList_toList] at hq
  | number n =>
    obtain ⟨c, ds, hn, hc, hds⟩ := Decimal.signed_eq_cons n.val
    have hread := Decimal.read?_signed n.val
    rw [spelling, hn]
    rw [hn] at hread
    exact .number hc hds hread
  | stat s => cases s <;> exact lexeme_word (by decide)
  | connective c => cases c <;> exact lexeme_word (by decide)
  | comparison c =>
    cases c with
    | unequal => exact .unequal
    | _ => exact .symbol rfl
  | scope s => cases s <;> exact lexeme_word (by decide)
  | hasWord => exact lexeme_word (by decide)
  | notWord => exact lexeme_word (by decide)
  | traitWord => exact lexeme_word (by decide)
  | openParen => exact .symbol rfl
  | closeParen => exact .symbol rfl
  | comma => exact .symbol rfl
  | phrase p => exact h.elim

/-! ### Writing words down -/

/-- What stands between two words: a blank, but nothing just inside parentheses. -/
def gap (t u : Token) : List Char := if t = openParen ∨ u = closeParen then [] else [' ']

/-- A row of words as text. -/
def write : List Token → List Char
  | [] => []
  | [t] => t.spelling
  | t :: u :: ts => t.spelling ++ (gap t u ++ write (u :: ts))

/-- What is written behind a word does not make it longer. -/
theorem goesOnWith_gap (t u : Token) (ts : List Token) :
    ∀ c ∈ (gap t u ++ write (u :: ts)).head?, t.goesOnWith c = false := by
  by_cases ht : t = openParen
  · subst ht
    intro c _
    rfl
  by_cases hu : u = closeParen
  · subst hu
    have hhead : (gap t closeParen ++ write (closeParen :: ts)).head? = some ')' := by
      rw [gap, if_pos (Or.inr rfl)]
      cases ts <;> rfl
    rw [hhead]
    rintro c ⟨⟩
    cases t <;> rfl
  · rw [gap, if_neg (not_or.mpr ⟨ht, hu⟩)]
    rintro c ⟨⟩
    cases t <;> rfl

/-- Scanning passes over what stands between two words. -/
theorem scanFrom_gap (t u : Token) (position : Nat) (rest : List Char) :
    scanFrom position (gap t u ++ rest) = scanFrom (position + byteLength (gap t u)) rest := by
  rw [gap]
  split
  · rfl
  · exact scanFrom_blank rfl position

/-- **Words that are written down are scanned.** -/
theorem scanFrom_write {ts : List Token} (h : ∀ t ∈ ts, t.IsWord) (position : Nat) :
    scanFrom position (write ts) = .ok ts := by
  induction ts generalizing position with
  | nil => rw [write, scanFrom]
  | cons t ts ih =>
    obtain ⟨ht, hts⟩ := List.forall_mem_cons.mp h
    have hlexeme := lexeme_spelling ht
    cases ts with
    | nil =>
      have hend : ∀ c ∈ ([] : List Char).head?, t.goesOnWith c = false := by
        intro c hc
        cases hc
      have hscan := scanFrom_lexeme hlexeme hend position
      rw [List.append_nil, scanFrom] at hscan
      exact hscan
    | cons u ts =>
      rw [write, scanFrom_lexeme hlexeme (goesOnWith_gap t u ts), scanFrom_gap, ih hts]
      rfl

/-- Words that are written down are the words of the script. -/
theorem scan_write {ts : List Token} (h : ∀ t ∈ ts, t.IsWord) :
    scan (String.ofList (write ts)) = .ok ts := by
  rw [scan, String.toList_ofList]
  exact scanFrom_write h 0

/-- Whether a folded token can be written down in words. -/
def CanBeWritten (t : Token) : Prop := t.IsFolded ∧ ∀ w ∈ t.spelledOut, w.IsWord

/-- A token that is its own word can be written down. -/
theorem CanBeWritten.of_isWord {t : Token} (hfold : t.IsFolded) (hword : t.IsWord) :
    t.CanBeWritten := by
  cases t with
  | phrase p => exact hword.elim
  | _ => exact ⟨hfold, List.forall_mem_singleton.mpr hword⟩

/-- **Folded tokens whose words are written down are the tokens of the script.** -/
theorem ofScript_write {ts : List Token} (h : ∀ t ∈ ts, t.CanBeWritten) :
    ofScript (String.ofList (write (ts.flatMap spelledOut))) = .ok ts := by
  have hscan : scan (String.ofList (write (ts.flatMap spelledOut))) =
      .ok (ts.flatMap spelledOut) := by
    apply scan_write
    intro w hw
    obtain ⟨t, ht, hw⟩ := List.mem_flatMap.mp hw
    exact (h t ht).2 w hw
  rw [ofScript, hscan]
  exact foldPhrases_spelledOut fun t ht => (h t ht).1

end Token

/-- Whether a phrase can be written down: one about traits names a trait, and no name holds a
quotation mark. -/
def Phrase.CanBeWritten : Phrase → Prop
  | stat _ => True
  | traits p => p.traits ≠ [] ∧ ∀ name ∈ p.traits, '"' ∉ name.toList

theorem Token.canBeWritten_phrase {p : Phrase} (h : p.CanBeWritten) :
    (phrase p).CanBeWritten := by
  cases p with
  | stat p => simp [CanBeWritten, IsFolded, spelledOut, Phrase.words, IsWord]
  | traits p =>
    refine ⟨h.1, ?_⟩
    intro w hw
    obtain ⟨inverse, names⟩ := p
    simp only [spelledOut, Phrase.words, List.mem_append, List.mem_cons, List.mem_map] at hw
    rcases hw with (rfl | hw) | rfl | ⟨name, hname, rfl⟩
    · trivial
    · cases inverse <;> simp at hw
      subst hw
      trivial
    · trivial
    · exact h.2 name hname

end Adventure.Condition
