import Adventure.Proofs.Condition.Grammar
import Adventure.Proofs.Condition.Postorder
import Mathlib.Data.List.Basic

/-!
Where a script is refused for an invalid character.

Scanning finds at the front of a script a blank, a lexeme, a lexeme that spells no token, or a
character with which no lexeme starts (`Onset`). Only the last is an invalid character. A script can
be cut behind each lexeme: the part before the cut is scanned as if nothing followed, as long as the
cut goes through no word and no number (`scanFrom_append`). Hence the character that is told is the
first invalid one, and what stands behind it is never looked at (`scan_eq_invalidCharacter_iff`).

An underscore starts no lexeme but goes on with a word, so it is invalid only where no word stands
right before it (`not_scan_eq_invalidCharacter_underscore`).
-/

namespace Adventure.Condition

/-! ### The front of a script -/

/-- Whether a lexeme may start with a character. -/
def opensLexeme (c : Char) : Bool :=
  Text.isLetter c || c.isDigit || ['-', '"', '(', ')', ',', '>', '<', '=', '!'].contains c

/-- A character that starts none of the longer lexemes, and is no lexeme itself, opens none. -/
theorem opensLexeme_eq_false {c : Char} (hnumber : ¬(c.isDigit || decide (c = '-')) = true)
    (hletter : ¬Text.isLetter c = true) (hquote : ¬c = '"') (hbang : ¬c = '!')
    (hsymbol : symbol? c = none) : opensLexeme c = false := by
  have hsign : ∀ sign ∈ ['(', ')', ',', '>', '<', '='], c ≠ sign := by
    rintro sign hsign rfl
    have hall : ∀ d ∈ ['(', ')', ',', '>', '<', '='], symbol? d ≠ none := by simp [symbol?]
    exact hall c hsign hsymbol
  simp_all [opensLexeme]

/-- What scanning finds at the front of a script. -/
inductive Onset : List Char → Prop where
  | nothing : Onset []
  | blank {c : Char} {rest : List Char} (hc : Text.isBlank c = true) : Onset (c :: rest)
  | lexeme {t : Token} {lexeme rest : List Char} (h : Lexeme t lexeme)
    (hend : ∀ c ∈ rest.head?, t.goesOnWith c = false) : Onset (lexeme ++ rest)
  /-- A lexeme that starts and spells no token. -/
  | broken {c : Char} {rest : List Char} (h : ∀ position, ∃ e,
    scanFrom position (c :: rest) = .error e ∧ e.isLexing = true) : Onset (c :: rest)
  | invalid {c : Char} {rest : List Char} (hblank : Text.isBlank c = false)
    (hopens : opensLexeme c = false) : Onset (c :: rest)

/-- A row of digits is read as a number, or is refused wherever it stands. -/
theorem readNumber_cases (digits : List Char) :
    (∃ n : Score, Decimal.read? digits = some n.val) ∨
      ∀ position, readNumber position digits =
        .error (.invalidNumber (String.ofList digits) position) := by
  cases h : (Decimal.read? digits).bind Score.ofInt? with
  | none =>
    right
    intro position
    rw [readNumber, h]
  | some n =>
    obtain ⟨i, hi, hscore⟩ := Option.bind_eq_some_iff.mp h
    exact Or.inl ⟨n, hi.trans (congrArg some (Score.ofInt?_eq_some_iff.mp hscore).symm)⟩

theorem Onset.of_number {c : Char} (hc : c.isDigit = true ∨ c = '-') (rest : List Char) :
    Onset (c :: rest) := by
  rcases readNumber_cases (c :: rest.takeWhile Char.isDigit) with ⟨n, hn⟩ | herror
  · have hend : ∀ d ∈ (rest.dropWhile Char.isDigit).head?, (Token.number n).goesOnWith d = false :=
      Text.head?_dropWhile
    have honset := Onset.lexeme (.number hc List.all_takeWhile hn) hend
    rwa [List.cons_append, List.takeWhile_append_dropWhile] at honset
  · apply Onset.broken
    intro position
    refine ⟨.invalidNumber (String.ofList (c :: rest.takeWhile Char.isDigit)) position, ?_, rfl⟩
    rw [scanFrom_number hc, herror]
    rfl

theorem Onset.of_letter {c : Char} (hc : Text.isLetter c = true) (rest : List Char) :
    Onset (c :: rest) := by
  cases hword : Token.ofWord? (String.ofList (Text.lowercase (c :: rest.takeWhile isWordChar))) with
  | some t =>
    have hend : ∀ d ∈ (rest.dropWhile isWordChar).head?, t.goesOnWith d = false := by
      rw [goesOnWith_of_ofWord? hword]
      exact Text.head?_dropWhile
    have honset := Onset.lexeme (.word hc List.all_takeWhile hword) hend
    rwa [List.cons_append, List.takeWhile_append_dropWhile] at honset
  | none =>
    apply Onset.broken
    intro position
    refine ⟨.unknownWord (String.ofList (Text.lowercase (c :: rest.takeWhile isWordChar))), ?_, rfl⟩
    rw [scanFrom_word hc, readWord, hword]
    rfl

theorem Onset.of_quote (rest : List Char) : Onset ('"' :: rest) := by
  cases hbehind : rest.dropWhile (· ≠ '"') with
  | nil =>
    apply Onset.broken
    intro position
    exact ⟨.unclosedQuote position, scanFrom_unclosed hbehind position, rfl⟩
  | cons d behind =>
    have hend : ∀ c ∈ behind.head?,
        (Token.quote (String.ofList (rest.takeWhile (· ≠ '"')))).goesOnWith c = false :=
      fun _ _ => rfl
    have honset := Onset.lexeme (.quote (not_mem_quoted rest)) hend
    rwa [List.append_assoc, List.singleton_append, List.cons_append,
      quoted_append hbehind] at honset

theorem Onset.of_bang (rest : List Char) : Onset ('!' :: rest) := by
  by_cases hrest : ∃ behind, rest = '=' :: behind
  · obtain ⟨behind, rfl⟩ := hrest
    have hend : ∀ c ∈ behind.head?, (Token.comparison .unequal).goesOnWith c = false :=
      fun _ _ => rfl
    exact .lexeme .unequal hend
  · apply Onset.broken
    intro position
    have hlone : ∀ behind, rest = '=' :: behind → False := fun behind h => hrest ⟨behind, h⟩
    exact ⟨.loneBang position, scanFrom_loneBang hlone position, rfl⟩

/-- **What scanning can find at the front of a script.** -/
theorem onset (cs : List Char) : Onset cs := by
  rcases cs with - | ⟨c, rest⟩
  · exact .nothing
  by_cases hblank : Text.isBlank c = true
  · exact .blank hblank
  by_cases hnumber : c.isDigit = true ∨ c = '-'
  · exact .of_number hnumber rest
  by_cases hletter : Text.isLetter c = true
  · exact .of_letter hletter rest
  by_cases hquote : c = '"'
  · exact hquote ▸ .of_quote rest
  by_cases hbang : c = '!'
  · exact hbang ▸ .of_bang rest
  cases hsymbol : symbol? c with
  | some t =>
    have hend := (lexeme_of_mem_signs (mem_signs_of_symbol? hsymbol)).2
    exact .lexeme (.symbol hsymbol) fun d _ => hend d
  | none =>
    refine .invalid (by simpa using hblank) (opensLexeme_eq_false ?_ hletter hquote hbang hsymbol)
    simpa using hnumber

/-- **Induction over a script as it is scanned**: over the rest behind a blank and behind a lexeme.
-/
@[elab_as_elim]
theorem onset_induction {motive : List Char → Prop} (nothing : motive [])
    (blank : ∀ c rest, Text.isBlank c = true → motive rest → motive (c :: rest))
    (lexeme : ∀ t lexeme rest, Lexeme t lexeme → (∀ c ∈ rest.head?, t.goesOnWith c = false) →
      motive rest → motive (lexeme ++ rest))
    (broken : ∀ c rest, (∀ position, ∃ e, scanFrom position (c :: rest) = .error e ∧
      e.isLexing = true) → motive (c :: rest))
    (invalid : ∀ c rest, Text.isBlank c = false → opensLexeme c = false → motive (c :: rest))
    (cs : List Char) : motive cs := by
  induction hn : cs.length using Nat.strongRecOn generalizing cs with
  | _ n ih =>
    subst hn
    cases onset cs with
    | nothing => exact nothing
    | @blank c rest hc => exact blank c rest hc (ih _ (by simp) rest rfl)
    | @lexeme t l rest h hend =>
      have hpos : 0 < l.length := by cases h <;> simp
      exact lexeme t l rest h hend (ih _ (by simp [hpos]) rest rfl)
    | @broken c rest h => exact broken c rest h
    | @invalid c rest hblank hopens => exact invalid c rest hblank hopens

/-- A character with which no lexeme starts is told where it stands. -/
theorem scanFrom_invalid {c : Char} (hblank : Text.isBlank c = false)
    (hopens : opensLexeme c = false) (position : Nat) (rest : List Char) :
    scanFrom position (c :: rest) = .error (.invalidCharacter c position) := by
  simp only [opensLexeme, Bool.or_eq_false_iff, List.contains_cons, List.contains_nil,
    beq_eq_false_iff_ne, ne_eq, and_true] at hopens
  obtain ⟨⟨hletter, hdigit⟩, hminus, hquote, hopen, hclose, hcomma, hgt, hlt, heq, hbang⟩ := hopens
  have hsymbol : symbol? c = none := by
    unfold symbol?
    split <;> first | rfl | contradiction
  conv => lhs; unfold scanFrom
  simp [hblank, hdigit, hminus, hletter, hquote, hbang, hsymbol]

/-! ### Cutting a script -/

/-- Whether two characters that stand next to each other, outside quotation marks, may belong to one
word or one number. -/
def sticks (c d : Char) : Bool := isWordChar c && isWordChar d || c.isDigit && d.isDigit

/-- A number ends in a digit, not in its minus sign. -/
theorem exists_last_digit {c : Char} {ds : List Char} {n : Int} (hc : c.isDigit = true ∨ c = '-')
    (hds : ds.all Char.isDigit = true) (h : Decimal.read? (c :: ds) = some n) :
    ∃ d ∈ (c :: ds).getLast?, d.isDigit = true := by
  cases hlast : ds.getLast? with
  | some d =>
    refine ⟨d, by simp [List.getLast?_cons, hlast], ?_⟩
    exact List.all_eq_true.mp hds d (List.mem_of_getLast? hlast)
  | none =>
    obtain rfl := List.getLast?_eq_none_iff.mp hlast
    rcases hc with hc | rfl
    · exact ⟨c, rfl, hc⟩
    · cases h

/-- No digit is a character of words. -/
theorem isWordChar_of_isDigit {c : Char} (h : c.isDigit = true) : isWordChar c = false := by
  have hletter : Text.isLetter c = false := by
    cases hl : Text.isLetter c with
    | false => rfl
    | true => exact absurd h (by simp [(isDigit_of_isLetter hl).1])
  have hminus : c ≠ '-' := by
    rintro rfl
    cases h
  have hscore : c ≠ '_' := by
    rintro rfl
    cases h
  simp [isWordChar, hletter, hminus, hscore]

/-- No blank is a character of words. -/
theorem isWordChar_of_isBlank {c : Char} (h : Text.isBlank c = true) : isWordChar c = false := by
  cases hw : isWordChar c with
  | false => rfl
  | true =>
    simp only [isWordChar, Bool.or_eq_true, decide_eq_true_eq] at hw
    rcases hw with (hl | rfl) | rfl
    · rw [Text.isBlank_of_isLetter hl] at h
      cases h
    · exact absurd h (by decide)
    · exact absurd h (by decide)

/-- Nothing sticks to a blank. -/
theorem sticks_of_isBlank {c : Char} (h : Text.isBlank c = true) (d : Char) :
    sticks c d = false := by
  have hdigit : c.isDigit = false := by
    cases hd : c.isDigit with
    | false => rfl
    | true => exact absurd h (by simp [Text.isBlank_of_isDigit (Or.inl hd)])
  simp [sticks, hdigit, isWordChar_of_isBlank h]

/-- **What sticks to the last character of a lexeme** is what the lexeme would go on with. -/
theorem Lexeme.exists_last {t : Token} {lexeme : List Char} (h : Lexeme t lexeme) :
    ∃ c, lexeme.getLast? = some c ∧ ∀ d, sticks c d = t.goesOnWith d := by
  cases h with
  | @symbol c t h =>
    obtain ⟨-, hdigit, hminus, hletter, -, -⟩ := starts_of_symbol? h
    have hscore : c ≠ '_' := by
      rintro rfl
      cases h
    have hend := (lexeme_of_mem_signs (mem_signs_of_symbol? h)).2
    exact ⟨c, rfl, fun d => by simp [sticks, isWordChar, hdigit, hminus, hletter, hscore, hend d]⟩
  | unequal => exact ⟨'=', rfl, fun d => rfl⟩
  | quote h => exact ⟨'"', List.getLast?_concat, fun d => rfl⟩
  | number hc hds h =>
    obtain ⟨e, he, hdigit⟩ := exists_last_digit hc hds h
    refine ⟨e, he, fun d => ?_⟩
    simp [sticks, hdigit, isWordChar_of_isDigit hdigit, Token.goesOnWith]
  | @word c cs t hc hcs h =>
    have hall : ∀ e ∈ c :: cs, isWordChar e = true :=
      List.forall_mem_cons.mpr ⟨by simp [isWordChar, hc], List.all_eq_true.mp hcs⟩
    have hword := hall _ (List.getLast_mem (List.cons_ne_nil c cs))
    have hdigit : ((c :: cs).getLast (List.cons_ne_nil c cs)).isDigit = false := by
      cases hd : ((c :: cs).getLast (List.cons_ne_nil c cs)).isDigit with
      | false => rfl
      | true => exact absurd hword (by simp [isWordChar_of_isDigit hd])
    refine ⟨_, List.getLast?_eq_some_getLast (List.cons_ne_nil c cs), fun d => ?_⟩
    simp [sticks, hword, hdigit, goesOnWith_of_ofWord? h]

theorem byteLength_append (cs ds : List Char) :
    byteLength (cs ++ ds) = byteLength cs + byteLength ds := by
  induction cs with
  | nil => exact (Nat.zero_add _).symm
  | cons c cs ih =>
    simp only [byteLength, List.cons_append, List.map_cons, List.foldr_cons] at ih ⊢
    omega

/-- The length of a script is the one in UTF-8. -/
theorem byteLength_eq (cs : List Char) : byteLength cs = (String.ofList cs).utf8ByteSize := by
  induction cs with
  | nil => rfl
  | cons c cs ih =>
    rw [String.ofList_cons, String.utf8ByteSize_append, String.utf8ByteSize_singleton, ← ih]
    rfl

/-- **A script may be cut between two characters that do not stick together**: the part before the
cut is scanned as it is alone, and scanning goes on behind it. -/
theorem scanFrom_append {cs : List Char} {ts : List Token} {position : Nat}
    (h : scanFrom position cs = .ok ts) {rest : List Char}
    (hrest : ∀ c ∈ cs.getLast?, ∀ d ∈ rest.head?, sticks c d = false) :
    scanFrom position (cs ++ rest) =
      (do return ts ++ (← scanFrom (position + byteLength cs) rest)) := by
  induction cs using onset_induction generalizing position ts with
  | nothing =>
    rw [scanFrom] at h
    cases h
    change scanFrom position rest = (do return [] ++ (← scanFrom position rest))
    cases scanFrom position rest <;> rfl
  | blank c cs hc ih =>
    rw [scanFrom_blank hc] at h
    have hlast : ∀ e ∈ cs.getLast?, ∀ d ∈ rest.head?, sticks e d = false := fun e he =>
      hrest e (show e ∈ ([c] ++ cs).getLast? from List.mem_getLast?_append_of_mem_getLast? he)
    rw [List.cons_append, scanFrom_blank hc, ih h hlast, Nat.add_assoc]
    rfl
  | lexeme t lexeme behind hlexeme hend ih =>
    rw [scanFrom_lexeme hlexeme hend] at h
    obtain ⟨us, hus, h⟩ := exists_of_bind_eq_ok h
    cases h
    have hlast : ∀ e ∈ behind.getLast?, ∀ d ∈ rest.head?, sticks e d = false := fun e he =>
      hrest e (List.mem_getLast?_append_of_mem_getLast? he)
    have hend' : ∀ d ∈ (behind ++ rest).head?, t.goesOnWith d = false := by
      cases behind with
      | nil =>
        intro d hd
        obtain ⟨c, hc, hsticks⟩ := hlexeme.exists_last
        rw [List.append_nil] at hrest
        rw [← hsticks]
        exact hrest c hc d hd
      | cons e behind => exact hend
    rw [List.append_assoc, scanFrom_lexeme hlexeme hend', ih hus hlast, byteLength_append,
      Nat.add_assoc]
    cases scanFrom (position + (byteLength lexeme + byteLength behind)) rest <;> rfl
  | broken c cs herror =>
    obtain ⟨e, he, -⟩ := herror position
    rw [he] at h
    cases h
  | invalid c cs hblank hopens =>
    rw [scanFrom_invalid hblank hopens] at h
    cases h

/-- **An invalid character is found behind what can be scanned**, at its own place. -/
theorem exists_of_scanFrom_invalidCharacter {cs : List Char} {position place : Nat} {c : Char}
    (h : scanFrom position cs = .error (.invalidCharacter c place)) :
    ∃ front behind, cs = front ++ c :: behind ∧ place = position + byteLength front ∧
      (∃ ts, scanFrom position front = .ok ts) ∧
      (Text.isBlank c = false ∧ opensLexeme c = false) ∧
      ∀ d ∈ front.getLast?, sticks d c = false := by
  induction cs using onset_induction generalizing position with
  | nothing =>
    rw [scanFrom] at h
    cases h
  | blank b cs hb ih =>
    rw [scanFrom_blank hb] at h
    obtain ⟨front, behind, rfl, rfl, ⟨ts, hts⟩, hc, hlast⟩ := ih h
    refine ⟨b :: front, behind, rfl, Nat.add_assoc .., ⟨ts, ?_⟩, hc, ?_⟩
    · rw [scanFrom_blank hb, hts]
    · cases front with
      | nil =>
        rintro d ⟨⟩
        exact sticks_of_isBlank hb c
      | cons e front => exact hlast
  | lexeme t lexeme cs hlexeme hend ih =>
    rw [scanFrom_lexeme hlexeme hend] at h
    have herror : scanFrom (position + byteLength lexeme) cs =
        .error (.invalidCharacter c place) := by
      cases hcs : scanFrom (position + byteLength lexeme) cs with
      | error e =>
        rw [hcs] at h
        exact h
      | ok ts =>
        rw [hcs] at h
        cases h
    obtain ⟨front, behind, rfl, rfl, ⟨ts, hts⟩, hc, hlast⟩ := ih herror
    refine ⟨lexeme ++ front, behind, (List.append_assoc ..).symm, ?_, ⟨t :: ts, ?_⟩, hc, ?_⟩
    · rw [byteLength_append, Nat.add_assoc]
    · have hfront : ∀ d ∈ front.head?, t.goesOnWith d = false := by
        cases front with
        | nil => simp
        | cons e front => exact hend
      rw [scanFrom_lexeme hlexeme hfront, hts]
      rfl
    · cases front with
      | nil =>
        obtain ⟨e, he, hsticks⟩ := hlexeme.exists_last
        intro d hd
        rw [List.append_nil, he] at hd
        cases hd
        rw [hsticks]
        exact hend c rfl
      | cons e front =>
        rw [List.getLast?_append_of_ne_nil _ (List.cons_ne_nil e front)]
        exact hlast
  | broken b cs herror =>
    obtain ⟨e, he, hlexing⟩ := herror position
    rw [he] at h
    cases h
    cases hlexing
  | invalid b cs hblank hopens =>
    rw [scanFrom_invalid hblank hopens] at h
    cases h
    exact ⟨[], cs, rfl, rfl, ⟨[], by rw [scanFrom]⟩, ⟨hblank, hopens⟩, fun d hd => by cases hd⟩

/-- Of the characters with which no lexeme starts, only the underscore sticks to others: to those of
words. -/
theorem sticks_eq_false_iff {c d : Char} (hopens : opensLexeme c = false) :
    sticks d c = false ↔ (c = '_' → isWordChar d = false) := by
  simp only [opensLexeme, Bool.or_eq_false_iff, List.contains_cons, beq_eq_false_iff_ne] at hopens
  obtain ⟨⟨hletter, hdigit⟩, hminus, -⟩ := hopens
  by_cases hscore : c = '_'
  · simp [sticks, hscore, isWordChar]
  · simp [sticks, hdigit, hscore, isWordChar, hletter, hminus]

/-- **Invalid characters are located exactly.** A script is refused for an invalid character at some
place exactly if what stands before that place can be scanned, and the character there is neither
blank nor one that a lexeme starts with. An underscore must not stand right behind a character of
words: it would go on with that word. What stands behind the character does not matter. -/
theorem scan_eq_invalidCharacter_iff (script : String) (c : Char) (place : Nat) :
    Token.scan script = .error (.invalidCharacter c place) ↔
      ∃ front behind : String, script = front ++ String.singleton c ++ behind ∧
        front.utf8ByteSize = place ∧ (∃ ts, Token.scan front = .ok ts) ∧
        (Text.isBlank c = false ∧ opensLexeme c = false) ∧
        (c = '_' → ∀ d ∈ front.toList.getLast?, isWordChar d = false) := by
  constructor
  · intro h
    obtain ⟨front, behind, hcs, hplace, ⟨ts, hts⟩, hc, hlast⟩ :=
      exists_of_scanFrom_invalidCharacter h
    refine ⟨String.ofList front, String.ofList behind, ?_, ?_, ⟨ts, ?_⟩, hc, ?_⟩
    · rw [← String.toList_inj, hcs]
      simp
    · rw [hplace, byteLength_eq, Nat.zero_add]
    · rw [Token.scan, String.toList_ofList, hts]
    · intro hscore d hd
      rw [String.toList_ofList] at hd
      exact (sticks_eq_false_iff hc.2).mp (hlast d hd) hscore
  · rintro ⟨front, behind, rfl, rfl, ⟨ts, hts⟩, hc, hlast⟩
    have hcut : ∀ d ∈ front.toList.getLast?, ∀ e ∈ (c :: behind.toList).head?,
        sticks d e = false := by
      rintro d hd e ⟨⟩
      exact (sticks_eq_false_iff hc.2).mpr fun hscore => hlast hscore d hd
    have hscan := scanFrom_append hts hcut
    rw [scanFrom_invalid hc.1 hc.2, byteLength_eq, String.ofList_toList, Nat.zero_add] at hscan
    rw [Token.scan, String.toList_append, String.toList_append, String.toList_singleton,
      List.append_assoc, List.singleton_append, hscan]
    rfl

/-- A quoted name may hold the character, and counts in bytes: a letter with an accent takes two. -/
example : (match Token.scan "trait \"déjà $\" $ and_" with
    | .error e => some e
    | .ok _ => none) = some (.invalidCharacter '$' 17) := by
  decide +kernel

/-- **An underscore behind a word is no invalid character**, although no lexeme starts with one: it
goes on with the word, and in `str_` it makes the word unknown. -/
theorem not_scan_eq_invalidCharacter_underscore :
    ¬∀ (script : String) (c : Char) (place : Nat),
      Token.scan script = .error (.invalidCharacter c place) ↔
        ∃ front behind : String, script = front ++ String.singleton c ++ behind ∧
          front.utf8ByteSize = place ∧ (∃ ts, Token.scan front = .ok ts) ∧
          (Text.isBlank c = false ∧ opensLexeme c = false) := by
  intro h
  have hfront : ∃ ts, Token.scan "str" = .ok ts := by
    have hword : (Token.scan "str").toOption = some [.stat .strength] := by decide +kernel
    cases hscan : Token.scan "str" with
    | error e =>
      rw [hscan] at hword
      cases hword
    | ok ts => exact ⟨ts, rfl⟩
  have hinvalid := (h "str_" '_' 3).mpr
    ⟨"str", "", by decide, by decide, hfront, by decide +kernel, by decide +kernel⟩
  have hlexing : (match Token.scan "str_" with
      | .error e => e.isLexing
      | .ok _ => true) = true := by decide +kernel
  rw [hinvalid] at hlexing
  cases hlexing

end Adventure.Condition
