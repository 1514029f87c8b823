import Adventure.Proofs.Condition.InvalidCharacter
import Adventure.Proofs.Condition.Rewording
import Mathlib.Algebra.Group.Nat.Even
import Mathlib.Data.List.DropRight
import Mathlib.Data.List.Forall2
import Mathlib.Data.List.TakeWhile

/-!
Scripts that differ in the words for the roster.

A word for the roster is `character` or `party`, in capitals or not. With other such words in the
place of its own (`Exchanged`) a script spells the same tokens but for those, or is refused for the
same reason (`Exchanged.scanFrom_agree`). The text up to a word is scanned by itself, and if it is
refused, the word is never reached (`scanFrom_append_word`); behind the word scanning goes on as it
would from any other place (`scanFrom_agree`). So the trees of both scripts differ in their scopes
alone, and on a roster of one they say the same. Where one script is refused, so is the other, and
for the same reason: where the one error names a scope, the other names the scope that stands in its
stead (`SameScope`), and where the one tells a place, the other tells where that place has moved
(`SamePlace`). This is `Exchanged.evaluate_agree`.
-/

namespace Adventure.Condition

/-! ### Places in a script -/

/-- Whether `P` relates each place in a text that stands at `p` to the same place in the text where
it stands at `q`. -/
def Shifts (P : Nat → Nat → Prop) (p q : Nat) (cs : List Char) : Prop :=
  ∀ front behind, cs = front ++ behind → P (p + byteLength front) (q + byteLength front)

section Shifts

variable {R : Scope → Scope → Prop} {P : Nat → Nat → Prop} {p q : Nat}

theorem Shifts.here {cs : List Char} (h : Shifts P p q cs) : P p q := h [] cs rfl

theorem Shifts.right {front behind : List Char} (h : Shifts P p q (front ++ behind)) :
    Shifts P (p + byteLength front) (q + byteLength front) behind := by
  rintro f b rfl
  have hplace := h (front ++ f) b (List.append_assoc front f b).symm
  rwa [byteLength_append, ← Nat.add_assoc, ← Nat.add_assoc] at hplace

/-- Behind the first character. -/
theorem Shifts.tail {c : Char} {rest : List Char} (h : Shifts P p q (c :: rest)) :
    Shifts P (p + c.utf8Size) (q + c.utf8Size) rest :=
  (show Shifts P p q ([c] ++ rest) from h).right

/-- Behind the run of characters at the front. -/
theorem Shifts.run {c : Char} {rest : List Char} (h : Shifts P p q (c :: rest))
    (run : Char → Bool) :
    Shifts P (p + byteLength (c :: rest.takeWhile run)) (q + byteLength (c :: rest.takeWhile run))
      (rest.dropWhile run) := by
  apply Shifts.right
  rwa [List.cons_append, List.takeWhile_append_dropWhile]

/-- A number is read in the same way wherever it stands. -/
theorem readNumber_agree (h : P p q) (digits : List Char) :
    Agree (Error.Alike R P) Eq (readNumber p digits) (readNumber q digits) := by
  rw [readNumber, readNumber]
  split
  · exact .ok rfl
  · exact .error (.invalidNumber _ h)

/-- A word is read in the same way wherever it stands. -/
theorem readWord_agree (word : List Char) :
    Agree (Error.Alike R P) Eq (readWord word) (readWord word) := by
  rw [readWord]
  split
  · exact .ok rfl
  · exact .error (.unknownWord _)

/-- **Where a script stands does not matter**, but for the place that an error tells: it moves along
with the script. -/
theorem scanFrom_agree {cs : List Char} (h : Shifts P p q cs) :
    Agree (Error.Alike R P) Eq (scanFrom p cs) (scanFrom q cs) := by
  have hcons : ∀ (t : Token) (ts us : List Token), ts = us → t :: ts = t :: us :=
    fun t _ _ => congrArg (t :: ·)
  fun_induction scanFrom p cs generalizing q with
  | case1 =>
    rw [scanFrom]
    exact .ok rfl
  | case2 p c rest hc ih =>
    rw [scanFrom_blank hc]
    exact ih h.tail
  | case3 p c rest hblank hc lexeme =>
    rename_i ih
    rw [scanFrom_number (by simpa using hc)]
    refine (readNumber_agree h.here _).bind fun t t' ht => ?_
    obtain rfl : t = t' := ht
    exact (ih (h.run _)).map (hcons t)
  | case4 p c rest hblank hnumber hc lexeme =>
    rename_i ih
    rw [scanFrom_word hc]
    refine (readWord_agree _).bind fun t t' ht => ?_
    obtain rfl : t = t' := ht
    exact (ih (h.run _)).map (hcons t)
  | case5 p rest hnone =>
    rw [scanFrom_unclosed hnone]
    exact .error (.unclosedQuote h.here)
  | case6 p rest text d behind hbehind =>
    rename_i ih
    have hquoted : Shifts P p q ('"' :: (text ++ ['"']) ++ behind) := by
      rwa [List.cons_append, List.append_assoc, List.singleton_append, quoted_append hbehind]
    have hrest := hquoted.right
    rw [byteLength_quoted, ← Nat.add_assoc, ← Nat.add_assoc] at hrest
    rw [scanFrom_quote hbehind]
    exact (ih hrest).map (hcons _)
  | case7 p behind _ _ _ _ ih =>
    have hrest : Shifts P (p + 2) (q + 2) behind := h.tail.tail
    rw [scanFrom_unequal]
    exact (ih hrest).map (hcons _)
  | case8 p rest hrest =>
    rw [scanFrom_loneBang hrest]
    exact .error (.loneBang h.here)
  | case9 p c rest hblank hnumber hletter hquote hbang t ht ih =>
    rw [scanFrom_symbol ht]
    exact (ih h.tail).map (hcons t)
  | case10 p c rest hblank hnumber hletter hquote hbang ht =>
    have hopens := opensLexeme_eq_false hnumber hletter hquote hbang ht
    rw [scanFrom_invalid (by simpa using hblank) hopens]
    exact .error (.invalidCharacter c h.here)

end Shifts

/-! ### Up to a word -/

/-- Whether a text ends outside quotation marks, and in no word: none of the characters of words
that it ends in is a letter, with which a word could start. -/
structure EndsApart (front : List Char) : Prop where
  unquoted : Even (front.count '"')
  apart : (front.rtakeWhile isWordChar).any Text.isLetter = false

namespace EndsApart

variable {c : Char} {rest : List Char}

/-- What stands behind a lexeme ends like the whole text. -/
theorem of_append (lexeme : List Char) {behind : List Char} (h : EndsApart (lexeme ++ behind))
    (hlexeme : Even (lexeme.count '"')) : EndsApart behind where
  unquoted := by
    have heven := h.unquoted
    rw [List.count_append, Nat.even_add] at heven
    exact heven.mp hlexeme
  apart := by
    rw [List.any_eq_false]
    intro c hc
    refine List.any_eq_false.mp h.apart c ?_
    rw [List.rtakeWhile, List.mem_reverse] at hc ⊢
    rw [List.reverse_append, List.takeWhile_append]
    split
    · exact List.mem_append_left _ ((List.takeWhile_sublist _).subset hc)
    · exact hc

theorem of_cons (h : EndsApart (c :: rest)) (hc : c ≠ '"') : EndsApart rest :=
  of_append [c] h (by simp [hc])

theorem of_run {p : Char → Bool} (h : EndsApart (c :: rest)) (hc : c ≠ '"') (hp : p '"' = false) :
    EndsApart (rest.dropWhile p) := by
  have hnone : (rest.takeWhile p).count '"' = 0 := by
    rw [List.count_eq_zero]
    intro hmem
    have htrue := List.all_eq_true.mp List.all_takeWhile _ hmem
    rw [hp] at htrue
    cases htrue
  apply of_append (rest.takeWhile p) _ (by simp [hnone])
  rw [List.takeWhile_append_dropWhile]
  exact h.of_cons hc

/-- A word does not reach the end of such a text. -/
theorem dropWhile_ne_nil (h : EndsApart (c :: rest)) (hc : Text.isLetter c = true) :
    rest.dropWhile isWordChar ≠ [] := by
  intro hnil
  have hall : ∀ d ∈ c :: rest, isWordChar d = true :=
    List.forall_mem_cons.mpr ⟨by simp [isWordChar, hc], List.dropWhile_eq_nil_iff.mp hnil⟩
  have hletter := h.apart
  rw [List.rtakeWhile_eq_self_iff.mpr hall, List.any_cons, hc, Bool.true_or] at hletter
  cases hletter

/-- A name in quotation marks is closed in such a text. -/
theorem exists_closed (h : EndsApart ('"' :: rest)) :
    ∃ d behind, rest.dropWhile (· ≠ '"') = d :: behind ∧ EndsApart behind := by
  have hnone := List.count_eq_zero.mpr (not_mem_quoted rest)
  cases hbehind : rest.dropWhile (· ≠ '"') with
  | nil =>
    -- The mark that opens the name would be the only one.
    have hall : rest.takeWhile (· ≠ '"') = rest := by
      rw [List.takeWhile_eq_self_iff]
      exact List.dropWhile_eq_nil_iff.mp hbehind
    have heven := h.unquoted
    rw [List.count_cons_self, ← hall, hnone] at heven
    exact absurd heven (by decide)
  | cons d behind =>
    refine ⟨d, behind, rfl, of_append ('"' :: rest.takeWhile (· ≠ '"') ++ ['"']) ?_ ?_⟩
    · rwa [List.append_assoc, List.singleton_append, List.cons_append, quoted_append hbehind]
    · rw [List.count_append, List.count_cons_self, hnone]
      decide

end EndsApart

/-- A run of characters and what stands behind it have the length of both. -/
theorem byteLength_run (p : Char → Bool) (c : Char) (rest : List Char) :
    byteLength (c :: rest.takeWhile p) + byteLength (rest.dropWhile p) =
      byteLength (c :: rest) := by
  rw [← byteLength_append, List.cons_append, List.takeWhile_append_dropWhile]

/-- A first token may be put in front of a part or of the whole. -/
theorem cons_scan_append (t : Except Error Token) (x y : Except Error (List Token)) :
    (do return (← t) :: (← (do return (← x) ++ (← y)))) =
      (do
        let ts ← (do return (← t) :: (← x))
        return ts ++ (← y)) := by
  cases t with
  | error e => rfl
  | ok t =>
    cases x with
    | error e => rfl
    | ok ts => cases y <;> rfl

/-- **A text is scanned by itself up to a word**, if it ends apart from the word. Where it is
refused, the word is never reached. -/
theorem scanFrom_append_word {front rest : List Char} {d : Char} (hfront : EndsApart front)
    (hd : Text.isLetter d = true) (position : Nat) :
    scanFrom position (front ++ d :: rest) = (do
      let ts ← scanFrom position front
      return ts ++ (← scanFrom (position + byteLength front) (d :: rest))) := by
  have hdigit := (isDigit_of_isLetter hd).1
  fun_induction scanFrom position front with
  | case1 p =>
    change scanFrom p (d :: rest) = (do return [] ++ (← scanFrom p (d :: rest)))
    cases scanFrom p (d :: rest) <;> rfl
  | case2 p c front hc ih =>
    have hquote : c ≠ '"' := by
      rintro rfl
      exact absurd hc (by decide)
    rw [List.cons_append, scanFrom_blank hc, ih (hfront.of_cons hquote), Nat.add_assoc]
    rfl
  | case3 p c front hblank hc lexeme ih =>
    have hquote : c ≠ '"' := by
      rintro rfl
      exact absurd hc (by decide)
    rw [List.cons_append, scanFrom_number (by simpa using hc), Text.takeWhile_append_cons hdigit,
      Text.dropWhile_append_cons hdigit, ih (hfront.of_run hquote rfl), Nat.add_assoc,
      byteLength_run]
    exact cons_scan_append _ _ _
  | case4 p c front hblank hnumber hc lexeme ih =>
    have hquote : c ≠ '"' := by
      rintro rfl
      exact absurd hc (by decide)
    have hstop := hfront.dropWhile_ne_nil hc
    rw [List.cons_append, scanFrom_word hc, Text.takeWhile_append_of_stop hstop,
      Text.dropWhile_append_of_stop hstop, ih (hfront.of_run hquote rfl), Nat.add_assoc,
      byteLength_run]
    exact cons_scan_append _ _ _
  | case5 p front hnone =>
    obtain ⟨d, behind, hbehind, -⟩ := hfront.exists_closed
    rw [hbehind] at hnone
    cases hnone
  | case6 p front text c behind hbehind _ _ _ ih =>
    obtain ⟨c', behind', hbehind', hapart⟩ := hfront.exists_closed
    obtain ⟨rfl, rfl⟩ := List.cons.inj (hbehind.symm.trans hbehind')
    have hstop : front.dropWhile (· ≠ '"') ≠ [] := hbehind ▸ List.cons_ne_nil _ _
    have hmore := Text.dropWhile_append_of_stop hstop (d :: rest)
    rw [hbehind, List.cons_append] at hmore
    have hlength : byteLength text + 2 + byteLength behind = byteLength ('"' :: front) := by
      rw [← byteLength_quoted, ← byteLength_append, List.cons_append, List.append_assoc,
        List.singleton_append, quoted_append hbehind]
    rw [List.cons_append, scanFrom_quote hmore, Text.takeWhile_append_of_stop hstop, ih hapart,
      Nat.add_assoc p, Nat.add_assoc p, hlength]
    exact cons_scan_append (.ok _) _ _
  | case7 p behind _ _ _ _ ih =>
    have hapart := (hfront.of_cons (by decide)).of_cons (by decide)
    have hlength : 2 + byteLength behind = byteLength ('!' :: '=' :: behind) :=
      (byteLength_append ['!', '='] behind).symm
    rw [List.cons_append, List.cons_append, scanFrom_unequal, ih hapart, Nat.add_assoc, hlength]
    exact cons_scan_append (.ok _) _ _
  | case8 p front hlone =>
    -- Neither the text nor a word starts with the equals sign that is missing.
    have hlone' : ∀ behind, front ++ d :: rest = '=' :: behind → False := by
      intro behind hbehind
      cases front with
      | nil =>
        cases hbehind
        exact absurd hd (by decide)
      | cons c front =>
        cases hbehind
        exact hlone _ rfl
    rw [List.cons_append, scanFrom_loneBang hlone']
    rfl
  | case9 p c front hblank hnumber hletter hquote hbang t ht ih =>
    rw [List.cons_append, scanFrom_symbol ht, ih (hfront.of_cons hquote), Nat.add_assoc]
    exact cons_scan_append (.ok _) _ _
  | case10 p c front hblank hnumber hletter hquote hbang ht =>
    have hopens := opensLexeme_eq_false hnumber hletter hquote hbang ht
    rw [List.cons_append, scanFrom_invalid (by simpa using hblank) hopens]
    rfl

/-! ### Words for the roster -/

/-- Whether a word names one of the scopes that look at the roster, in capitals or not. -/
def IsRosterWord (word : List Char) : Prop :=
  ∃ s : Scope, s.hasStats = true ∧ Lexeme (.scope s) word

/-- The name of such a scope is such a word. -/
theorem isRosterWord_word {s : Scope} (hs : s.hasStats = true) : IsRosterWord s.word.toList :=
  ⟨s, hs, Token.lexeme_spelling (t := .scope s) trivial⟩

/-- Texts of which one is the other with words for the roster in the place of some of its own. Each
of these words stands for itself outside quotation marks. -/
inductive Exchanged : List Char → List Char → Prop where
  | same (text : List Char) : Exchanged text text
  | word {front word word' rest rest' : List Char} (hfront : EndsApart front)
    (hword : IsRosterWord word) (hword' : IsRosterWord word')
    (hend : ∀ c ∈ rest.head?, isWordChar c = false) (h : Exchanged rest rest') :
    Exchanged (front ++ word ++ rest) (front ++ word' ++ rest')

/-- Such a word starts with a letter. -/
theorem IsRosterWord.exists_letter {word : List Char} (h : IsRosterWord word) :
    ∃ c cs, word = c :: cs ∧ Text.isLetter c = true := by
  obtain ⟨s, -, hlexeme⟩ := h
  cases hlexeme with
  | symbol h =>
    have hsigns := mem_signs_of_symbol? h
    simp [signs] at hsigns
  | word hc => exact ⟨_, _, rfl, hc⟩

/-- **Scanning comes to a word for the roster** and goes on behind it, unless the text before the
word is refused. -/
theorem scanFrom_rosterWord {front word rest : List Char} (hfront : EndsApart front)
    (hword : IsRosterWord word) (hend : ∀ c ∈ rest.head?, isWordChar c = false) :
    ∃ s : Scope, s.plain = .character ∧ ∀ position,
      scanFrom position (front ++ word ++ rest) = (do
        let ts ← scanFrom position front
        return ts ++ .scope s :: (← scanFrom (position + byteLength (front ++ word)) rest)) := by
  obtain ⟨d, others, rfl, hd⟩ := hword.exists_letter
  obtain ⟨s, hs, hlexeme⟩ := hword
  have hplain : s.plain = .character := by
    cases s with
    | character => rfl
    | party => rfl
    | encounter => cases hs
    | session => cases hs
  refine ⟨s, hplain, fun position => ?_⟩
  rw [List.append_assoc, List.cons_append, scanFrom_append_word hfront hd, ← List.cons_append,
    scanFrom_lexeme hlexeme hend, byteLength_append, Nat.add_assoc]
  cases scanFrom position front with
  | error e => rfl
  | ok ts => cases scanFrom (position + (byteLength front + byteLength (d :: others))) rest <;> rfl

namespace Exchanged

variable {cs cs' : List Char}

/-- The word at the front of a text ends where it does with other words in the text. -/
theorem ends (h : Exchanged cs cs') (hend : ∀ c ∈ cs.head?, isWordChar c = false) :
    ∀ c ∈ cs'.head?, isWordChar c = false := by
  cases h with
  | same => exact hend
  | @word front word word' rest rest' _ hword =>
    obtain ⟨d, others, rfl, hd⟩ := hword.exists_letter
    cases front with
    | nil => exact absurd (hend d rfl) (by simp [isWordChar, hd])
    | cons c front => exact hend

/-- A text with a word in it is not blank. -/
theorem all_isBlank_eq (h : Exchanged cs cs') : cs.all Text.isBlank = cs'.all Text.isBlank := by
  cases h with
  | same => rfl
  | word hfront hword hword' =>
    obtain ⟨c, others, rfl, hc⟩ := hword.exists_letter
    obtain ⟨c', others', rfl, hc'⟩ := hword'.exists_letter
    simp [Text.isBlank_of_isLetter hc, Text.isBlank_of_isLetter hc']

/-- **Texts that differ in words for the roster spell the same tokens** but for those words, or are
refused alike. -/
theorem scanFrom_agree {R : Scope → Scope → Prop} {P : Nat → Nat → Prop} {p q : Nat}
    (h : Exchanged cs cs')
    (hP : ∀ front front' behind behind', cs = front ++ behind → cs' = front' ++ behind' →
      Exchanged front front' → P (p + byteLength front) (q + byteLength front')) :
    Agree (Error.Alike R P) (List.Forall₂ (Token.Alike fun s s' => s.plain = s'.plain))
      (scanFrom p cs) (scanFrom q cs') := by
  have hsame : ∀ ts : List Token,
      List.Forall₂ (Token.Alike fun s s' => s.plain = s'.plain) ts ts := fun ts =>
    List.forall₂_same.mpr fun t _ =>
      Token.alike_refl (R := fun s s' => s.plain = s'.plain) (fun _ => rfl) t
  induction h generalizing p q with
  | same text =>
    have hshift : Shifts P p q text := fun front behind h =>
      hP front front behind behind h h (.same front)
    refine (Condition.scanFrom_agree hshift).mono ?_
    rintro ts _ rfl
    exact hsame ts
  | @word front word word' rest rest' hfront hword hword' hend h ih =>
    obtain ⟨s, hs, hscan⟩ := scanFrom_rosterWord hfront hword hend
    obtain ⟨s', hs', hscan'⟩ := scanFrom_rosterWord hfront hword' (h.ends hend)
    have hshift : Shifts P p q front := by
      rintro f b rfl
      exact hP f f (b ++ word ++ rest) (b ++ word' ++ rest') (by simp) (by simp) (.same f)
    rw [hscan, hscan']
    refine (Condition.scanFrom_agree hshift).bind fun ts ts' hts => ?_
    obtain rfl : ts = ts' := hts
    refine (ih ?_).map fun us us' hus =>
      List.rel_append (hsame ts) (.cons (.scope (hs.trans hs'.symm)) hus)
    rintro f f' b b' rfl rfl hff
    have hends : ∀ c ∈ f.head?, isWordChar c = false := by
      cases f with
      | nil => simp
      | cons c f => exact hend
    have hplace := hP (front ++ word ++ f) (front ++ word' ++ f') b b' (by simp) (by simp)
      (.word hfront hword hword' hends hff)
    rwa [byteLength_append (front ++ word), byteLength_append (front ++ word'), ← Nat.add_assoc,
      ← Nat.add_assoc] at hplace

end Exchanged

/-! ### Scripts in other words -/

/-- The place `p` in a script and the place `p'` in the other are the same: what stands before them
differs in words for the roster alone. Places are counted in bytes, so `p'` lies as much further on
as those words are longer. -/
def SamePlace (script script' : String) (p p' : Nat) : Prop :=
  ∃ front front' behind behind', script.toList = front ++ behind ∧
    script'.toList = front' ++ behind' ∧ Exchanged front front' ∧
    p = byteLength front ∧ p' = byteLength front'

/-- The scopes are the words of both scripts for one of their scopes: they are named by tokens that
stand in the same place of the rows that the scripts spell, and are the same unless both look at the
roster. -/
def SameScope (script script' : String) (s s' : Scope) : Prop :=
  s.plain = s'.plain ∧ ∃ ts ts', Token.scan script = .ok ts ∧ Token.scan script' = .ok ts' ∧
    (Token.scope s, Token.scope s') ∈ ts.zip ts'

/-- Errors that scripts in different words for the roster are refused with. -/
def ToldAlike (script script' : String) (e e' : Error) : Prop :=
  e.Alike (SameScope script script') (SamePlace script script') e'

theorem Scope.hasStats_eq_of_plain_eq {s s' : Scope} (h : s.plain = s'.plain) :
    s.hasStats = s'.hasStats := by
  cases s <;> cases s' <;> first | rfl | cases h

namespace Exchanged

variable {script script' : String}

/-- **Scripts that differ in words for the roster spell the same tree**, but for its scopes, or are
refused alike. -/
theorem parse_agree (h : Exchanged script.toList script'.toList) :
    Agree (ToldAlike script script') Tree.Reworded (parse script) (parse script') := by
  have hscan : Agree (ToldAlike script script')
      (List.Forall₂ (Token.Alike fun s s' => s.plain = s'.plain))
      (Token.scan script) (Token.scan script') := by
    refine h.scanFrom_agree fun front front' behind behind' hf hf' hfront => ?_
    rw [Nat.zero_add, Nat.zero_add]
    exact ⟨front, front', behind, behind', hf, hf', hfront, rfl, rfl⟩
  rw [parse, parse, Token.ofScript, Token.ofScript]
  generalize hts : Token.scan script = scanned at hscan
  generalize hts' : Token.scan script' = scanned' at hscan
  cases hscan with
  | error h => exact .error h
  | @ok ts ts' hrow =>
    -- Tokens in the same place are alike, and name scopes of the same place.
    have hrow' : List.Forall₂ (Token.Alike (SameScope script script')) ts ts' := by
      obtain ⟨hlength, hzip⟩ := List.forall₂_iff_zip.mp hrow
      refine List.forall₂_iff_zip.mpr ⟨hlength, fun {t t'} hmem => ?_⟩
      cases hzip hmem with
      | scope hs => exact .scope ⟨hs, ts, ts', hts, hts', hmem⟩
      | same ht => exact .same ht
    refine (Token.foldPhrases_alike hrow').bind fun us us' hus => ?_
    have hstats : ∀ s s', SameScope script script' s s' → s.hasStats = s'.hasStats :=
      fun s s' hs => Scope.hasStats_eq_of_plain_eq hs.1
    exact (Tree.ofTokens_alike hstats hus).mono fun t t' ht => ht.reworded fun _ _ hs => hs.1

/-- **On a roster of one** they say the same. -/
theorem evaluate_agree (h : Exchanged script.toList script'.toList) {d : GameData}
    (hone : d.characters.length = 1) :
    Agree (ToldAlike script script') Eq (evaluate script d) (evaluate script' d) := by
  have hblank : Text.isBlankText script = Text.isBlankText script' := h.all_isBlank_eq
  rw [evaluate, evaluate, hblank]
  split
  · exact .ok rfl
  · exact h.parse_agree.map fun t t' ht => ht.holds_eq hone

end Exchanged

end Adventure.Condition
