import Adventure.Program.ConditionTest
import Adventure.Proofs.Condition.Grouped
import Adventure.Proofs.Condition.InvalidCharacter
import Adventure.Proofs.Text.Cuts

/-!
The words of the shell's commands are no words of conditions, in whatever case and with whatever
characters they are written: a line that starts with one of them cannot be parsed
(`Command.not_parse_of_lowercase`). So the shell takes every line that can be parsed for the condition
that it is (`condition_not_shadowed`).
-/

namespace Adventure

/-! ### Words that are small letters of ASCII in lower case -/

namespace Text

/-- What comes to a small letter of ASCII is a letter, over each run of capitals. -/
theorem letters_of_capitalRuns : ∀ r ∈ capitalRuns, ∀ d : Nat, d < 26 →
    (r.1 : Int) ≤ 97 + d - r.2.2.2 → 97 + d - r.2.2.2 ≤ r.2.1 →
      inRuns (97 + (d : Int) - r.2.2.2).toNat letters.bounds = true := by
  decide +kernel

/-- A code point that comes to a small letter of ASCII is that of a letter. -/
theorem inRuns_of_smallOffset {n : Nat} (hlow : 97 ≤ n + smallOffset n)
    (hhigh : n + smallOffset n ≤ 122) : inRuns n letters.bounds = true := by
  rw [smallOffset] at hlow hhigh
  split at hlow
  · rename_i first last step offset hrun
    rw [hrun] at hhigh
    simp only at hhigh
    have hmatch := List.find?_some hrun
    simp only [Bool.and_eq_true, decide_eq_true_eq] at hmatch
    have hletter := letters_of_capitalRuns _ (List.mem_of_find?_eq_some hrun)
      (n + offset - 97).toNat (by omega) (by simp only; omega) (by simp only; omega)
    have hn : (97 + ((n + offset - 97).toNat : Int) - offset).toNat = n := by omega
    rwa [hn] at hletter
  · rename_i hnone
    rw [hnone] at hhigh
    simp only at hhigh
    exact inRuns_second (by omega) (by omega) (by omega)

/-- A character is a letter if its lower case is small letters of ASCII. -/
theorem isLetter_of_smallLetters {c : Char} (h : (smallLetters c).all Char.isLower = true) :
    isLetter c = true := by
  rw [smallLetters] at h
  split at h
  · exact absurd h (by decide)
  · rw [List.all_cons, List.all_nil, Bool.and_true] at h
    by_cases hvalid : ((c.toNat : Int) + smallOffset c.toNat).toNat.isValidChar
    · rw [Char.ofNat, dif_pos hvalid] at h
      have hbounds : 97 ≤ ((c.toNat : Int) + smallOffset c.toNat).toNat ∧
          ((c.toNat : Int) + smallOffset c.toNat).toNat ≤ 122 := toNat_of_isLower h
      exact inRuns_of_smallOffset (by omega) (by omega)
    · rw [Char.ofNat, dif_neg hvalid] at h
      exact absurd h (by decide)

theorem isLetter_of_lowercaseAfter {before cs : List Char}
    (h : (lowercaseAfter before cs).all Char.isLower = true) : cs.all isLetter = true := by
  induction cs generalizing before with
  | nil => rfl
  | cons c cs ih =>
    rw [lowercaseAfter, List.all_append, Bool.and_eq_true] at h
    rw [List.all_cons, ih h.2, Bool.and_true]
    have hsmall := h.1
    split at hsmall
    · -- Both small forms of the letter sigma lie outside ASCII.
      split at hsmall
      · exact absurd hsmall (by decide)
      · exact absurd hsmall (by decide)
    · exact isLetter_of_smallLetters hsmall

/-- **A word is letters if its lower case is small letters of ASCII.** -/
theorem isLetter_of_lowercase {cs : List Char} (h : (lowercase cs).all Char.isLower = true) :
    cs.all isLetter = true := isLetter_of_lowercaseAfter h

end Text

/-! ### Command words -/

namespace Program

namespace Command

/-- The words of all commands. -/
def words : List String :=
  ["quit", "exit", "q", "help", "h", "roster", "tokens", "tree", "as"]

/-- The words of commands are small letters of ASCII, and conditions know none of them. -/
theorem words_unknown : ∀ w ∈ words, w.toList ≠ [] ∧ w.toList.all Char.isLower = true ∧
    Condition.Token.ofWord? w = none := by
  decide +kernel

/-- The characters up to the first blank. -/
def firstWord (text : String) : List Char := text.toList.takeWhile fun c => !Text.isBlank c

/-- The first word is the whole line, or what stands before its first blank. -/
theorem splitAtBlank?_cases (text : String) :
    (splitAtBlank? text = none ∧ text.toList = firstWord text) ∨
      ∃ c rest, splitAtBlank? text = some (String.ofList (firstWord text), String.ofList rest) ∧
        text.toList = firstWord text ++ c :: rest ∧ Text.isBlank c = true := by
  cases hsplit : Text.splitAt? Text.isBlank text.toList with
  | none =>
    left
    have hall : firstWord text = text.toList := by
      rw [firstWord, List.takeWhile_eq_self_iff]
      simpa using Text.splitAt?_eq_none_iff.mp hsplit
    exact ⟨by rw [splitAtBlank?, hsplit]; rfl, hall.symm⟩
  | some parts =>
    obtain ⟨front, rest⟩ := parts
    obtain ⟨c, hcs, hc, hfront⟩ := Text.splitAt?_eq_some_iff.mp hsplit
    have hword : firstWord text = front := by
      rw [firstWord, hcs]
      exact Text.takeWhile_run (List.all_eq_true.mpr fun x hx => by simp [hfront x hx])
        (by simp [hc])
    right
    exact ⟨c, rest, by rw [splitAtBlank?, hsplit, hword]; rfl, hword ▸ hcs, hc⟩

/-- A line whose first word is no command is a condition. -/
theorem ofText_eq_condition {text : String}
    (h : String.ofList (Text.lowercase (firstWord text)) ∉ words) :
    ofText text = condition text := by
  simp only [words, List.mem_cons, List.not_mem_nil, or_false, not_or] at h
  unfold ofText
  rcases splitAtBlank?_cases text with ⟨hsplit, htext⟩ | ⟨c, rest, hsplit, -, -⟩
  · rw [hsplit]
    simp only [htext]
    split <;> simp_all
  · rw [hsplit]
    simp only [String.toList_ofList]
    split <;> simp_all

/-- **A line whose first word is a command is no condition**, in whatever way the word is written. -/
theorem not_parse_of_lowercase {text : String}
    (h : String.ofList (Text.lowercase (firstWord text)) ∈ words) (t : Condition.Tree) :
    Condition.parse text ≠ .ok t := by
  obtain ⟨hne, hsmall, hunknown⟩ := words_unknown _ h
  rw [String.toList_ofList] at hne hsmall
  have hletters := Text.isLetter_of_lowercase hsmall
  obtain ⟨c, cs, hword⟩ := List.exists_cons_of_ne_nil (l := firstWord text) (by
    intro hnil
    rw [hnil] at hne
    exact hne rfl)
  rw [hword, List.all_cons, Bool.and_eq_true] at hletters
  have hcs : cs.all Condition.isWordChar = true := by
    refine List.all_eq_true.mpr fun d hd => ?_
    simp [Condition.isWordChar, List.all_eq_true.mp hletters.2 d hd]
  -- The lexeme at the front is the whole first word, because a blank or the end follows it.
  obtain ⟨rest, htext, hrest⟩ : ∃ rest, text.toList = c :: (cs ++ rest) ∧
      ∀ d ∈ rest.head?, Condition.isWordChar d = false := by
    rcases splitAtBlank?_cases text with ⟨-, htext⟩ | ⟨d, rest, -, htext, hd⟩
    · refine ⟨[], by rw [htext, hword, List.append_nil], ?_⟩
      intro e he
      cases he
    · refine ⟨d :: rest, by rw [htext, hword, List.cons_append], ?_⟩
      intro e he
      cases he
      exact Condition.isWordChar_of_isBlank hd
  have hscan : Condition.Token.scan text =
      .error (.unknownWord (String.ofList (Text.lowercase (c :: cs)))) := by
    rw [Condition.Token.scan, htext, Condition.scanFrom_word hletters.1,
      Text.takeWhile_run hcs hrest, Condition.readWord]
    rw [hword] at hunknown
    simp only [hunknown]
    rfl
  rw [Condition.parse, Condition.Token.ofScript, hscan]
  intro hok
  cases hok

end Command

/-! ### Conditions -/

/-- What the shell says of a condition that can be evaluated. -/
def spoken (result : Bool) : String := if result then "true" else "false"

theorem Shell.verdict_of_evaluate {d : GameData} {script : String} {result : Bool}
    (h : Condition.evaluate script d = .ok result) : verdict d script = spoken result := by
  rw [verdict, h]
  cases result <;> rfl

/-- **Commands never shadow a condition.** A line that can be parsed, blanks at its ends apart, is
taken as a condition in full, whatever characters its words are written with. The shell answers with
the result of evaluating it, and goes on. -/
theorem condition_not_shadowed {line : String} {t : Condition.Tree}
    (h : Condition.parse (Text.trimmed line) = .ok t) (d : GameData) :
    Command.ofLine? line = some (.condition (Text.trimmed line)) ∧
      Condition.evaluate (Text.trimmed line) d = .ok (t.holds d) ∧
      Shell.respond d line = ([spoken (t.holds d)], true) ∧
      ∀ rest, ConditionTest.shellOutput d (line :: rest) =
        Shell.prompt ++ spoken (t.holds d) ++ "\n" ++ ConditionTest.shellOutput d rest := by
  have hline : Command.ofLine? line = some (.condition (Text.trimmed line)) := by
    have hne : Text.trimmed line ≠ "" := by
      intro hnil
      rw [hnil, Condition.parse_of_isBlankText rfl] at h
      cases h
    have hword : String.ofList (Text.lowercase (Command.firstWord (Text.trimmed line))) ∉
        Command.words := fun hword => Command.not_parse_of_lowercase hword t h
    rw [Command.ofLine?]
    simp only [hne, if_false, Command.ofText_eq_condition hword]
  have heval := Condition.evaluate_of_parse h d
  have hrespond : Shell.respond d line = ([spoken (t.holds d)], true) := by
    rw [Shell.respond, hline]
    simp [Shell.answer, Shell.verdict_of_evaluate heval]
  refine ⟨hline, heval, hrespond, ?_⟩
  intro rest
  rw [ConditionTest.shellOutput, hrespond]
  simp [Result.ofLines, String.append_assoc]

/-- A condition whose first word is written with the Kelvin sign, with blanks around it. -/
theorem condition_not_shadowed_kelvin :
    let line := " \u212aNO > 1\t"
    let t : Condition.Tree := .phrase (.stat ⟨.knowledge, .greater, ⟨1, by decide, by decide⟩⟩)
    Condition.parse (Text.trimmed line) = .ok t ∧
      Shell.respond {} line = ([spoken (t.holds {})], true) ∧ t.holds {} = false := by
  intro line t
  have hsome : (Condition.parse (Text.trimmed line)).toOption = some t := by decide +kernel
  have hparse : Condition.parse (Text.trimmed line) = .ok t := by
    cases h : Condition.parse (Text.trimmed line) with
    | error e =>
      rw [h] at hsome
      cases hsome
    | ok u =>
      rw [h] at hsome
      cases hsome
      rfl
  exact ⟨hparse, (condition_not_shadowed hparse {}).2.2.1, rfl⟩

end Program

end Adventure
