import Adventure.Proofs.Record.Ron.Quoted
import Adventure.Proofs.Record.Ron.Row

/-!
The spellings of values in RON (`Written`), and what they start with: never with a gap or a mark
(`Written.starts`), and with the name of a field only if a field is what comes (`run_name_written`).
-/

namespace Adventure.Record.Ron

open Text

/-! ### Spellings -/

/-- The words that are no names. -/
def words : List String := ["true", "false", "None", "Some", "inf", "NaN"]

/-- The spellings of a name that is none of the words with a meaning of their own. -/
structure SpellsTitle (n : String) (t : List Char) : Prop where
  spells : SpellsName n t
  no_word : ∀ w ∈ words, t ≠ w.toList

/-- What may stand in front of the opening parenthesis of a record or a tuple. -/
inductive SpellsHead : Option String → List Char → Prop where
  | none : SpellsHead none []
  | some {n : String} {s g : List Char} : SpellsTitle n s → IsGap g → SpellsHead (some n) (s ++ g)

/-- The spellings of a value that nests up to a number of levels. Whatever holds others takes up one
level, and each thing in it another; `Some` takes up one in all. -/
inductive Written : Value → Nat → List Char → Prop where
  | true {k : Nat} : Written (.bool true) k "true".toList
  | false {k : Nat} : Written (.bool false) k "false".toList
  | none {k : Nat} : Written (.optional none) k "None".toList
  | unit {k : Nat} : Written (.record none []) k "()".toList
  | number {k : Nat} {n : Number} {t : List Char} : SpellsNumber n t →
      Written (.number n) k t
  | char {k : Nat} {c : Char} {t : List Char} : SpellsChar c t → Written (.char c) k t
  | text {k : Nat} {s : String} {t : List Char} : SpellsText s t → Written (.text s) k t
  | name {k : Nat} {n : String} {t : List Char} : SpellsTitle n t → Written (.name n) k t
  | some {k : Nat} {v : Value} {g t : List Char} : IsGap g →
      Row Written ')' [v] k t →
      Written (.optional (some v)) k ("Some".toList ++ (g ++ '(' :: t))
  | list {k : Nat} {vs : List Value} {t : List Char} : Row Written ']' vs k t →
      Written (.list vs) (k + 1) ('[' :: t)
  | map {k : Nat} {es : List (Value × Value)} {t : List Char} :
      Row (Pair Written Written) '\x7d' es k t →
      Written (.map es) (k + 1) ('\x7b' :: t)
  | record {k : Nat} {n : Option String} {fields : List (String × Value)} {s t : List Char} :
      SpellsHead n s → Row (Pair (fun n _ => SpellsName n) Written) ')' fields k t →
      Written (.record n fields) (k + 1) (s ++ '(' :: t)
  | tuple {k : Nat} {n : Option String} {vs : List Value} {s t : List Char} :
      SpellsHead n s → vs ≠ [] → Row Written ')' vs k t →
      Written (.tuple n vs) (k + 1) (s ++ '(' :: t)

/-! ### Words and names in front of values -/

theorem isNameChar_of_startsName {c : Char} (h : startsName c = true) : isNameChar c = true := by
  simp only [startsName, isNameChar, Char.isAlphanum, Bool.or_eq_true] at h ⊢
  exact h.imp_left Or.inl

theorem SpellsName.head {n : String} {t : List Char} (h : SpellsName n t) :
    ∃ c cs, t = c :: cs ∧ startsName c = true := by
  cases h with
  | plain _ hc _ => exact ⟨_, _, rfl, hc⟩
  | raw => exact ⟨_, _, rfl, rfl⟩

theorem words_isNameChar : ∀ w ∈ words, w ≠ "" ∧ w.toList.all isNameChar = true := by decide

theorem words_startsName :
    ∀ w ∈ words, ∀ c ∈ w.toList.head?, startsName c = true ∧ c ≠ 'r' := by
  intro w hw
  have h : ∀ v ∈ words, v.toList.head?.all (fun c => startsName c && c != 'r') = true := by decide
  simpa [Option.all_eq_true] using h w hw

/-- A name is none of the words. -/
theorem SpellsTitle.run_wholeWord {n : String} {t rest : List Char} (h : SpellsTitle n t)
    (hrest : Stops rest) {w : String} (hw : w ∈ words) :
    (wholeWord w).run (t ++ rest) = none := by
  obtain ⟨hne, hall⟩ := words_isNameChar w hw
  have hword := h.no_word w hw
  cases h.spells with
  | @plain c cs hn hc hcs =>
    apply run_wholeWord_of_name hne hall _ hrest hword
    rw [List.all_cons, isNameChar_of_startsName hc, hcs]
    rfl
  | raw => exact run_wholeWord_of_head hne (fun hr => (words_startsName w hw 'r' hr).2 rfl) _

/-- Where no name starts, there is no word either. -/
theorem run_wholeWord_of_not_startsName {c : Char} (hc : startsName c = false) {w : String}
    (hw : w ∈ words) (cs : List Char) : (wholeWord w).run (c :: cs) = none := by
  apply run_wholeWord_of_head (words_isNameChar w hw).1
  intro hhead
  rw [(words_startsName w hw c hhead).1] at hc
  cases hc

theorem run_name_of_not_startsName {c : Char} (hc : startsName c = false) (cs : List Char) :
    name.run (c :: cs) = none := by
  have hr : c ≠ 'r' := by rintro rfl; cases hc
  rw [run_name_cons (fun _ h => absurd h hr) (fun _ h => absurd h hr), hc]
  rfl

/-- The special numbers are words, but for their signs. -/
theorem specials_words : ∀ w ∈ specials,
    w ∈ words ∨ ∃ c, (c = '+' ∨ c = '-') ∧ c ∈ w.toList.head? := by
  intro w hw
  simp only [specials, List.mem_cons, List.not_mem_nil, or_false] at hw
  rcases hw with rfl | rfl | rfl | rfl | rfl | rfl
  · exact Or.inl (by decide)
  · exact Or.inr ⟨'+', Or.inl rfl, rfl⟩
  · exact Or.inr ⟨'-', Or.inr rfl, rfl⟩
  · exact Or.inl (by decide)
  · exact Or.inr ⟨'+', Or.inl rfl, rfl⟩
  · exact Or.inr ⟨'-', Or.inr rfl, rfl⟩

/-! ### What values start with -/

theorem Starts.of_name {n : String} {t : List Char} (h : SpellsName n t) : Starts t := by
  obtain ⟨c, cs, rfl, hc⟩ := h.head
  exact .of_startsName hc cs

theorem SpellsNumber.starts {v : Number} {t : List Char}
    (h : SpellsNumber v t) : Starts t := by
  rcases h.special_or_signed with ⟨w, hw, -, rfl⟩ | ⟨sign, s, c, cs, hs, rfl, hc⟩
  · simp only [specials, List.mem_cons, List.not_mem_nil, or_false] at hw
    rcases hw with rfl | rfl | rfl | rfl | rfl | rfl <;>
      exact .of_not_stop (by decide) (by decide) _
  · cases hs with
    | none => exact .of_startsNumber hc cs
    | plus => exact .of_not_stop (by decide) (by decide) _
    | minus => exact .of_not_stop (by decide) (by decide) _

theorem SpellsHead.starts {n : Option String} {s : List Char} (h : SpellsHead n s)
    (t : List Char) : Starts (s ++ '(' :: t) := by
  cases h with
  | none => exact ⟨'(', t, rfl, by decide, by decide, by decide, by decide⟩
  | some hs _ => exact ((Starts.of_name hs.spells).append _).append _

theorem Written.starts {v : Value} {k : Nat} {t : List Char}
    (h : Written v k t) : Starts t := by
  cases h with
  | true => exact .of_not_stop (by decide) (by decide) _
  | false => exact .of_not_stop (by decide) (by decide) _
  | none => exact .of_not_stop (by decide) (by decide) _
  | unit => exact ⟨'(', _, rfl, by decide, by decide, by decide, by decide⟩
  | number hn => exact hn.starts
  | char hc => cases hc <;> exact .of_not_stop (by decide) (by decide) _
  | text hs => cases hs <;> exact .of_not_stop (by decide) (by decide) _
  | name hn => exact .of_name hn.spells
  | some => exact .of_not_stop (by decide) (by decide) _
  | list => exact .of_not_stop (by decide) (by decide) _
  | map => exact .of_not_stop (by decide) (by decide) _
  | record hn _ => exact hn.starts _
  | tuple hn _ _ => exact hn.starts _

/-! ### Names in front of colons -/

theorem not_startsName_of_startsNumber {c : Char} (h : startsNumber c = true) :
    startsName c = false := by
  rw [startsNumber, Bool.or_eq_true, decide_eq_true_eq] at h
  rcases h with h | rfl
  · have hd := toNat_of_isDigit h
    unfold startsName Char.isAlpha Char.isUpper Char.isLower
    simp only [Bool.or_eq_false_iff, Bool.and_eq_false_iff, decide_eq_false_iff_not, ge_iff_le,
      UInt32.le_iff_toNat_le]
    have hA : 'A'.val.toNat = 65 := rfl
    have ha : 'a'.val.toNat = 97 := rfl
    have hc : c.val.toNat = c.toNat := rfl
    refine ⟨⟨?_, ?_⟩, ?_⟩
    · omega
    · omega
    · rintro rfl
      cases h
  · rfl

/-- A raw text does not start with a name. -/
theorem run_name_rawText {hashes : List Char} (h : hashes.all (· = '#') = true) (cs : List Char) :
    name.run ('r' :: (hashes ++ '"' :: cs)) = none := by
  cases hashes with
  | nil => rfl
  | cons c hashes =>
    rw [List.all_cons, Bool.and_eq_true, decide_eq_true_eq] at h
    obtain ⟨rfl, h⟩ := h
    have hraw : (hashes ++ '"' :: cs).takeWhile isRawNameChar = [] := by
      cases hashes with
      | nil => rfl
      | cons d hashes =>
        rw [List.all_cons, Bool.and_eq_true, decide_eq_true_eq] at h
        rw [h.1]
        rfl
    rw [List.cons_append, Reader.run, name]
    simp only [hraw]
    rfl

theorem run_name_word {w : String} (hw : w ∈ words) {rest : List Char} (h : Stops rest) :
    name.run (w.toList ++ rest) = some (w.toList, rest) := by
  obtain ⟨hne, hall⟩ := words_isNameChar w hw
  cases hlist : w.toList with
  | nil => exact absurd (String.toList_eq_nil_iff.mp hlist) hne
  | cons c cs =>
    rw [hlist, List.all_cons, Bool.and_eq_true] at hall
    exact run_name_plain (words_startsName w hw c (by rw [hlist]; rfl)).1 hall.2 h

/-- Behind a name comes what is behind the value that starts with it, or an opening parenthesis. -/
def OpensOrEnds (rest behind : List Char) : Prop :=
  gap.run behind = gap.run rest ∨ ∃ more, gap.run behind = some ('(' :: more)

theorem run_gap_open {g : List Char} (hg : IsGap g) (cs : List Char) :
    gap.run (g ++ '(' :: cs) = some ('(' :: cs) := by
  rw [run_gap_append hg, run_gap_solid]
  intro c hc
  cases hc
  decide

theorem stops_open {g : List Char} (hg : IsGap g) (cs : List Char) : Stops (g ++ '(' :: cs) := by
  apply hg.stops
  intro c hc
  cases hc
  decide

theorem run_name_head {n : Option String} {s : List Char} (h : SpellsHead n s)
    (cs rest : List Char) : ∀ p ∈ name.run (s ++ '(' :: cs), OpensOrEnds rest p.2 := by
  intro p hp
  cases h with
  | none =>
    rw [List.nil_append, run_name_of_not_startsName rfl] at hp
    cases hp
  | some hs hg =>
    rw [List.append_assoc, run_name hs.spells (stops_open hg cs)] at hp
    cases hp
    exact Or.inr ⟨cs, run_gap_open hg cs⟩

/-- If a name is read off the front of a value, then up to where the value ends or its parenthesis
opens. -/
theorem run_name_written {v : Value} {k : Nat} {t : List Char}
    (h : Written v k t) {rest : List Char} (hrest : Ended rest) :
    ∀ p ∈ name.run (t ++ rest), OpensOrEnds rest p.2 := by
  have hword : ∀ {w : String}, w ∈ words →
      ∀ p ∈ name.run (w.toList ++ rest), OpensOrEnds rest p.2 := by
    intro w hw p hp
    rw [run_name_word hw hrest.stops] at hp
    cases hp
    exact Or.inl rfl
  have hnone : ∀ {c : Char} {cs : List Char}, startsName c = false →
      ∀ p ∈ name.run (c :: cs), OpensOrEnds rest p.2 := by
    intro c cs hc p hp
    rw [run_name_of_not_startsName hc] at hp
    cases hp
  cases h with
  | true => exact hword (by decide)
  | false => exact hword (by decide)
  | none => exact hword (by decide)
  | unit => exact hnone rfl
  | number hn =>
    rcases hn.special_or_signed with ⟨w, hw, -, rfl⟩ | ⟨sign, s, c, cs, hs, rfl, hc⟩
    · rcases specials_words w hw with hw | ⟨c, hc, hhead⟩
      · exact hword hw
      · obtain ⟨cs, hcs⟩ := List.head?_eq_some_iff.mp hhead
        rw [hcs]
        rcases hc with rfl | rfl <;> exact hnone rfl
    · cases hs with
      | none => exact hnone (not_startsName_of_startsNumber hc)
      | plus => exact hnone rfl
      | minus => exact hnone rfl
  | char hc => cases hc <;> exact hnone rfl
  | text hs =>
    cases hs with
    | quoted => exact hnone rfl
    | raw hall _ =>
      intro p hp
      rw [rawText_append, run_name_rawText hall] at hp
      cases hp
  | name hn =>
    intro p hp
    rw [run_name hn.spells hrest.stops] at hp
    cases hp
    exact Or.inl rfl
  | @some k v g t hg _ =>
    intro p hp
    rw [List.append_assoc, List.append_assoc, List.cons_append,
      run_name_word (by decide) (stops_open hg _)] at hp
    cases hp
    exact Or.inr ⟨_, run_gap_open hg _⟩
  | list => exact hnone rfl
  | map => exact hnone rfl
  | record hn _ =>
    rw [List.append_assoc, List.cons_append]
    exact run_name_head hn _ rest
  | tuple hn _ _ =>
    rw [List.append_assoc, List.cons_append]
    exact run_name_head hn _ rest

end Adventure.Record.Ron
