import Adventure.Proofs.Effect.Quotes
import Adventure.Proofs.Text.Lowercase

/-!
Effect lines as authors spell them: stat changes and traits in any order, with blanks between one and
the next (`SpelledLine`). A stat may be written with any of its words in any case, a value with zeros
in front, and blanks may stand around a sign.

`ofLine_spelled` is the result: such a line brings exactly what is spelled there, and has no issues.
What it takes is that no name of a trait holds what looks like a stat change (`HoldsChange`), since
the search for stat changes goes through names too.
-/

namespace Adventure.Effect

/-! ### What looks like a stat change -/

/-- A word, a sign and a digit, perhaps behind a minus sign, with blanks on either side of the first
sign or without. -/
inductive LooksLikeChange : List Char → Prop
  | intro {word before behind minus : List Char} {sign : Sign} {digit : Char} (hword : word ≠ [])
    (hall : word.all isAsciiLetter = true) (hbefore : before.all Text.isAsciiBlank = true)
    (hbehind : behind.all Text.isAsciiBlank = true) (hminus : minus = [] ∨ minus = ['-'])
    (hdigit : digit.isDigit = true) :
    LooksLikeChange (word ++ before ++ sign.char :: (behind ++ minus ++ [digit]))

/-- Whether some part of a text looks like a stat change. -/
def HoldsChange (cs : List Char) : Prop := ∃ part, LooksLikeChange part ∧ part <:+: cs

theorem Sign.char_of_ofChar? {c : Char} {sign : Sign} (h : ofChar? c = some sign) :
    c = sign.char := by
  unfold ofChar? at h
  split at h
  · cases h
    rfl
  · cases h
    rfl
  · cases h
    rfl
  · cases h

/-- The minus sign that is taken from the front of a number, and the rest of the number. -/
theorem cut_minus (number : List Char) :
    ((number.takeWhile (· = '-')).take 1 = [] ∨ (number.takeWhile (· = '-')).take 1 = ['-']) ∧
      number = (number.takeWhile (· = '-')).take 1 ++
        number.drop ((number.takeWhile (· = '-')).take 1).length := by
  cases number with
  | nil => exact ⟨Or.inl rfl, rfl⟩
  | cons c cs =>
    by_cases hdash : c = '-'
    · subst hdash
      exact ⟨Or.inr rfl, rfl⟩
    · have htake : (c :: cs).takeWhile (· = '-') = [] :=
        List.takeWhile_cons_of_neg (by simp [hdash])
      rw [htake]
      exact ⟨Or.inl rfl, rfl⟩

/-- The search for stat changes finds nothing else than what looks like one. -/
theorem looksLikeChange_of_statFind? {cs behind : List Char} {find : StatFind}
    (h : statFind? cs = some (find, behind)) : ∃ part, LooksLikeChange part ∧ part <+: cs := by
  unfold statFind? at h
  simp only at h
  split at h
  · cases h
  rename_i c behindSign hbehindWord
  split at h
  · cases h
  rename_i sign hsign
  split at h
  · cases h
  rename_i hparts
  obtain ⟨hword, hdigits⟩ := not_or.mp hparts
  obtain ⟨hminus, hnumber⟩ := cut_minus (behindSign.dropWhile Text.isAsciiBlank)
  generalize ((behindSign.dropWhile Text.isAsciiBlank).takeWhile (· = '-')).take 1 = minus
    at hdigits hminus hnumber
  obtain ⟨digit, digits, hcons⟩ := List.exists_cons_of_ne_nil hdigits
  have hdigit : digit.isDigit = true := List.mem_takeWhile_imp (hcons ▸ List.mem_cons_self)
  -- From the digit back to the word, what is found stands at the front of what is left there.
  have hfirst : minus ++ [digit] <+: behindSign.dropWhile Text.isAsciiBlank := by
    rw [hnumber, List.prefix_append_right_inj]
    refine List.IsPrefix.trans ?_ (List.takeWhile_prefix Char.isDigit)
    rw [hcons]
    exact ⟨digits, rfl⟩
  have hbehindSign := Text.takeWhile_append_prefix hfirst
  have hfromSign : c :: (behindSign.takeWhile Text.isAsciiBlank ++ (minus ++ [digit])) <+:
      (cs.dropWhile isAsciiLetter).dropWhile Text.isAsciiBlank := by
    rw [hbehindWord, List.prefix_cons_inj]
    exact hbehindSign
  have hwhole := Text.takeWhile_append_prefix (Text.takeWhile_append_prefix hfromSign)
  rw [Sign.char_of_ofChar? hsign, ← List.append_assoc, ← List.append_assoc] at hwhole
  exact ⟨_, .intro hword List.all_takeWhile List.all_takeWhile List.all_takeWhile hminus hdigit,
    hwhole⟩

theorem statFinds_of_not_holdsChange {cs : List Char} (h : ¬ HoldsChange cs) :
    statFinds cs = [] := by
  rw [isSearch_statFinds.eq_end]
  · exact statFinds.eq_1
  · intro part hpart
    cases hfind : statFind? part with
    | none => rfl
    | some found =>
      obtain ⟨text, hlooks, hprefix⟩ := looksLikeChange_of_statFind? hfind
      exact absurd ⟨text, hlooks, hprefix.isInfix.trans hpart.isInfix⟩ h

/-- Where no digit stands, no stat change does. -/
theorem not_holdsChange_of_no_digit {cs : List Char} (h : cs.any Char.isDigit = false) :
    ¬ HoldsChange cs := by
  rintro ⟨part, hlooks, hpart⟩
  cases hlooks with
  | intro _ _ _ _ _ hdigit =>
    have hmem := hpart.subset (List.mem_append_right _ (List.mem_cons_of_mem _
      (List.mem_append_right _ List.mem_cons_self)))
    exact List.any_eq_false.mp h _ hmem hdigit

/-! ### Words in any case -/

theorem isAsciiLetter_of_toLower {c : Char} (h : isAsciiLetter c.toLower = true) :
    isAsciiLetter c = true := by
  by_cases hcapital : 65 ≤ c.toNat ∧ c.toNat ≤ 90
  · unfold isAsciiLetter Char.isAlpha Char.isUpper
    simp only [Bool.or_eq_true, decide_eq_true_eq, UInt32.le_iff_toNat_le, ge_iff_le]
    exact Or.inl hcapital
  · rwa [Text.toLower_of_toNat (by omega)] at h

theorem all_isAsciiLetter_of_asciiLower {cs : List Char}
    (h : (Text.asciiLower cs).all isAsciiLetter = true) : cs.all isAsciiLetter = true := by
  rw [List.all_eq_true] at h ⊢
  exact fun c hc => isAsciiLetter_of_toLower (h _ (List.mem_map_of_mem hc))

/-- Every word for a stat is made of letters and names that stat only. -/
theorem word_of_mem_words {word : String} {stat : Stat} (h : (word, stat) ∈ Stat.words) :
    word.toList ≠ [] ∧ word.toList.all isAsciiLetter = true ∧
      Stat.words.lookup word = some stat := by
  have hall : ∀ p ∈ Stat.words, p.1.toList ≠ [] ∧ p.1.toList.all isAsciiLetter = true ∧
      Stat.words.lookup p.1 = some p.2 := by decide
  exact hall _ h

/-! ### How a line is spelled -/

/-- Whether digits, perhaps behind a minus sign, stand for a score. -/
inductive WritesScore : List Char → Score → Prop
  | plain {ds : List Char} {n : Score} (hne : ds ≠ []) (hds : ds.all Char.isDigit = true)
    (hn : n.val = Decimal.value ds) : WritesScore ds n
  | negative {ds : List Char} {n : Score} (hne : ds ≠ []) (hds : ds.all Char.isDigit = true)
    (hn : n.val = -(Decimal.value ds : Int)) : WritesScore ('-' :: ds) n

/-- A stat change as it is spelled: one of the words for the stat in any case, a sign and a score,
with blanks on either side of the sign or without. -/
inductive ChangeText (stat : Stat) (sign : Sign) (n : Score) : List Char → Prop
  | intro {word before behind value : List Char}
    (hword : (String.ofList (Text.asciiLower word), stat) ∈ Stat.words)
    (hbefore : before.all Text.isAsciiBlank = true) (hbehind : behind.all Text.isAsciiBlank = true)
    (hvalue : WritesScore value n) :
    ChangeText stat sign n (word ++ before ++ sign.char :: (behind ++ value))

/-- What a part of an effect line means. -/
inductive Meaning where
  | change (c : StatChange)
  | grant (owner : TraitOwner) (name : String)
deriving DecidableEq, Repr

namespace Meaning

/-- How a part of an effect line is spelled. A plus sign adds the score, a minus sign adds its
negative, stopped at the limits, and the equals sign sets the score. A trait has the word for its
owner in any case in front, and a name in quotes that holds neither a quotation mark nor what looks
like a stat change. -/
inductive SpelledAs : Meaning → List Char → Prop
  | adds {stat : Stat} {n : Score} {cs : List Char} (h : ChangeText stat .plus n cs) :
    SpelledAs (.change ⟨stat, n, true⟩) cs
  | takes {stat : Stat} {n : Score} {cs : List Char} (h : ChangeText stat .minus n cs) :
    SpelledAs (.change ⟨stat, Score.clamp (-n.val), true⟩) cs
  | sets {stat : Stat} {n : Score} {cs : List Char} (h : ChangeText stat .equals n cs) :
    SpelledAs (.change ⟨stat, n, false⟩) cs
  | grants {owner : TraitOwner} {scope before behind name : List Char}
    (hscope : Text.asciiLower scope = owner.word.toList)
    (hbefore : before.all Text.isAsciiBlank = true) (hbehind : behind.all Text.isAsciiBlank = true)
    (hname : '"' ∉ name) (hquiet : ¬ HoldsChange name) :
    SpelledAs (.grant owner (String.ofList name))
      (scope ++ before ++ '+' :: (behind ++ '"' :: (name ++ ['"'])))

/-- The stat change that is meant, if it is one. -/
def change? : Meaning → Option StatChange
  | change c => some c
  | grant _ _ => none

/-- The trait that is meant, with its owner, if it is one. -/
def grant? : Meaning → Option (TraitOwner × String)
  | change _ => none
  | grant owner name => some (owner, name)

end Meaning

/-- A line of parts that are spelled one after another, with blanks between one and the next. -/
inductive SpelledLine : List Meaning → List Char → Prop
  | nil : SpelledLine [] []
  | cons {m : Meaning} {ms : List Meaning} {cs gap rest : List Char} (h : m.SpelledAs cs)
    (hgap : gap.all Text.isAsciiBlank = true) (hne : gap = [] → ms = [])
    (hrest : SpelledLine ms rest) : SpelledLine (m :: ms) (cs ++ (gap ++ rest))

/-- The names of the traits that are meant for an owner. -/
def namesFor (owner : TraitOwner) (ms : List Meaning) : List String :=
  (ms.filterMap Meaning.grant?).filterMap fun p => if p.1 = owner then some p.2 else none

/-- The effect that is meant: the stat changes in order, and the traits of each owner in order. -/
def effectOf (ms : List Meaning) : Effect where
  statChanges := ms.filterMap Meaning.change?
  characterTraits := namesFor .character ms
  encounterTraits := namesFor .encounter ms
  sessionTraits := namesFor .session ms

/-! ### What is found of one part -/

namespace WritesScore

variable {value : List Char} {n : Score}

theorem isNumber (h : WritesScore value n) : IsNumber value := by
  cases h with
  | plain hne hds _ => exact ⟨[], value, rfl, Or.inl rfl, hne, hds⟩
  | @negative ds _ hne hds _ => exact ⟨['-'], ds, rfl, Or.inr rfl, hne, hds⟩

theorem read? (h : WritesScore value n) : (Decimal.read? value).bind Score.ofInt? = some n := by
  cases h with
  | plain hne hds hn =>
    rw [Decimal.read?_of_digits hne hds, Option.bind_some, ← hn, Score.ofInt?_val]
  | negative hne hds hn =>
    rw [Decimal.read?, if_pos ⟨hne, hds⟩, Option.bind_some, ← hn, Score.ofInt?_val]

end WritesScore

/-- In front of a value, or of the name of a trait, stand letters, blanks and a sign. -/
theorem mem_front {word before behind : List Char} {sign c : Char}
    (hword : (Text.asciiLower word).all isAsciiLetter = true)
    (hbefore : before.all Text.isAsciiBlank = true) (hbehind : behind.all Text.isAsciiBlank = true)
    (hc : c ∈ word ++ before ++ sign :: behind) :
    isAsciiLetter c = true ∨ Text.isAsciiBlank c = true ∨ c = sign := by
  rcases List.mem_append.mp hc with hc | hc
  · rcases List.mem_append.mp hc with hc | hc
    · exact Or.inl (List.all_eq_true.mp (all_isAsciiLetter_of_asciiLower hword) c hc)
    · exact Or.inr (Or.inl (List.all_eq_true.mp hbefore c hc))
  · rcases List.mem_cons.mp hc with rfl | hc
    · exact Or.inr (Or.inr rfl)
    · exact Or.inr (Or.inl (List.all_eq_true.mp hbehind c hc))

namespace ChangeText

variable {stat : Stat} {sign : Sign} {n : Score} {cs : List Char}

/-- The search for stat changes finds what a stat change means. -/
theorem exists_find (h : ChangeText stat sign n cs) {rest : List Char}
    (hrest : ∀ c ∈ rest.head?, c.isDigit = false) :
    ∃ find, statFinds (cs ++ rest) = find :: statFinds rest ∧
      find.change = .ok (sign.change stat n) := by
  cases h with
  | @intro word before behind value hword hbefore hbehind hvalue =>
    obtain ⟨hne, hall, hlookup⟩ := word_of_mem_words hword
    rw [String.toList_ofList] at hne hall
    have hwordNe : word ≠ [] := by
      rintro rfl
      exact hne rfl
    have hstat : Stat.ofWord? (String.ofList word) = some stat := by
      rw [Stat.ofWord?, String.toList_ofList]
      exact hlookup
    refine ⟨_, isSearch_statFinds.of_some (statFind?_stat hwordNe
      (all_isAsciiLetter_of_asciiLower hall) hbefore sign hbehind hvalue.isNumber hrest), ?_⟩
    simp only [StatFind.change, hstat, hvalue.read?]

/-- The search for traits passes over a stat change. -/
theorem traitFinds_append (h : ChangeText stat sign n cs) (rest : List Char) :
    traitFinds (cs ++ rest) = traitFinds rest := by
  cases h with
  | @intro word before behind value hword hbefore hbehind hvalue =>
    obtain ⟨-, hall, -⟩ := word_of_mem_words hword
    rw [String.toList_ofList] at hall
    have hquote : '"' ∉ word ++ before ++ sign.char :: behind := by
      intro hmem
      rcases mem_front hall hbefore hbehind hmem with hc | hc | hc
      · exact absurd hc (by decide)
      · exact absurd hc (by decide)
      · cases sign <;> exact absurd hc (by decide)
    have hassoc : word ++ before ++ sign.char :: (behind ++ value) =
        word ++ before ++ sign.char :: behind ++ value := by simp
    rw [hassoc]
    exact traitFinds_number hquote hvalue.isNumber rest

end ChangeText

theorem letters_of_scope {scope : List Char} {owner : TraitOwner}
    (h : Text.asciiLower scope = owner.word.toList) :
    (Text.asciiLower scope).all isAsciiLetter = true := by
  rw [h]
  cases owner <;> decide

/-- A trait belongs to the owner whose word stands in front of it, in whatever case. -/
theorem owner_of_asciiLower {scope name : List Char} {owner : TraitOwner}
    (h : Text.asciiLower scope = owner.word.toList) :
    (⟨scope, name⟩ : TraitFind).owner = .ok owner := by
  have hword : String.ofList (Text.asciiLower scope) = owner.word := by
    rw [h, String.ofList_toList]
  cases owner with
  | character =>
    have hscope : scope = [] := List.map_eq_nil_iff.mp h
    rw [TraitFind.owner, if_pos hscope]
  | encounter =>
    have hscope : scope ≠ [] := by
      rintro rfl
      cases h
    rw [TraitFind.owner, if_neg hscope]
    simp only [hword]
    rfl
  | session =>
    have hscope : scope ≠ [] := by
      rintro rfl
      cases h
    rw [TraitFind.owner, if_neg hscope]
    simp only [hword]
    rfl

namespace Meaning.SpelledAs

variable {m : Meaning} {cs : List Char}

/-- The search for stat changes finds of a part what it means, if it is a stat change, and goes on
behind it. -/
theorem statFinds_append (h : m.SpelledAs cs) {rest : List Char}
    (hrest : ∀ c ∈ rest.head?, c.isDigit = false) :
    (statFinds (cs ++ rest)).map StatFind.change =
      m.change?.toList.map .ok ++ (statFinds rest).map StatFind.change := by
  have hchange : ∀ {stat sign n}, ChangeText stat sign n cs →
      (statFinds (cs ++ rest)).map StatFind.change =
        .ok (sign.change stat n) :: (statFinds rest).map StatFind.change := by
    intro stat sign n h
    obtain ⟨find, hfinds, hfind⟩ := h.exists_find hrest
    rw [hfinds, List.map_cons, hfind]
  cases h with
  | adds h => exact hchange h
  | takes h => exact hchange h
  | sets h => exact hchange h
  | @grants owner scope before behind name hscope hbefore hbehind hname hquiet =>
    have hall := letters_of_scope hscope
    have hdigit : (scope ++ before ++ '+' :: behind).any Char.isDigit = false := by
      rw [List.any_eq_false]
      intro c hmem hdigit
      rcases mem_front hall hbefore hbehind hmem with hc | hc | rfl
      · exact absurd (hc.symm.trans (isAsciiLetter_of_isDigit hdigit)) (by decide)
      · exact absurd (hc.symm.trans (Text.isAsciiBlank_of_isDigit hdigit)) (by decide)
      · exact absurd hdigit (by decide)
    have hassoc : scope ++ before ++ '+' :: (behind ++ '"' :: (name ++ ['"'])) ++ rest =
        scope ++ before ++ '+' :: behind ++ '"' :: (name ++ '"' :: rest) := by simp
    rw [hassoc, statFinds_append_quote, statFinds_append_quote,
      statFinds_of_not_holdsChange (not_holdsChange_of_no_digit hdigit),
      statFinds_of_not_holdsChange hquiet]
    rfl

/-- The search for traits finds of a part what it means, if it is a trait, and goes on behind it. -/
theorem traitFinds_append (h : m.SpelledAs cs) (rest : List Char) :
    ∃ finds, traitFinds (cs ++ rest) = finds ++ traitFinds rest ∧
      finds.map (fun f => (f.owner, String.ofList f.name)) =
        m.grant?.toList.map fun p => (.ok p.1, p.2) := by
  cases h with
  | adds h => exact ⟨[], h.traitFinds_append rest, rfl⟩
  | takes h => exact ⟨[], h.traitFinds_append rest, rfl⟩
  | sets h => exact ⟨[], h.traitFinds_append rest, rfl⟩
  | @grants owner scope before behind name hscope hbefore hbehind hname hquiet =>
    have hall := letters_of_scope hscope
    have hfind := traitFind?_trait (all_isAsciiLetter_of_asciiLower hall) hbefore hbehind hname rest
    have hassoc : scope ++ before ++ '+' :: (behind ++ '"' :: (name ++ ['"'])) ++ rest =
        scope ++ before ++ '+' :: (behind ++ '"' :: (name ++ '"' :: rest)) := by simp
    refine ⟨[⟨scope, name⟩], ?_, ?_⟩
    · rw [hassoc]
      exact isSearch_traitFinds.of_some hfind
    · rw [List.map_singleton, owner_of_asciiLower hscope]
      rfl

end Meaning.SpelledAs

/-! ### What is found of a line -/

namespace SpelledLine

variable {ms : List Meaning} {cs : List Char}

/-- **Each search finds what is meant of its kind, in order.** -/
theorem finds (h : SpelledLine ms cs) :
    (statFinds cs).map StatFind.change = (ms.filterMap Meaning.change?).map .ok ∧
      (traitFinds cs).map (fun f => (f.owner, String.ofList f.name)) =
        (ms.filterMap Meaning.grant?).map fun p => (.ok p.1, p.2) := by
  induction h with
  | nil => exact ⟨by rw [statFinds]; rfl, by rw [traitFinds]; rfl⟩
  | @cons m ms cs gap rest h hgap hne hrest ih =>
    obtain ⟨hstats, htraits⟩ := ih
    -- A value ends at the blank behind it, or at the end of the line.
    have hend : ∀ c ∈ (gap ++ rest).head?, c.isDigit = false := by
      intro c hc
      cases gap with
      | nil =>
        obtain rfl := hne rfl
        cases hrest
        cases hc
      | cons b gap =>
        cases hc
        rw [List.all_cons, Bool.and_eq_true] at hgap
        rw [← Bool.not_eq_true]
        intro hdigit
        exact absurd (hgap.1.symm.trans (Text.isAsciiBlank_of_isDigit hdigit)) (by decide)
    constructor
    · rw [h.statFinds_append hend, statFinds_blanks hgap, hstats]
      cases hchange : m.change? <;> simp [hchange]
    · obtain ⟨finds, hfinds, hgrant⟩ := h.traitFinds_append (gap ++ rest)
      rw [hfinds, traitFinds_blanks hgap, List.map_append, hgrant, htraits]
      cases hgrants : m.grant? <;> simp [hgrants]

end SpelledLine

/-- The traits of an owner are seen from the owners and the names of what is found. -/
theorem traitsOf_eq_filterMap (owner : TraitOwner) (finds : List TraitFind) :
    traitsOf owner finds =
      (finds.map fun f => (f.owner, String.ofList f.name)).filterMap fun p =>
        match p.1 with
        | .ok o => if o = owner then some p.2 else none
        | .error _ => none := by
  rw [traitsOf, List.filterMap_map]
  rfl

/-- **A line that is spelled part by part means the parts, and has no issues**: the stat changes come
in order and so do the traits of each owner, however the one kind stands between the other. -/
theorem ofLine_spelled {ms : List Meaning} {cs : List Char} (h : SpelledLine ms cs) :
    ofLine (String.ofList cs) = (effectOf ms, []) := by
  obtain ⟨hstats, htraits⟩ := h.finds
  have hnames : ∀ owner, traitsOf owner (traitFinds cs) = namesFor owner ms := by
    intro owner
    rw [traitsOf_eq_filterMap, htraits, List.filterMap_map]
    rfl
  have howners : (traitFinds cs).map TraitFind.owner =
      (ms.filterMap Meaning.grant?).map fun p => .ok p.1 := by
    have hfst := congrArg (List.map Prod.fst) htraits
    rw [List.map_map, List.map_map] at hfst
    exact hfst
  rw [ofLine, String.toList_ofList, hstats, howners]
  simp only [hnames]
  simp [issuesOf, effectOf, Function.comp_def, Except.toOption]

/-- Stat changes and traits in turn. The negative of the least score stops at the greatest. -/
theorem ofLine_spelled_in_turn :
    ofLine "STR+5  +\"Lone Wolf\" wil - -2147483648 Session+ \"Alarm\" swagger=-007" =
      ({ statChanges := [⟨.strength, ⟨5, by decide, by decide⟩, true⟩,
          ⟨.willpower, .greatest, true⟩, ⟨.charisma, ⟨-7, by decide, by decide⟩, false⟩]
         characterTraits := ["Lone Wolf"]
         encounterTraits := []
         sessionTraits := ["Alarm"] }, []) := by
  have hadd : ChangeText .strength .plus ⟨5, by decide, by decide⟩ "STR+5".toList :=
    @ChangeText.intro _ _ _ "STR".toList [] [] "5".toList (by decide) rfl rfl
      (.plain (by decide) (by decide) (by decide))
  have htake : ChangeText .willpower .minus .least "wil - -2147483648".toList :=
    @ChangeText.intro _ _ _ "wil".toList [' '] [' '] "-2147483648".toList (by decide) rfl rfl
      (@WritesScore.negative "2147483648".toList _ (by decide) (by decide) (by decide))
  have hset : ChangeText .charisma .equals ⟨-7, by decide, by decide⟩ "swagger=-007".toList :=
    @ChangeText.intro _ _ _ "swagger".toList [] [] "-007".toList (by decide) rfl rfl
      (@WritesScore.negative "007".toList _ (by decide) (by decide) (by decide))
  have hwolf : (Meaning.grant .character "Lone Wolf").SpelledAs "+\"Lone Wolf\"".toList :=
    @Meaning.SpelledAs.grants _ [] [] [] "Lone Wolf".toList rfl rfl rfl (by decide)
      (not_holdsChange_of_no_digit (by decide))
  have halarm : (Meaning.grant .session "Alarm").SpelledAs "Session+ \"Alarm\"".toList :=
    @Meaning.SpelledAs.grants _ "Session".toList [] [' '] "Alarm".toList rfl rfl rfl (by decide)
      (not_holdsChange_of_no_digit (by decide))
  have hline : SpelledLine [.change _, .grant _ _, .change _, .grant _ _, .change _]
      ("STR+5".toList ++ ([' ', ' '] ++ ("+\"Lone Wolf\"".toList ++ ([' '] ++
        ("wil - -2147483648".toList ++ ([' '] ++ ("Session+ \"Alarm\"".toList ++ ([' '] ++
          ("swagger=-007".toList ++ ([] ++ [])))))))))) :=
    .cons (.adds hadd) rfl (by decide) (.cons hwolf rfl (by decide)
      (.cons (.takes htake) rfl (by decide) (.cons halarm rfl (by decide)
        (.cons (.sets hset) rfl (fun _ => rfl) .nil))))
  exact ofLine_spelled hline

end Adventure.Effect
