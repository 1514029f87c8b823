import Adventure.Proofs.Effect.Search
import Adventure.Proofs.Text.Decimal
import Adventure.Proofs.Text.Trim

/-!
Effect lines that are put together from mutations. Each search finds the mutations of its own kind, in
order, and nothing in those of the other kind (`Mutation.finds_line`), so that an effect that is
written as a line is read back (`ofLine_written`).

A search tries every place anew. That a trait brings no stat change therefore asks that none starts
anywhere in its name (`Quiet`).
-/

namespace Adventure.Effect

/-- A part of an effect line. -/
inductive Mutation where
  | stat (word : List Char) (sign : Sign) (value : List Char)
  | trait (scope name : List Char)
deriving DecidableEq, Repr

/-- Whether no stat change starts in a name that stands in quotes. -/
def Quiet (name : List Char) : Prop :=
  ∀ part, part <:+ name → ∀ rest, statFind? (part ++ '"' :: rest) = none

/-- A name without signs is quiet. -/
theorem quiet_of_no_sign {name : List Char} (h : ∀ c ∈ name, Sign.ofChar? c = none) :
    Quiet name := by
  intro part hpart rest
  apply statFind?_of_no_sign
  intro c hc
  rw [Text.dropWhile_append_cons rfl, Text.dropWhile_append_cons rfl] at hc
  cases hleft : (part.dropWhile isAsciiLetter).dropWhile Text.isAsciiBlank with
  | nil =>
    rw [hleft] at hc
    cases hc
    rfl
  | cons c' cs =>
    rw [hleft] at hc
    cases hc
    have hmem : c ∈ (part.dropWhile isAsciiLetter).dropWhile Text.isAsciiBlank :=
      hleft ▸ List.mem_cons_self
    have hsuffix := (List.dropWhile_suffix Text.isAsciiBlank).trans
      ((List.dropWhile_suffix isAsciiLetter).trans hpart)
    exact h c (hsuffix.subset hmem)

namespace Mutation

/-- A mutation as it is written. -/
def text : Mutation → List Char
  | stat word sign value => word ++ sign.char :: value
  | trait scope name => scope ++ '+' :: '"' :: (name ++ ['"'])

/-- Whether a mutation has the parts that it should have. -/
def WellFormed : Mutation → Prop
  | stat word _ value => word ≠ [] ∧ word.all isAsciiLetter = true ∧ IsNumber value
  | trait scope name => scope.all isAsciiLetter = true ∧ '"' ∉ name ∧ Quiet name

/-- Whether a mutation is written on one line. -/
def OneLine : Mutation → Prop
  | stat _ _ _ => True
  | trait _ name => '\n' ∉ name

/-- What the search for stat changes finds in a mutation. -/
def statFind? : Mutation → Option StatFind
  | stat word sign value => some ⟨word, sign, value, word ++ sign.char :: value⟩
  | trait _ _ => none

/-- What the search for traits finds in a mutation. -/
def traitFind? : Mutation → Option TraitFind
  | stat _ _ _ => none
  | trait scope name => some ⟨scope, name⟩

/-- The line that some mutations make up, with a space between two. -/
def line (ms : List Mutation) : List Char := List.intercalate [' '] (ms.map text)

/-! ### One mutation -/

theorem all_of_suffix {p : Char → Bool} {part cs : List Char} (hpart : part <:+ cs)
    (h : cs.all p = true) : part.all p = true :=
  List.all_eq_true.mpr fun c hc => List.all_eq_true.mp h c (hpart.subset hc)

/-- The search for stat changes finds in a mutation what stands there, and goes on behind it. -/
theorem statFinds_text {m : Mutation} (hm : m.WellFormed) {rest : List Char}
    (hrest : ∀ c ∈ rest.head?, c.isDigit = false) :
    statFinds (m.text ++ rest) = m.statFind?.toList ++ statFinds rest := by
  cases m with
  | stat word sign value =>
    obtain ⟨hword, hall, hvalue⟩ := hm
    have hfind := statFind?_stat hword hall (List.all_nil) sign (List.all_nil) hvalue hrest
    rw [List.append_nil, List.nil_append] at hfind
    exact isSearch_statFinds.of_some hfind
  | trait scope name =>
    obtain ⟨hscope, -, hquiet⟩ := hm
    have htext : (trait scope name).text ++ rest =
        scope ++ '+' :: '"' :: (name ++ '"' :: rest) := by
      simp [text]
    rw [htext, isSearch_statFinds.append, isSearch_statFinds.of_none (statFind?_of_no_word rfl _),
      isSearch_statFinds.of_none (statFind?_of_no_word rfl _), isSearch_statFinds.append,
      isSearch_statFinds.of_none (statFind?_of_no_word rfl _)]
    · rfl
    · intro part hpart _
      exact hquiet part hpart rest
    · intro part hpart _
      exact statFind?_of_quote (all_of_suffix hpart hscope) _

/-- The search for traits finds in a mutation what stands there, and goes on behind it. -/
theorem traitFinds_text {m : Mutation} (hm : m.WellFormed) (rest : List Char) :
    traitFinds (m.text ++ rest) = m.traitFind?.toList ++ traitFinds rest := by
  cases m with
  | stat word sign value =>
    obtain ⟨-, hall, hvalue⟩ := hm
    have hquote : '"' ∉ word ++ [sign.char] := by
      intro hmem
      rcases List.mem_append.mp hmem with hmem | hmem
      · exact absurd (List.all_eq_true.mp hall _ hmem) (by decide)
      · cases sign <;> exact absurd hmem (by decide)
    have htext : (stat word sign value).text = word ++ [sign.char] ++ value := by simp [text]
    rw [htext, traitFinds_number hquote hvalue]
    rfl
  | trait scope name =>
    obtain ⟨hscope, hname, -⟩ := hm
    have htext : (trait scope name).text ++ rest =
        scope ++ '+' :: '"' :: (name ++ '"' :: rest) := by
      simp [text]
    have hfind := traitFind?_trait hscope (List.all_nil) (List.all_nil) hname rest
    rw [List.append_nil, List.nil_append] at hfind
    rw [htext]
    exact isSearch_traitFinds.of_some hfind

/-! ### Lines -/

theorem line_cons_cons (m m' : Mutation) (ms : List Mutation) :
    line (m :: m' :: ms) = m.text ++ ' ' :: line (m' :: ms) := by
  simp [line, List.intercalate]

theorem exists_line_cons (m : Mutation) (ms : List Mutation) :
    ∃ rest, line (m :: ms) = m.text ++ rest := by
  cases ms with
  | nil => exact ⟨[], by simp [line, List.intercalate]⟩
  | cons m' ms => exact ⟨_, line_cons_cons m m' ms⟩

/-- **Each search finds the mutations of its kind.** -/
theorem finds_line {ms : List Mutation} (h : ∀ m ∈ ms, m.WellFormed) :
    statFinds (line ms) = ms.filterMap statFind? ∧
      traitFinds (line ms) = ms.filterMap traitFind? := by
  induction ms with
  | nil => exact ⟨by rw [line]; exact statFinds.eq_1, by rw [line]; exact traitFinds.eq_1⟩
  | cons m ms ih =>
    obtain ⟨hm, hms⟩ := List.forall_mem_cons.mp h
    obtain ⟨hstats, htraits⟩ := ih hms
    have hline : ∃ rest, line (m :: ms) = m.text ++ rest ∧
        (∀ c ∈ rest.head?, c.isDigit = false) ∧ statFinds rest = statFinds (line ms) ∧
        traitFinds rest = traitFinds (line ms) := by
      cases ms with
      | nil => exact ⟨[], by simp [line, List.intercalate], by simp, rfl, rfl⟩
      | cons m' ms =>
        refine ⟨_, line_cons_cons m m' ms, ?_,
          isSearch_statFinds.of_none (statFind?_of_no_word rfl _), traitFinds_blank rfl _⟩
        intro c hc
        cases hc
        rfl
    obtain ⟨rest, hline, hdigit, hstat, htrait⟩ := hline
    rw [hline, statFinds_text hm hdigit, traitFinds_text hm, hstat, htrait, hstats, htraits]
    constructor
    · cases hfind : m.statFind? <;> simp [hfind]
    · cases hfind : m.traitFind? <;> simp [hfind]

theorem isLine_of_isNumber {value : List Char} (h : IsNumber value) :
    Text.IsLine value ∧ value ≠ [] := by
  obtain ⟨minus, ds, rfl, hminus, hne, hds⟩ := h
  refine ⟨Text.IsLine.of_all ?_, List.append_ne_nil_of_right_ne_nil _ hne⟩
  intro c hc
  apply Text.isBlank_of_isDigit
  rcases List.mem_append.mp hc with hc | hc
  · rcases hminus with rfl | rfl
    · cases hc
    · exact Or.inr (List.mem_singleton.mp hc)
  · exact Or.inl (List.all_eq_true.mp hds c hc)

theorem isLine_text {m : Mutation} (hm : m.WellFormed) (hline : m.OneLine) :
    Text.IsLine m.text ∧ m.text ≠ [] := by
  have hletters : ∀ {word : List Char}, word.all isAsciiLetter = true →
      ∀ c ∈ word, Text.isBlank c = false :=
    fun hword c hc => isBlank_of_isAsciiLetter (List.all_eq_true.mp hword c hc)
  cases m with
  | stat word sign value =>
    obtain ⟨hne, hall, hvalue⟩ := hm
    obtain ⟨hvalue, hvalueNe⟩ := isLine_of_isNumber hvalue
    have hsign : '\n' ∉ [sign.char] := by cases sign <;> decide
    exact ⟨(Text.IsLine.of_all (hletters hall)).between hne hsign hvalue hvalueNe,
      List.append_ne_nil_of_left_ne_nil hne _⟩
  | trait scope name =>
    have hfront : ∀ c ∈ scope ++ ['+'], Text.isBlank c = false := by
      intro c hc
      rcases List.mem_append.mp hc with hc | hc
      · exact hletters hm.1 c hc
      · rw [List.mem_singleton.mp hc]
        rfl
    have hquote : Text.IsLine ['"'] := Text.IsLine.of_all (List.forall_mem_singleton.mpr rfl)
    have hmid : '\n' ∉ '"' :: name := List.not_mem_cons_of_ne_of_not_mem (by decide) hline
    have htext : (trait scope name).text = (scope ++ ['+']) ++ ('"' :: name ++ ['"']) := by
      simp [text]
    rw [htext]
    exact ⟨(Text.IsLine.of_all hfront).between (by simp) hmid hquote (List.cons_ne_nil _ _),
      by simp⟩

/-- Mutations that are each written on one line make up one line. -/
theorem isLine_line {ms : List Mutation} (h : ∀ m ∈ ms, m.WellFormed ∧ m.OneLine) :
    Text.IsLine (line ms) := by
  induction ms with
  | nil => exact Text.IsLine.of_all (List.forall_mem_nil _)
  | cons m ms ih =>
    obtain ⟨hm, hms⟩ := List.forall_mem_cons.mp h
    obtain ⟨htext, hne⟩ := isLine_text hm.1 hm.2
    cases ms with
    | nil =>
      rw [line, List.map_singleton, List.intercalate_singleton]
      exact htext
    | cons m' ms =>
      obtain ⟨rest, hrest⟩ := exists_line_cons m' ms
      obtain ⟨hm', hline'⟩ := hms m' List.mem_cons_self
      have hmore : line (m' :: ms) ≠ [] := by
        rw [hrest]
        exact List.append_ne_nil_of_left_ne_nil (isLine_text hm' hline').2 rest
      have hspace : '\n' ∉ [' '] := by decide
      rw [line_cons_cons]
      exact htext.between hne hspace (ih hms) hmore

end Mutation

/-! ### Effects -/

/-- The word for the owner of a trait. -/
def TraitOwner.word : TraitOwner → String
  | character => ""
  | encounter => "encounter"
  | session => "session"

/-- A stat change as a mutation: the value that is added or put in place, behind its sign. -/
def Mutation.ofChange (c : StatChange) : Mutation :=
  .stat c.stat.abbreviation.toList (if c.additive then .plus else .equals)
    (Decimal.signed c.value.val)

/-- A trait for an owner as a mutation. -/
def Mutation.ofTrait (owner : TraitOwner) (name : String) : Mutation :=
  .trait owner.word.toList name.toList

/-- The mutations that make up an effect: the stat changes and then the traits, owner by owner. -/
def mutations (e : Effect) : List Mutation :=
  e.statChanges.map .ofChange ++ (e.characterTraits.map (.ofTrait .character) ++
    (e.encounterTraits.map (.ofTrait .encounter) ++ e.sessionTraits.map (.ofTrait .session)))

/-- The names of all traits that an effect brings. -/
def traits (e : Effect) : List String := e.characterTraits ++ e.encounterTraits ++ e.sessionTraits

/-- What holds of the mutations for all stat changes and all traits holds of all mutations. -/
theorem forall_mutations {e : Effect} {P : Mutation → Prop}
    (hchange : ∀ c, P (.ofChange c))
    (htrait : ∀ owner, ∀ name ∈ e.traits, P (.ofTrait owner name)) : ∀ m ∈ e.mutations, P m := by
  intro m hm
  rcases List.mem_append.mp hm with hm | hm
  · obtain ⟨c, -, rfl⟩ := List.mem_map.mp hm
    exact hchange c
  rcases List.mem_append.mp hm with hm | hm
  · obtain ⟨name, hname, rfl⟩ := List.mem_map.mp hm
    exact htrait _ name (by simp [traits, hname])
  rcases List.mem_append.mp hm with hm | hm
  · obtain ⟨name, hname, rfl⟩ := List.mem_map.mp hm
    exact htrait _ name (by simp [traits, hname])
  · obtain ⟨name, hname, rfl⟩ := List.mem_map.mp hm
    exact htrait _ name (by simp [traits, hname])

/-- Every stat change is written well. -/
theorem Mutation.wellFormed_ofChange (c : StatChange) : (ofChange c).WellFormed := by
  have hword : c.stat.abbreviation.toList ≠ [] ∧
      c.stat.abbreviation.toList.all isAsciiLetter = true := by
    cases c.stat <;> decide
  refine ⟨hword.1, hword.2, ?_⟩
  unfold Decimal.signed
  split
  · exact ⟨['-'], _, rfl, Or.inr rfl, Decimal.digits_ne_nil _, Decimal.all_digits _⟩
  · exact ⟨[], _, rfl, Or.inl rfl, Decimal.digits_ne_nil _, Decimal.all_digits _⟩

theorem wellFormed_mutations {e : Effect}
    (h : ∀ name ∈ e.traits, '"' ∉ name.toList ∧ Quiet name.toList) :
    ∀ m ∈ e.mutations, m.WellFormed := by
  apply forall_mutations Mutation.wellFormed_ofChange
  intro owner name hname
  refine ⟨?_, h name hname⟩
  cases owner <;> decide

/-- A stat change that was written is read back. -/
theorem change_ofChange (c : StatChange) :
    (Mutation.ofChange c).statFind?.map StatFind.change = some (.ok c) := by
  obtain ⟨stat, value, additive⟩ := c
  rw [Mutation.ofChange, Mutation.statFind?, Option.map_some, StatFind.change]
  simp only [String.ofList_toList, Stat.ofWord?_abbreviation, Decimal.read?_signed,
    Option.bind_some, Score.ofInt?_val]
  cases additive with
  | true => rfl
  | false => rfl

/-- What is found of a trait for an owner. -/
def TraitOwner.find (owner : TraitOwner) (name : String) : TraitFind :=
  ⟨owner.word.toList, name.toList⟩

/-- A trait that was written belongs to its owner. -/
theorem TraitOwner.owner_find (owner : TraitOwner) (name : String) :
    (owner.find name).owner = .ok owner := by
  cases owner <;> rfl

theorem TraitOwner.name_find (owner : TraitOwner) (name : String) :
    String.ofList (owner.find name).name = name := String.ofList_toList

theorem traitsOf_append (owner : TraitOwner) (xs ys : List TraitFind) :
    traitsOf owner (xs ++ ys) = traitsOf owner xs ++ traitsOf owner ys := List.filterMap_append

/-- Of traits that were written for one owner, that owner gets all and no other any. -/
theorem traitsOf_find (owner owner' : TraitOwner) (names : List String) :
    traitsOf owner (names.map owner'.find) = if owner' = owner then names else [] := by
  induction names with
  | nil => split <;> rfl
  | cons name names ih =>
    have hfirst : traitsOf owner ((name :: names).map owner'.find) =
        (if owner' = owner then [name] else []) ++ traitsOf owner (names.map owner'.find) := by
      rw [List.map_cons, traitsOf, List.filterMap_cons, TraitOwner.owner_find, traitsOf]
      by_cases h : owner' = owner
      · simp only [if_pos h, TraitOwner.name_find, List.singleton_append]
      · simp only [if_neg h, List.nil_append]
    rw [hfirst, ih]
    split <;> rfl

/-- The search for stats finds the stat changes that were written. -/
theorem statFinds_changes (changes : List StatChange) :
    ((changes.map Mutation.ofChange).filterMap Mutation.statFind?).map StatFind.change =
      changes.map .ok := by
  rw [List.map_filterMap]
  induction changes with
  | nil => rfl
  | cons c changes ih =>
    simp only [List.map_cons, List.filterMap_cons, change_ofChange, ih]

/-- The search for traits finds the traits that were written. -/
theorem traitFinds_traits (owner : TraitOwner) (names : List String) :
    (names.map (Mutation.ofTrait owner)).filterMap Mutation.traitFind? = names.map owner.find := by
  induction names with
  | nil => rfl
  | cons name names ih =>
    have hfind : (Mutation.ofTrait owner name).traitFind? = some (owner.find name) := rfl
    rw [List.map_cons, List.map_cons, List.filterMap_cons_some hfind, ih]

/-- What the searches find in the mutations of an effect. -/
theorem finds_mutations (e : Effect) :
    (e.mutations.filterMap Mutation.statFind?).map StatFind.change = e.statChanges.map .ok ∧
      e.mutations.filterMap Mutation.traitFind? =
        e.characterTraits.map TraitOwner.character.find ++
          (e.encounterTraits.map TraitOwner.encounter.find ++
            e.sessionTraits.map TraitOwner.session.find) := by
  have hchanges : (e.statChanges.map Mutation.ofChange).filterMap Mutation.traitFind? = [] :=
    List.filterMap_eq_nil_iff.mpr (List.forall_mem_map.mpr fun _ _ => rfl)
  have htraits : ∀ owner (names : List String),
      (names.map (Mutation.ofTrait owner)).filterMap Mutation.statFind? = [] := fun _ _ =>
    List.filterMap_eq_nil_iff.mpr (List.forall_mem_map.mpr fun _ _ => rfl)
  constructor
  · simp only [mutations, List.filterMap_append, htraits, List.append_nil, statFinds_changes]
  · simp only [mutations, List.filterMap_append, hchanges, List.nil_append, traitFinds_traits]

/-- **An effect that is written as a line is read back.** -/
theorem ofLine_written {e : Effect}
    (h : ∀ name ∈ e.traits, '"' ∉ name.toList ∧ Quiet name.toList) :
    ofLine (String.ofList (Mutation.line e.mutations)) = (e, []) := by
  obtain ⟨hstats, htraits⟩ := Mutation.finds_line (wellFormed_mutations h)
  obtain ⟨hchanges, howners⟩ := finds_mutations e
  rw [ofLine, String.toList_ofList, hstats, htraits, hchanges, howners]
  simp [issuesOf, traitsOf_append, traitsOf_find, Function.comp_def, TraitOwner.owner_find,
    Except.toOption]

end Adventure.Effect
