import Adventure.Proofs.Condition.Grammar
import Adventure.Proofs.Condition.Words

/-!
Which rows of words are folded, and to what.

A folded token is spelled by words in few ways (`Token.SpelledBy`): a phrase about traits may go with
`has` or without it, all others have one spelling. Folding accepts a row of words exactly if it spells
out, token by token, a row that is folded (`Token.foldPhrases_eq_ok_iff`), and so never invents, drops
or moves anything.

Names are taken as long as there are any. This is why a row that is folded has no name right behind a
phrase about traits: it would have become a name of that phrase.
-/

namespace Adventure.Condition

namespace Token

/-- The words by which a folded token may be spelled. -/
inductive SpelledBy : Token → List Token → Prop where
  | stat (s : Stat) (c : Comparison) (n : Score) :
    SpelledBy (phrase (.stat ⟨s, c, n⟩)) [.stat s, .comparison c, .number n]
  | bare (names : List String) :
    SpelledBy (phrase (.traits ⟨false, names⟩)) (traitWord :: names.map quote)
  | has (names : List String) :
    SpelledBy (phrase (.traits ⟨false, names⟩)) (hasWord :: traitWord :: names.map quote)
  | hasNot (names : List String) :
    SpelledBy (phrase (.traits ⟨true, names⟩)) (hasWord :: notWord :: traitWord :: names.map quote)
  /-- A token that is no phrase is its own word. -/
  | other {t : Token} (h : ∀ p, t ≠ phrase p) : SpelledBy t [t]

/-- Whether a row of words is what a row of folded tokens is spelled by, one after the other. -/
inductive SpellsOut : List Token → List Token → Prop where
  | nil : SpellsOut [] []
  | cons {words rest out : List Token} {t : Token} (ht : SpelledBy t words)
    (h : SpellsOut rest out) : SpellsOut (words ++ rest) (t :: out)

/-- Whether a token is a word that starts a phrase. -/
def startsPhrase : Token → Bool
  | stat _ | hasWord | traitWord => true
  | _ => false

/-- Whether nothing is left to be folded in a row: no word that starts a phrase, and no name that
would have become one of a phrase about traits. -/
structure IsFoldedRow (out : List Token) : Prop where
  no_start : ∀ t ∈ out, t.startsPhrase = false
  named : ∀ p, phrase (.traits p) ∈ out → p.traits ≠ []
  no_name_behind : ∀ front p text behind,
    out ≠ front ++ phrase (.traits p) :: quote text :: behind

/-! ### Rows -/

theorem IsFoldedRow.nil : IsFoldedRow [] where
  no_start := List.forall_mem_nil _
  named _ h := (List.not_mem_nil h).elim
  no_name_behind front p text behind h := by simp at h

/-- One token more in front: it starts no phrase, and if it is a phrase about traits it has a name of
its own and none behind it. -/
theorem IsFoldedRow.cons {t : Token} {out : List Token} (h : IsFoldedRow out)
    (hstart : t.startsPhrase = false)
    (htraits : ∀ p, t = phrase (.traits p) →
      p.traits ≠ [] ∧ ∀ text, out.head? ≠ some (quote text)) : IsFoldedRow (t :: out) where
  no_start := List.forall_mem_cons.mpr ⟨hstart, h.no_start⟩
  named p hp := by
    rcases List.mem_cons.mp hp with rfl | hp
    · exact (htraits p rfl).1
    · exact h.named p hp
  no_name_behind front p text behind heq := by
    cases front with
    | nil =>
      obtain ⟨rfl, rfl⟩ := List.cons.inj heq
      exact (htraits p rfl).2 text rfl
    | cons u front => exact h.no_name_behind front p text behind (List.cons.inj heq).2

theorem IsFoldedRow.tail {t : Token} {out : List Token} (h : IsFoldedRow (t :: out)) :
    IsFoldedRow out where
  no_start u hu := h.no_start u (List.mem_cons_of_mem t hu)
  named p hp := h.named p (List.mem_cons_of_mem t hp)
  no_name_behind front p text behind heq :=
    h.no_name_behind (t :: front) p text behind (congrArg (t :: ·) heq)

/-- No name stands right behind a phrase about traits. -/
theorem IsFoldedRow.head?_ne {p : TraitPhrase} {out : List Token}
    (h : IsFoldedRow (phrase (.traits p) :: out)) (text : String) :
    out.head? ≠ some (quote text) := by
  intro hhead
  obtain ⟨behind, rfl⟩ := List.head?_eq_some_iff.mp hhead
  exact h.no_name_behind [] p text behind rfl

/-- A row of words starts with a name exactly if what it spells out does. -/
theorem SpellsOut.head?_quote_iff {ts out : List Token} (h : SpellsOut ts out) (text : String) :
    ts.head? = some (quote text) ↔ out.head? = some (quote text) := by
  cases h with
  | nil => exact Iff.rfl
  | cons ht h =>
    cases ht with
    | other => exact Iff.rfl
    | _ => simp

theorem SpellsOut.append {ts us out out' : List Token} (h : SpellsOut ts out)
    (h' : SpellsOut us out') : SpellsOut (ts ++ us) (out ++ out') := by
  induction h with
  | nil => exact h'
  | cons ht _ ih =>
    rw [List.append_assoc]
    exact .cons ht ih

/-- Rows that are folded make up one, unless the second starts with a name. -/
theorem IsFoldedRow.append {out out' : List Token} (h : IsFoldedRow out) (h' : IsFoldedRow out')
    (hhead : ∀ text, out'.head? ≠ some (quote text)) : IsFoldedRow (out ++ out') := by
  induction out with
  | nil => exact h'
  | cons t out ih =>
    apply IsFoldedRow.cons (ih h.tail) (h.no_start t List.mem_cons_self)
    rintro p rfl
    refine ⟨h.named p List.mem_cons_self, ?_⟩
    intro text
    cases out with
    | nil => exact hhead text
    | cons u out => exact h.head?_ne text

/-! ### What is folded spells its words out -/

/-- Taking names only cuts the row in two. -/
theorem map_takeNames_append (ts : List Token) :
    (takeNames ts).1.map quote ++ (takeNames ts).2 = ts := by
  fun_induction takeNames ts with
  | case1 text rest names behind h ih =>
    rw [h] at ih
    rw [List.map_cons, List.cons_append, ih]
  | case2 => rfl

/-- Names are taken as long as there are any. -/
theorem head?_takeNames (ts : List Token) (text : String) :
    (takeNames ts).2.head? ≠ some (quote text) := by
  fun_induction takeNames ts with
  | case1 text rest names behind h ih =>
    rw [h] at ih
    exact ih
  | case2 ts hts =>
    intro hhead
    obtain ⟨behind, rfl⟩ := List.head?_eq_some_iff.mp hhead
    exact hts text behind rfl

/-- A phrase about traits is folded from the names that are taken behind its first words. -/
theorem spellsOut_traits {inverse : Bool} (start : List Token) {rest others out : List Token}
    {names : List String} (hnames : takeNames rest = (names, others)) (hne : names ≠ [])
    (hstart : ∀ names, SpelledBy (phrase (.traits ⟨inverse, names⟩)) (start ++ names.map quote))
    (h : IsFoldedRow out ∧ SpellsOut others out) :
    IsFoldedRow (phrase (.traits ⟨inverse, names⟩) :: out) ∧
      SpellsOut (start ++ rest) (phrase (.traits ⟨inverse, names⟩) :: out) := by
  have hrest := map_takeNames_append rest
  have hhead := head?_takeNames rest
  rw [hnames] at hrest hhead
  constructor
  · apply h.1.cons rfl
    rintro p ⟨⟩
    refine ⟨hne, ?_⟩
    intro text
    rw [Ne, ← h.2.head?_quote_iff]
    exact hhead text
  · rw [← hrest, ← List.append_assoc]
    exact .cons (hstart names) h.2

/-- **What is folded spells its words out**, when the words are no phrases already. -/
theorem spellsOut_of_foldPhrases {ts out : List Token} (hwords : ∀ p, phrase p ∉ ts)
    (h : foldPhrases ts = .ok out) : IsFoldedRow out ∧ SpellsOut ts out := by
  -- Behind names that were taken stand words of the same row.
  have hothers : ∀ {rest others : List Token} {names : List String},
      takeNames rest = (names, others) → (∀ p, phrase p ∉ rest) → ∀ p, phrase p ∉ others := by
    intro rest others names hnames hrest p hp
    rw [← map_takeNames_append rest, hnames] at hrest
    exact hrest p (List.mem_append_right _ hp)
  fun_induction foldPhrases ts generalizing out with
  | case1 =>
    cases h
    exact ⟨.nil, .nil⟩
  | case2 s c n behind ih =>
    obtain ⟨us, hus, h⟩ := exists_of_bind_eq_ok h
    cases h
    simp only [List.mem_cons, not_or] at hwords
    obtain ⟨hfolded, hspells⟩ := ih (fun p => (hwords p).2.2.2) hus
    exact ⟨hfolded.cons rfl nofun, .cons (.stat s c n) hspells⟩
  | case6 behind names others hne hnames ih =>
    obtain ⟨us, hus, h⟩ := exists_of_bind_eq_ok h
    cases h
    simp only [List.mem_cons, not_or] at hwords
    have hout := ih (hothers hnames fun p => (hwords p).2.2.2) hus
    exact spellsOut_traits [hasWord, notWord, traitWord] hnames hne .hasNot hout
  | case9 behind names others hne hnames ih =>
    obtain ⟨us, hus, h⟩ := exists_of_bind_eq_ok h
    cases h
    simp only [List.mem_cons, not_or] at hwords
    have hout := ih (hothers hnames fun p => (hwords p).2.2) hus
    exact spellsOut_traits [hasWord, traitWord] hnames hne .has hout
  | case12 rest names others hne hnames ih =>
    obtain ⟨us, hus, h⟩ := exists_of_bind_eq_ok h
    cases h
    simp only [List.mem_cons, not_or] at hwords
    have hout := ih (hothers hnames fun p => (hwords p).2) hus
    exact spellsOut_traits [traitWord] hnames hne .bare hout
  | case13 t rest hstat hhas htrait ih =>
    obtain ⟨us, hus, h⟩ := exists_of_bind_eq_ok h
    cases h
    simp only [List.mem_cons, not_or] at hwords
    obtain ⟨hfolded, hspells⟩ := ih (fun p => (hwords p).2) hus
    have hother : ∀ p, t ≠ phrase p := fun p => Ne.symm (hwords p).1
    have hstart : t.startsPhrase = false := by
      cases t with
      | stat s => exact (hstat s rfl).elim
      | hasWord => exact (hhas rfl).elim
      | traitWord => exact (htrait rfl).elim
      | _ => rfl
    refine ⟨hfolded.cons hstart ?_, .cons (.other hother) hspells⟩
    intro p hp
    exact absurd hp (hother _)
  -- Elsewhere a phrase breaks off.
  | _ => cases h

/-! ### Words that are spelled out are folded -/

/-- The `has` in front of `trait` may be left out. -/
theorem foldPhrases_has (rest : List Token) :
    foldPhrases (hasWord :: traitWord :: rest) = foldPhrases (traitWord :: rest) := by
  rw [foldPhrases, foldPhrases]

/-- A token that starts no phrase stays as it is. -/
theorem foldPhrases_cons {t : Token} (ht : t.startsPhrase = false) (rest : List Token) :
    foldPhrases (t :: rest) = (do return t :: (← foldPhrases rest)) := by
  rw [foldPhrases]
  · rintro s rfl
    cases ht
  · rintro rfl
    cases ht
  · rintro rfl
    cases ht

/-- The words of a token are folded to it, in front of words that are spelled out. -/
theorem foldPhrases_spelledBy {t : Token} {words rest out : List Token} (ht : SpelledBy t words)
    (hfolded : IsFoldedRow (t :: out)) (h : SpellsOut rest out) :
    foldPhrases (words ++ rest) = (do return t :: (← foldPhrases rest)) := by
  have htraits : ∀ inverse names, t = phrase (.traits ⟨inverse, names⟩) →
      foldPhrases (Phrase.words (.traits ⟨inverse, names⟩) ++ rest) =
        (do return t :: (← foldPhrases rest)) := by
    rintro inverse names rfl
    have hnamed : (phrase (.traits ⟨inverse, names⟩)).IsFolded :=
      hfolded.named _ List.mem_cons_self
    apply foldPhrases_words hnamed
    intro text
    rw [Ne, h.head?_quote_iff]
    exact hfolded.head?_ne text
  cases ht with
  | stat s c n => simp [foldPhrases]
  | bare names =>
    rw [List.cons_append, ← foldPhrases_has]
    exact htraits false names rfl
  | has names => exact htraits false names rfl
  | hasNot names => exact htraits true names rfl
  | other hother => exact foldPhrases_cons (hfolded.no_start t List.mem_cons_self) rest

/-- **Words that are spelled out are folded.** -/
theorem foldPhrases_of_spellsOut {ts out : List Token} (hfolded : IsFoldedRow out)
    (h : SpellsOut ts out) : foldPhrases ts = .ok out := by
  induction h with
  | nil => rw [foldPhrases]
  | cons ht h ih =>
    rw [foldPhrases_spelledBy ht hfolded h, ih hfolded.tail]
    rfl

/-- **Folding accepts exactly what spells out a folded row.** A row of words, none of them a phrase
already, is folded to a row exactly if nothing is left to be folded in that row and the words spell it
out, token by token. -/
theorem foldPhrases_eq_ok_iff {ts : List Token} (h : ∀ p, phrase p ∉ ts) (out : List Token) :
    foldPhrases ts = .ok out ↔ IsFoldedRow out ∧ SpellsOut ts out := by
  constructor
  · intro hfold
    exact spellsOut_of_foldPhrases h hfold
  · rintro ⟨hfolded, hspells⟩
    exact foldPhrases_of_spellsOut hfolded hspells

/-- In `not has not trait "A" "B" str > 5 6` the first `not` and the last number stay as they are. -/
theorem foldPhrases_stray_words :
    let five : Score := ⟨5, by decide, by decide⟩
    let six : Score := ⟨6, by decide, by decide⟩
    let words := [notWord, hasWord, notWord, traitWord, quote "A", quote "B", .stat .strength,
      comparison .greater, number five, number six]
    let out := [notWord, phrase (.traits ⟨true, ["A", "B"]⟩),
      phrase (.stat ⟨.strength, .greater, five⟩), number six]
    foldPhrases words = .ok out ∧ IsFoldedRow out ∧ SpellsOut words out := by
  intro five six words out
  have hfold : foldPhrases words = .ok out := by cbv
  exact ⟨hfold, (foldPhrases_eq_ok_iff (by simp [words]) out).mp hfold⟩

end Token

end Adventure.Condition
