import Adventure.Proofs.Record.Ron.Value

/-!
Whole texts in RON (`IsText`): attributes, a value, and gaps around them. Such a text is read as its
value (`parse?_of_isText`).
-/

namespace Adventure.Record.Ron

open Text

/-! ### Spellings -/

/-- What may stand in front of a value, and the names that it switches on. -/
inductive Preamble : List String → List Char → Prop where
  | plain {g : List Char} : IsGap g → Preamble [] g
  | switch {names more : List String} {k : Nat} {g g₁ g₂ g₃ g₄ g₅ ts p : List Char} :
      IsGap g → IsGap g₁ → IsGap g₂ → IsGap g₃ → IsGap g₄ → IsGap g₅ →
      Row (fun n _ => SpellsName n) ')' names k ts → names ≠ [] → Preamble more p →
      Preamble (names ++ more) (g ++ '#' :: (g₁ ++ '!' :: (g₂ ++ '[' :: (g₃ ++ ("enable".toList ++
        (g₄ ++ '(' :: (ts ++ (g₅ ++ ']' :: p))))))))

/-- A gap at the end of a text, where the last comment may end with the text. -/
inductive IsTail : List Char → Prop where
  | plain {g : List Char} : IsGap g → IsTail g
  | comment {g note : List Char} : IsGap g → '\n' ∉ note → IsTail (g ++ '/' :: '/' :: note)

/-- The texts of a value. Attributes may only switch on what is known. -/
inductive IsText (v : Value) (s : String) : Prop where
  | intro {names : List String} {p t tail : List Char} : Preamble names p →
      (∀ n ∈ names, n ∈ switches) → Written v maxLevels t → IsTail tail →
      s.toList = p ++ (t ++ tail) → IsText v s

/-! ### Attributes -/

/-- A character that neither is blank nor starts a comment. -/
theorem run_gap_cons {c : Char} (hblank : isBlank c = false) (hslash : c ≠ '/') {g : List Char}
    (hg : IsGap g) (cs : List Char) : gap.run (g ++ c :: cs) = some (c :: cs) := by
  rw [run_gap_append hg, run_gap_solid]
  intro d hd
  cases hd
  exact ⟨hblank, hslash⟩

theorem run_words_cons {w next : List Char} {more : List (List Char)} (hw : w ≠ [])
    (cs : List Char) :
    (Reader.words gap w (next :: more)).run (w ++ cs) =
      (gap.run cs).bind (Reader.words gap next more).run := by
  rw [Reader.words, Reader.run_andThen, Reader.run_word hw, after?_eq_some_iff.mpr rfl]
  exact Reader.run_behind gap (Reader.words gap next more) cs

theorem run_words_mark (c : Char) {next : List Char} {more : List (List Char)} (cs : List Char) :
    (Reader.words gap [c] (next :: more)).run (c :: cs) =
      (gap.run cs).bind (Reader.words gap next more).run :=
  run_words_cons (by simp) cs

theorem run_words_nil {w : List Char} (hw : w ≠ []) (cs : List Char) :
    (Reader.words gap w []).run (w ++ cs) = some ((), cs) := by
  rw [Reader.words, Reader.run_word hw, after?_eq_some_iff.mpr rfl]
  rfl

/-- The names in an attribute are read off its front. -/
theorem run_switchedOn {names : List String} {k : Nat} {g₁ g₂ g₃ g₄ g₅ ts : List Char}
    (h₁ : IsGap g₁) (h₂ : IsGap g₂) (h₃ : IsGap g₃) (h₄ : IsGap g₄) (h₅ : IsGap g₅)
    (h : Row (fun n _ => SpellsName n) ')' names k ts) (hne : names ≠ []) (rest : List Char) :
    switchedOn.run ('#' :: (g₁ ++ '!' :: (g₂ ++ '[' :: (g₃ ++ ("enable".toList ++
      (g₄ ++ '(' :: (ts ++ (g₅ ++ ']' :: rest)))))))) = some (names.map String.toList, rest) := by
  let behind := ts ++ (g₅ ++ ']' :: rest)
  have hopen : (Reader.words gap ['('] []).run ('(' :: behind) = some ((), behind) :=
    run_words_nil (by simp) behind
  have henable : (Reader.words gap "enable".toList [['(']]).run
      ("enable".toList ++ (g₄ ++ '(' :: behind)) = some ((), behind) := by
    rw [run_words_cons (by decide), run_gap_cons rfl (by decide) h₄]
    exact hopen
  have hbracket : (Reader.words gap ['['] ["enable".toList, ['(']]).run
      ('[' :: (g₃ ++ ("enable".toList ++ (g₄ ++ '(' :: behind)))) = some ((), behind) := by
    have hgap : gap.run (g₃ ++ ("enable".toList ++ (g₄ ++ '(' :: behind))) =
        some ("enable".toList ++ (g₄ ++ '(' :: behind)) := run_gap_cons rfl (by decide) h₃ _
    rw [run_words_mark, hgap]
    exact henable
  have hmark : (Reader.words gap ['!'] [['['], "enable".toList, ['(']]).run
      ('!' :: (g₂ ++ '[' :: (g₃ ++ ("enable".toList ++ (g₄ ++ '(' :: behind))))) =
        some ((), behind) := by
    rw [run_words_mark, run_gap_cons rfl (by decide) h₂]
    exact hbracket
  have hwords : (Reader.words gap ['#'] [['!'], ['['], "enable".toList, ['(']]).run
      ('#' :: (g₁ ++ '!' :: (g₂ ++ '[' :: (g₃ ++ ("enable".toList ++ (g₄ ++ '(' :: behind)))))) =
        some ((), behind) := by
    rw [run_words_mark, run_gap_cons rfl (by decide) h₁]
    exact hmark
  have hitem : ∀ n j t, j < k → SpellsName n t → Starts t ∧ Reads name n.toList t :=
    fun n _ _ _ hn => ⟨.of_name hn, .of_run fun _ hrest => run_name hn hrest⟩
  have hnames : Reader.run (Reader.upTo ')' gap true name false) behind =
      some (names.map String.toList, g₅ ++ ']' :: rest) :=
    h.reads (by decide) (by decide) hitem (fun hnil => absurd hnil hne) _
  have hclose : (Reader.word [']']).run (']' :: rest) = some ((), rest) := by
    rw [Reader.run_word (by simp)]
    rfl
  rw [switchedOn, Reader.run_andThen, hwords, Option.bind_some, Reader.run_andThen, hnames,
    Option.bind_some, Reader.run_as, Reader.run_behind, run_gap_mark (by decide) h₅,
    Option.bind_some, hclose]
  rfl

/-- The names that are switched on, and what is behind them and the gap around them. -/
def runSwitches (cs : List Char) : Option (List String × List Char) :=
  (allSwitchedOn cs).map fun (names, r) => (names, r.1)

theorem runSwitches_eq (cs : List Char) :
    runSwitches cs = (gap.run cs).bind fun r =>
      if r.head? = some '#' then
        (switchedOn.run r).bind fun p => (runSwitches p.2).map fun q =>
          (p.1.map String.ofList ++ q.1, q.2)
      else some ([], r) := by
  unfold runSwitches Gap.run Reader.run
  conv => lhs; unfold allSwitchedOn
  cases gap cs with
  | none => rfl
  | some r =>
    simp only [Option.map_some, Option.bind_some]
    split
    · cases switchedOn r.1 with
      | none => rfl
      | some t =>
        simp only [Option.map_some, Option.bind_some, Option.map_map]
        rfl
    · rfl

/-- **Attributes are read as the names that they switch on.** -/
theorem runSwitches_append {names : List String} {p t : List Char} (h : Preamble names p)
    (ht : Starts t) : runSwitches (p ++ t) = some (names, t) := by
  induction h with
  | plain hg =>
    have hgap := ht.run_gap
    rw [runSwitches_eq, run_gap_append hg, hgap, Option.bind_some, if_neg]
    obtain ⟨c, cs, rfl, -, -, -, hsign⟩ := ht
    intro h
    cases h
    exact hsign rfl
  | @switch names more k g g₁ g₂ g₃ g₄ g₅ ts p hg h₁ h₂ h₃ h₄ h₅ hrow hne _ ih =>
    have hshape : g ++ '#' :: (g₁ ++ '!' :: (g₂ ++ '[' :: (g₃ ++ ("enable".toList ++
        (g₄ ++ '(' :: (ts ++ (g₅ ++ ']' :: p))))))) ++ t =
        g ++ '#' :: (g₁ ++ '!' :: (g₂ ++ '[' :: (g₃ ++ ("enable".toList ++
        (g₄ ++ '(' :: (ts ++ (g₅ ++ ']' :: (p ++ t)))))))) := by simp
    rw [hshape, runSwitches_eq, run_gap_cons rfl (by decide) hg, Option.bind_some,
      if_pos List.head?_cons, run_switchedOn h₁ h₂ h₃ h₄ h₅ hrow hne, Option.bind_some, ih,
      Option.map_some, List.map_map]
    have hid : String.ofList ∘ String.toList = id := funext fun _ => String.ofList_toList
    rw [hid, List.map_id]

/-! ### Whole texts -/

theorem IsTail.run_gap {tail : List Char} (h : IsTail tail) : gap.run tail = some [] := by
  cases h with
  | plain hg =>
    have hnil : gap.run [] = some [] := run_gap_solid (by simp)
    rw [← List.append_nil tail, run_gap_append hg, hnil]
  | comment hg hnote => rw [run_gap_append hg, run_gap_lastLine hnote]

theorem parse?_eq (s : String) :
    parse? s = (runSwitches s.toList).bind fun p =>
      if p.1.all switches.contains then
        ((value (p.1.contains "implicit_some") maxLevels).run p.2).bind fun q =>
          if gap.run q.2 = some [] then some q.1 else none
      else none := by
  unfold parse? runSwitches Reader.run Gap.run
  cases allSwitchedOn s.toList with
  | none => rfl
  | some p =>
    obtain ⟨names, start⟩ := p
    simp only [Option.map_some, Option.bind_some]
    split
    · cases value (names.contains "implicit_some") maxLevels start.1 with
      | none => rfl
      | some t =>
        simp only [Option.map_some, Option.bind_some]
        cases gap t.rest with
        | none => rfl
        | some r =>
          obtain ⟨rest, hr⟩ := r
          cases rest with
          | nil => rfl
          | cons c rest => rfl
    · rfl

/-- **A whole text is read as its value.** -/
theorem parse?_of_isText {v : Value} {s : String} (h : IsText v s) : parse? s = some v := by
  obtain @⟨names, p, t, tail, hp, hnames, hv, htail, hs⟩ := h
  have hend : Ended tail := ⟨[], htail.run_gap, by simp⟩
  have hknown : names.all switches.contains = true := by
    rw [List.all_eq_true]
    intro n hn
    rw [List.contains_iff_mem]
    exact hnames n hn
  obtain ⟨left, hread, hleft⟩ :=
    reads_of_written hv (names.contains "implicit_some") (Nat.le_refl maxLevels) tail hend
  rw [parse?_eq, hs, runSwitches_append hp (hv.starts.append tail), Option.bind_some,
    if_pos hknown, hread, Option.bind_some, hleft, htail.run_gap, if_pos rfl]

end Adventure.Record.Ron
