import Adventure.Proofs.Record.Reader
import Adventure.Proofs.Text.Cuts
import Adventure.Record.Ron.Name
import Mathlib.Data.Bool.AllAny

/-!
What may stand between the values of a record in RON (`IsGap`), and the spellings of a name
(`SpellsName`).

Gaps are passed over (`run_gap_append`), and a name is read from each of its spellings
(`run_name`), unless what comes next goes on with it. `Ended` says that behind a value nothing goes
on with it.
-/

namespace Adventure.Record.Ron

open Text

/-! ### Gaps -/

/-- The rest of a comment, with its end, when `depth` others are open around it. -/
inductive InComment : Nat → List Char → Prop where
  | opens {depth : Nat} {cs : List Char} :
      InComment (depth + 1) cs → InComment depth ('/' :: '*' :: cs)
  | closes {depth : Nat} {cs : List Char} :
      InComment depth cs → InComment (depth + 1) ('*' :: '/' :: cs)
  | ends : InComment 0 ['*', '/']
  | goesOn {depth : Nat} {c : Char} {cs : List Char} :
      ¬ ['/', '*'] <+: c :: cs → ¬ ['*', '/'] <+: c :: cs →
      InComment depth cs → InComment depth (c :: cs)

/-- Blanks and comments. -/
inductive IsGap : List Char → Prop where
  | nil : IsGap []
  | blank {c : Char} {g : List Char} : isBlank c = true → IsGap g → IsGap (c :: g)
  | line {note g : List Char} :
      '\n' ∉ note → IsGap g → IsGap ('/' :: '/' :: note ++ '\n' :: g)
  | block {note g : List Char} :
      InComment 0 note → IsGap g → IsGap ('/' :: '*' :: note ++ g)

theorem InComment.ne_nil {depth : Nat} {cs : List Char} (h : InComment depth cs) : cs ≠ [] := by
  intro hnil
  cases h <;> cases hnil

/-- The first two characters of a text with another one behind it. -/
theorem pair_prefix_append {a b c : Char} {cs : List Char} (h : cs ≠ []) (rest : List Char) :
    [a, b] <+: c :: (cs ++ rest) ↔ [a, b] <+: c :: cs := by
  cases cs with
  | nil => exact absurd rfl h
  | cons d cs => simp [List.cons_prefix_cons]

theorem behindComment?_goesOn {c : Char} {cs : List Char} (hopen : ¬ ['/', '*'] <+: c :: cs)
    (hclose : ¬ ['*', '/'] <+: c :: cs) (depth : Nat) :
    behindComment? depth (c :: cs) = behindComment? depth cs := by
  conv => lhs; unfold behindComment?
  split
  · rename_i h
    cases h
  · rename_i h
    cases h
    exact absurd ⟨_, rfl⟩ hopen
  · rename_i h
    cases h
    exact absurd ⟨_, rfl⟩ hclose
  · rename_i h
    cases h
    rfl

/-- A comment is passed over, with those in it. -/
theorem behindComment?_append {depth : Nat} {cs : List Char} (h : InComment depth cs)
    (rest : List Char) : behindComment? depth (cs ++ rest) = some rest := by
  induction h with
  | opens _ ih =>
    rw [List.cons_append, List.cons_append, behindComment?]
    exact ih
  | closes _ ih =>
    rw [List.cons_append, List.cons_append, behindComment?]
    exact ih
  | ends => rfl
  | goesOn hopen hclose hcs ih =>
    rw [List.cons_append, behindComment?_goesOn
      (fun hp => hopen ((pair_prefix_append hcs.ne_nil rest).mp hp))
      (fun hp => hclose ((pair_prefix_append hcs.ne_nil rest).mp hp))]
    exact ih

/-- What is left behind a gap that starts with no blank. -/
def behindBlanks : List Char → Option (List Char)
  | '/' :: '/' :: rest => gap.run (rest.dropWhile (· ≠ '\n'))
  | '/' :: '*' :: rest => (behindComment? 0 rest).bind gap.run
  | '/' :: _ => none
  | rest => some rest

theorem run_gap (cs : List Char) : gap.run cs = behindBlanks (cs.dropWhile isBlank) := by
  unfold Gap.run
  conv => lhs; unfold gap
  split
  · rename_i rest h
    simp only [h, behindBlanks, Option.map_map]
    rfl
  · rename_i rest h
    simp only [h, behindBlanks]
    split
    · rename_i behind hb
      simp only [hb, Option.map_map]
      rfl
    · rename_i hb
      simp only [hb]
      rfl
  · rename_i hline hblock h
    simp only [h]
    rw [behindBlanks]
    · rfl
    · exact hline
    · exact hblock
  · rename_i hline hblock hslash
    simp only [Option.map_some]
    rw [behindBlanks]
    · exact hline
    · exact hblock
    · exact hslash

theorem run_gap_blank {c : Char} (h : isBlank c = true) (cs : List Char) :
    gap.run (c :: cs) = gap.run cs := by
  rw [run_gap, run_gap, List.dropWhile_cons_of_pos h]

/-- Where neither a blank nor a slash stands, there is no gap. -/
theorem run_gap_solid {cs : List Char} (h : ∀ c ∈ cs.head?, isBlank c = false ∧ c ≠ '/') :
    gap.run cs = some cs := by
  cases cs with
  | nil => rw [run_gap]; rfl
  | cons c cs =>
    obtain ⟨hblank, hslash⟩ := h c rfl
    rw [run_gap, List.dropWhile_cons_of_neg (by rw [hblank]; decide)]
    unfold behindBlanks
    split
    · rename_i h
      cases h
      exact absurd rfl hslash
    · rename_i h
      cases h
      exact absurd rfl hslash
    · rename_i h
      cases h
      exact absurd rfl hslash
    · rfl

theorem all_of_not_mem {c : Char} {cs : List Char} (h : c ∉ cs) : cs.all (· ≠ c) = true := by
  rw [List.all_eq_true]
  intro d hd
  rw [decide_eq_true_eq]
  rintro rfl
  exact h hd

/-- **Gaps are passed over.** -/
theorem run_gap_append {g : List Char} (h : IsGap g) (rest : List Char) :
    gap.run (g ++ rest) = gap.run rest := by
  induction h with
  | nil => rfl
  | blank hc _ ih => rw [List.cons_append, run_gap_blank hc, ih]
  | @line note g hnote _ ih =>
    have hdrop : (note ++ '\n' :: (g ++ rest)).dropWhile (· ≠ '\n') = '\n' :: (g ++ rest) :=
      dropWhile_run (all_of_not_mem hnote) (by simp)
    calc gap.run ('/' :: '/' :: note ++ '\n' :: g ++ rest)
        = gap.run ('/' :: '/' :: (note ++ '\n' :: (g ++ rest))) := by simp
      _ = gap.run ((note ++ '\n' :: (g ++ rest)).dropWhile (· ≠ '\n')) := by
          rw [run_gap, List.dropWhile_cons_of_neg (by decide), behindBlanks]
      _ = gap.run rest := by rw [hdrop, run_gap_blank rfl, ih]
  | @block note g hnote _ ih =>
    calc gap.run ('/' :: '*' :: note ++ g ++ rest)
        = gap.run ('/' :: '*' :: (note ++ (g ++ rest))) := by simp
      _ = (behindComment? 0 (note ++ (g ++ rest))).bind gap.run := by
          rw [run_gap, List.dropWhile_cons_of_neg (by decide), behindBlanks]
      _ = gap.run rest := by rw [behindComment?_append hnote, Option.bind_some, ih]

/-- A comment up to the end of the text is passed over as well. -/
theorem run_gap_lastLine {note : List Char} (h : '\n' ∉ note) :
    gap.run ('/' :: '/' :: note) = some [] := by
  have hdrop : (note ++ []).dropWhile (· ≠ '\n') = [] :=
    dropWhile_run (all_of_not_mem h) (by simp)
  rw [List.append_nil] at hdrop
  rw [run_gap, List.dropWhile_cons_of_neg (by decide), behindBlanks, hdrop, run_gap]
  rfl

/-! ### Where values end -/

/-- The marks behind values. -/
def marks : List Char := [',', ':', ')', ']', '\x7d']

/-- Behind a value or a name comes a blank, a comment, a mark or an opening parenthesis. -/
def stops : List Char := [' ', '\t', '\n', '\r', '/', '('] ++ marks

/-- Nothing goes on with a name or a number that stands in front. -/
def Stops (rest : List Char) : Prop := ∀ c ∈ rest.head?, c ∈ stops

/-- Behind a gap comes the end of the text or a mark. -/
def Ended (rest : List Char) : Prop :=
  ∃ left, gap.run rest = some left ∧ ∀ c ∈ left.head?, c ∈ marks

theorem isBlank_mem_stops {c : Char} (h : isBlank c = true) : c ∈ stops := by
  simp only [isBlank, Bool.or_eq_true, decide_eq_true_eq] at h
  obtain ((rfl | rfl) | rfl) | rfl := h <;> decide

/-- A gap goes on with nothing. -/
theorem IsGap.stops {g rest : List Char} (hg : IsGap g) (h : Stops rest) : Stops (g ++ rest) := by
  cases hg with
  | nil => exact h
  | blank hblank _ =>
    intro d hd
    cases hd
    exact isBlank_mem_stops hblank
  | line =>
    intro d hd
    cases hd
    decide
  | block =>
    intro d hd
    cases hd
    decide

theorem solid_of_mem_marks : ∀ c ∈ marks, isBlank c = false ∧ c ≠ '/' :=
  List.all_iff_forall_prop.mp (by decide)

theorem marks_subset_stops : ∀ c ∈ marks, c ∈ stops :=
  List.all_iff_forall_prop.mp (by decide)

theorem Stops.head_eq_false {rest : List Char} (h : Stops rest) {p : Char → Bool}
    (hp : ∀ c ∈ stops, p c = false) : ∀ c ∈ rest.head?, p c = false :=
  fun c hc => hp c (h c hc)

theorem Stops.getD_head {rest : List Char} (h : Stops rest) {p : Char → Bool}
    (hp : ∀ c ∈ stops, p c = false) : (rest.head?.map p).getD false = false := by
  cases hhead : rest.head? with
  | none => rfl
  | some c => exact h.head_eq_false hp c hhead

theorem Ended.stops {rest : List Char} (h : Ended rest) : Stops rest := by
  obtain ⟨left, hrun, hleft⟩ := h
  intro c hc
  cases hblank : isBlank c with
  | true => exact isBlank_mem_stops hblank
  | false =>
    by_cases hslash : c = '/'
    · rw [hslash]
      decide
    · have hsolid : ∀ d ∈ rest.head?, isBlank d = false ∧ d ≠ '/' := by
        intro d hd
        cases (Option.mem_unique hc hd : c = d)
        exact ⟨hblank, hslash⟩
      rw [run_gap_solid hsolid] at hrun
      cases hrun
      exact marks_subset_stops c (hleft c hc)

/-- Behind a gap and a mark, nothing goes on with what stands in front. -/
theorem ended_append {g rest : List Char} (hg : IsGap g) (h : ∀ c ∈ rest.head?, c ∈ marks) :
    Ended (g ++ rest) :=
  ⟨rest, by rw [run_gap_append hg, run_gap_solid fun c hc => solid_of_mem_marks c (h c hc)], h⟩

/-! ### Names -/

/-- The spellings of a name: as it is, or raw. -/
inductive SpellsName : String → List Char → Prop where
  | plain {n : String} {c : Char} {cs : List Char} : n.toList = c :: cs → startsName c = true →
      cs.all isNameChar = true → SpellsName n (c :: cs)
  | raw {n : String} : n.toList ≠ [] → n.toList.all isRawNameChar = true →
      SpellsName n ('r' :: '#' :: n.toList)

theorem not_raw_of_mem_stops : ∀ c ∈ stops, isRawNameChar c = false :=
  List.all_iff_forall_prop.mp (by decide)

theorem not_name_of_mem_stops : ∀ c ∈ stops, isNameChar c = false :=
  List.all_iff_forall_prop.mp (by decide)

theorem run_name_cons {c : Char} {cs : List Char} (hquote : ∀ x, c = 'r' → cs ≠ '"' :: x)
    (hhash : ∀ x, c = 'r' → cs ≠ '#' :: x) :
    name.run (c :: cs) =
      if startsName c && !((cs.dropWhile isNameChar).head?.map isRawNameChar).getD false then
        some (c :: cs.takeWhile isNameChar, cs.dropWhile isNameChar)
      else none := by
  rw [Reader.run, name]
  · split <;> rfl
  · exact hquote
  · exact hhash

/-- A name that is not raw is read up to where it stops. -/
theorem run_name_plain {c : Char} {cs rest : List Char} (hc : startsName c = true)
    (hcs : cs.all isNameChar = true) (h : Stops rest) :
    name.run (c :: cs ++ rest) = some (c :: cs, rest) := by
  have hstop := h.head_eq_false not_name_of_mem_stops
  have hraw := h.getD_head not_raw_of_mem_stops
  have hnext : ∀ d ∈ (cs ++ rest).head?, d ≠ '"' ∧ d ≠ '#' := by
    intro d hd
    cases cs with
    | nil => constructor <;> (rintro rfl; exact absurd (h _ hd) (by decide))
    | cons e cs =>
      cases hd
      rw [List.all_cons, Bool.and_eq_true] at hcs
      constructor <;> (rintro rfl; exact absurd hcs.1 (by decide))
  rw [List.cons_append, run_name_cons, takeWhile_run hcs hstop, dropWhile_run hcs hstop, hc, hraw]
  · rfl
  · intro x _ hx
    exact (hnext '"' (by rw [hx]; rfl)).1 rfl
  · intro x _ hx
    exact (hnext '#' (by rw [hx]; rfl)).2 rfl

theorem run_name_raw {cs rest : List Char} (hne : cs ≠ []) (hcs : cs.all isRawNameChar = true)
    (h : Stops rest) : name.run ('r' :: '#' :: cs ++ rest) = some (cs, rest) := by
  have hstop := h.head_eq_false not_raw_of_mem_stops
  rw [List.cons_append, List.cons_append, Reader.run, name]
  simp only [takeWhile_run hcs hstop, dropWhile_run hcs hstop, if_neg hne]
  rfl

/-- **A name is read from each of its spellings.** -/
theorem run_name {n : String} {t rest : List Char} (hn : SpellsName n t) (h : Stops rest) :
    name.run (t ++ rest) = some (n.toList, rest) := by
  cases hn with
  | plain heq hc hcs => rw [heq, run_name_plain hc hcs h]
  | raw hne hcs => exact run_name_raw hne hcs h

/-! ### Words -/

theorem run_wholeWord {w : String} (hw : w ≠ "") (cs : List Char) :
    (wholeWord w).run cs = (after? w.toList cs).bind fun rest =>
      if (rest.head?.map isNameChar).getD false then none else some ((), rest) := by
  have hword := Reader.run_word (mt String.toList_eq_nil_iff.mp hw) cs
  unfold Reader.run at hword ⊢
  unfold wholeWord
  cases hread : Reader.word w.toList cs with
  | none =>
    rw [hread] at hword
    rw [Option.map_eq_none_iff.mp hword.symm]
    rfl
  | some t =>
    rw [hread] at hword
    obtain ⟨rest, hrest, ht⟩ := Option.map_eq_some_iff.mp hword.symm
    cases ht
    rw [hrest, Option.bind_some]
    simp only [Option.filter_some]
    cases (t.rest.head?.map isNameChar).getD false <;> rfl

/-- A word is read where it stops. -/
theorem run_wholeWord_self {w : String} (hw : w ≠ "") {rest : List Char} (h : Stops rest) :
    (wholeWord w).run (w.toList ++ rest) = some ((), rest) := by
  rw [run_wholeWord hw, after?_eq_some_iff.mpr rfl, Option.bind_some,
    h.getD_head not_name_of_mem_stops]
  rfl

/-- A word is not read where something else starts. -/
theorem run_wholeWord_of_not_prefix {w : String} (hw : w ≠ "") {cs : List Char}
    (h : ¬ w.toList <+: cs) : (wholeWord w).run cs = none := by
  rw [run_wholeWord hw, after?_eq_none h]
  rfl

theorem run_wholeWord_of_head {w : String} (hw : w ≠ "") {c : Char} (h : w.toList.head? ≠ some c)
    (cs : List Char) : (wholeWord w).run (c :: cs) = none := by
  apply run_wholeWord_of_not_prefix hw
  rintro ⟨rest, hrest⟩
  cases hlist : w.toList with
  | nil => exact hw (String.toList_eq_nil_iff.mp hlist)
  | cons d ds =>
    rw [hlist] at hrest h
    cases hrest
    exact h rfl

/-- A word is not read off a name that only starts with it. -/
theorem run_wholeWord_of_name {w : String} (hw : w ≠ "") (hword : w.toList.all isNameChar = true)
    {t rest : List Char} (ht : t.all isNameChar = true) (h : Stops rest) (hne : t ≠ w.toList) :
    (wholeWord w).run (t ++ rest) = none := by
  rw [run_wholeWord hw]
  cases hafter : after? w.toList (t ++ rest) with
  | none => rfl
  | some behind =>
    rcases List.append_eq_append_iff.mp (after?_eq_some_iff.mp hafter) with
      ⟨more, hlong, hrest⟩ | ⟨more, hlong, hbehind⟩
    · -- The word would go on behind the name, where nothing goes on with it.
      cases more with
      | nil => exact absurd (by rw [hlong, List.append_nil]) hne
      | cons c more =>
        have hstop := h.head_eq_false not_name_of_mem_stops c (by rw [hrest]; rfl)
        rw [hlong, List.all_append, List.all_cons, hstop] at hword
        simp at hword
    · cases more with
      | nil => exact absurd (by rw [hlong, List.append_nil]) hne
      | cons c more =>
        rw [hlong, List.all_append, List.all_cons, Bool.and_eq_true, Bool.and_eq_true] at ht
        rw [hbehind, Option.bind_some]
        simp [ht.2.1]

end Adventure.Record.Ron
