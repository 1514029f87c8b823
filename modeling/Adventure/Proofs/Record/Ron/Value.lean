import Adventure.Proofs.Record.Ron.Written

/-!
A value is read from each of its spellings by what reads as many levels as it takes up
(`reads_of_written`).

The reader of values of some levels is `valueWith` of the readers of what they hold (`value_eq`), so
what holds others is read if they are, by induction on the levels.
-/

namespace Adventure.Record.Ron

open Text

/-! ### What a value is read by -/

section Reserved

variable {cs : List Char}

theorem run_reserved (cs : List Char) :
    reserved.run cs =
      (((wholeWord "true").run cs).map fun p => (Value.bool true, p.2)).or
        ((((wholeWord "false").run cs).map fun p => (Value.bool false, p.2)).or
          ((((wholeWord "None").run cs).map fun p => (Value.optional none, p.2)).or
            (((after? "()".toList cs).map fun rest => (Value.record none [], rest)).or
              ((special.run cs).map fun p => (Value.number .decimal, p.2))))) := by
  have hunit : (Reader.word "()".toList).run cs =
      (after? "()".toList cs).map fun rest => ((), rest) := Reader.run_word (by decide) cs
  rw [reserved]
  simp only [Reader.run_orElse, Reader.run_as, hunit, Option.map_map]
  rfl

theorem run_reserved_none (hwords : ∀ w ∈ words, w ≠ "Some" → (wholeWord w).run cs = none)
    (hunit : ¬ "()".toList <+: cs) (hspecial : special.run cs = none) : reserved.run cs = none := by
  rw [run_reserved, hwords "true" (by decide) (by decide), hwords "false" (by decide) (by decide),
    hwords "None" (by decide) (by decide), after?_eq_none hunit, hspecial]
  rfl

theorem run_special_of_words (hwords : ∀ w ∈ words, w ≠ "Some" → (wholeWord w).run cs = none)
    (hsign : ∀ c ∈ cs.head?, c ≠ '+' ∧ c ≠ '-') : special.run cs = none := by
  apply run_specials_none
  intro w hw
  rcases specials_words w hw with hword | ⟨c, hc, hmem⟩
  · exact hwords w hword (by rintro rfl; exact absurd hw (by decide))
  · apply run_wholeWord_of_not_prefix (specials_ne_empty w hw)
    rintro ⟨rest, hrest⟩
    have hhead : c ∈ cs.head? := by
      rw [← hrest, List.head?_append, Option.mem_def.mp hmem]
      rfl
    rcases hc with rfl | rfl
    · exact (hsign '+' hhead).1 rfl
    · exact (hsign '-' hhead).2 rfl

end Reserved

theorem run_reserved_unit (rest : List Char) :
    reserved.run ('(' :: ')' :: rest) = some (.record none [], rest) := by
  have hwords : ∀ w ∈ words, (wholeWord w).run ('(' :: ')' :: rest) = none := fun w hw =>
    run_wholeWord_of_not_startsName rfl hw _
  have hunit : after? "()".toList ('(' :: ')' :: rest) = some rest := rfl
  rw [run_reserved, hwords "true" (by decide), hwords "false" (by decide),
    hwords "None" (by decide), hunit]
  rfl

/-- A word is none of the others. -/
theorem run_wholeWord_other {u w : String} (hu : u ∈ words) (hw : w ∈ words) (hne : w ≠ u)
    {rest : List Char} (hrest : Stops rest) : (wholeWord u).run (w.toList ++ rest) = none :=
  run_wholeWord_of_name (words_isNameChar u hu).1 (words_isNameChar u hu).2
    (words_isNameChar w hw).2 hrest (mt String.toList_inj.mp hne)

theorem run_reserved_true {rest : List Char} (h : Stops rest) :
    reserved.run ("true".toList ++ rest) = some (.bool true, rest) := by
  rw [run_reserved, run_wholeWord_self (by decide) h]
  rfl

theorem run_reserved_false {rest : List Char} (h : Stops rest) :
    reserved.run ("false".toList ++ rest) = some (.bool false, rest) := by
  rw [run_reserved, run_wholeWord_other (by decide) (by decide) (by decide) h,
    run_wholeWord_self (by decide) h]
  rfl

theorem run_reserved_optional {rest : List Char} (h : Stops rest) :
    reserved.run ("None".toList ++ rest) = some (.optional none, rest) := by
  rw [run_reserved, run_wholeWord_other (by decide) (by decide) (by decide) h,
    run_wholeWord_other (by decide) (by decide) (by decide) h, run_wholeWord_self (by decide) h]
  rfl

theorem run_reserved_special {w : String} (hw : w ∈ specials) {rest : List Char}
    (h : Stops rest) : reserved.run (w.toList ++ rest) = some (.number .decimal, rest) := by
  have hwords : ∀ u ∈ ["true", "false", "None"], (wholeWord u).run (w.toList ++ rest) = none := by
    intro u hu
    have huword : u ∈ words ∧ u ∉ specials ∧ u ≠ "" := by
      simp only [List.mem_cons, List.not_mem_nil, or_false] at hu
      rcases hu with rfl | rfl | rfl <;> decide
    rcases specials_words w hw with hword | ⟨c, hc, hhead⟩
    · exact run_wholeWord_other huword.1 hword (by rintro rfl; exact huword.2.1 hw) h
    · obtain ⟨cs, hcs⟩ := List.head?_eq_some_iff.mp hhead
      rw [hcs]
      exact run_wholeWord_of_not_startsName (by rcases hc with rfl | rfl <;> rfl) huword.1 _
  have hunit : after? "()".toList (w.toList ++ rest) = none := by
    apply after?_eq_none
    simp only [specials, List.mem_cons, List.not_mem_nil, or_false] at hw
    rcases hw with rfl | rfl | rfl | rfl | rfl | rfl <;> simp [List.cons_prefix_cons]
  rw [run_reserved, hwords "true" (by decide), hwords "false" (by decide),
    hwords "None" (by decide), hunit, run_special hw h]
  rfl

/-- What is behind `Some` is not read as a word. -/
theorem run_reserved_some {rest : List Char} (h : Stops rest) :
    reserved.run ("Some".toList ++ rest) = none := by
  have hwords : ∀ w ∈ words, w ≠ "Some" → (wholeWord w).run ("Some".toList ++ rest) = none :=
    fun w hw hne => run_wholeWord_other hw (by decide) hne.symm h
  have hlist : "Some".toList ++ rest = 'S' :: 'o' :: 'm' :: 'e' :: rest := rfl
  refine run_reserved_none hwords (by simp [List.cons_prefix_cons])
    (run_special_of_words hwords ?_)
  rw [hlist]
  intro c hc
  cases hc
  decide

/-- A name is no reserved word. -/
theorem SpellsTitle.run_reserved {n : String} {t rest : List Char} (h : SpellsTitle n t)
    (hrest : Stops rest) : reserved.run (t ++ rest) = none := by
  have hwords : ∀ w ∈ words, (wholeWord w).run (t ++ rest) = none := fun w hw =>
    h.run_wholeWord hrest hw
  obtain ⟨c, cs, rfl, hc⟩ := h.spells.head
  apply run_reserved_none fun w hw _ => hwords w hw
  · rw [show "()".toList = ['(', ')'] from rfl, List.cons_append, List.cons_prefix_cons]
    rintro ⟨rfl, -⟩
    cases hc
  · apply run_special_of_words fun w hw _ => hwords w hw
    intro d hd
    cases hd
    constructor <;> (rintro rfl; cases hc)

/-- What is read where neither a reserved word nor `Some` stands. -/
theorem run_valueWith_none {bare opens : Bool} {inner optional : Reader Value} {cs : List Char}
    (hreserved : reserved.run cs = none) (hsome : (wholeWord "Some").run cs = none)
    (hname : name.run cs = none) :
    (valueWith bare opens inner optional).run cs = (unnamed opens inner).run cs := by
  unfold Reader.run valueWith
  rw [Option.map_eq_none_iff.mp hreserved, Option.map_eq_none_iff.mp hsome,
    Option.map_eq_none_iff.mp hname]

theorem run_valueWith_reserved {bare opens : Bool} {inner optional : Reader Value} {cs : List Char}
    {p : Value × List Char} (hreserved : reserved.run cs = some p) :
    (valueWith bare opens inner optional).run cs = some p := by
  obtain ⟨t, ht, rfl⟩ := Option.map_eq_some_iff.mp hreserved
  unfold Reader.run valueWith
  rw [ht]
  rfl

theorem run_valueWith_some {bare opens : Bool} {inner optional : Reader Value}
    {cs rest : List Char} (hreserved : reserved.run cs = none)
    (hsome : (wholeWord "Some").run cs = some ((), rest)) :
    (valueWith bare opens inner optional).run cs = (behindSome bare optional).run rest := by
  obtain ⟨t, ht, heq⟩ := Option.map_eq_some_iff.mp hsome
  simp only [Prod.mk.injEq] at heq
  unfold Reader.run valueWith
  rw [Option.map_eq_none_iff.mp hreserved, ht, ← heq.2]
  exact Option.map_map _ _ _

/-- What is made of the one value, where just one is read. -/
def ofSole {α : Type} (make : Value → α) : List Value → Option α
  | [v] => some (make v)
  | [] | _ :: _ :: _ => none

theorem run_behindSome {bare : Bool} {inner : Reader Value} {cs rest : List Char}
    (h : gap.run cs = some ('(' :: rest)) :
    (behindSome bare inner).run cs =
      (Reader.run (Reader.upTo ')' gap true inner false) rest).bind fun p =>
        ofSole (fun v => (.optional (some v), p.2)) p.1 := by
  obtain ⟨⟨r, hr⟩, hgap, heq⟩ := Option.map_eq_some_iff.mp h
  cases heq
  unfold Reader.run behindSome
  rw [hgap]
  -- The parenthesis decides the outer match; what remains waits on what is read behind it.
  generalize Reader.upTo ')' gap true inner false = items
  conv =>
    enter [1, 2]
    whnf
  cases items rest with
  | none => rfl
  | some t =>
    obtain ⟨vs, behind, hb⟩ := t
    rcases vs with _ | ⟨v, _ | ⟨w, vs⟩⟩
    · rfl
    · rfl
    · rfl

theorem run_valueWith_name {bare opens : Bool} {inner optional : Reader Value}
    {cs rest : List Char} {n : List Char} (hreserved : reserved.run cs = none)
    (hsome : (wholeWord "Some").run cs = none) (hname : name.run cs = some (n, rest)) :
    (valueWith bare opens inner optional).run cs =
      (behindName opens inner (String.ofList n) rest).map fun p => (p.1, p.2.1) := by
  obtain ⟨t, ht, heq⟩ := Option.map_eq_some_iff.mp hname
  cases heq
  unfold Reader.run valueWith
  rw [Option.map_eq_none_iff.mp hreserved, Option.map_eq_none_iff.mp hsome, ht]
  exact Option.map_map _ _ _

theorem behindName_open {inner : Reader Value} {n : String} {cs rest : List Char}
    (h : gap.run cs = some ('(' :: rest)) :
    ((behindName true inner n cs).map fun p => (p.1, p.2.1)) =
      (parenthesis inner (some n)).run rest := by
  obtain ⟨⟨r, hr⟩, hgap, heq⟩ := Option.map_eq_some_iff.mp h
  cases heq
  unfold behindName
  rw [hgap]
  exact Option.map_map _ _ _

theorem behindName_alone {opens : Bool} {inner : Reader Value} {n : String} {cs left : List Char}
    (h : gap.run cs = some left) (hleft : ∀ c ∈ left.head?, c ≠ '(') :
    ((behindName opens inner n cs).map fun p => (p.1, p.2.1)) = some (.name n, left) := by
  obtain ⟨⟨r, hr⟩, hgap, heq⟩ := Option.map_eq_some_iff.mp h
  cases heq
  unfold behindName
  rw [hgap]
  split
  · rename_i h
    cases h
  · rename_i h
    cases h
    exact absurd rfl (hleft '(' rfl)
  · rename_i h
    cases h
    rfl

/-- A row of values is read if its values are. -/
theorem Row.reads_values {inner : Reader Value} {close : Char}
    {vs : List Value} {k : Nat} {t : List Char} (h : Row Written close vs k t)
    (hclose : close ∈ marks) (hcomma : close ≠ ',')
    (hinner : ∀ v j t, j < k → Written v j t → Reads inner v t)
    {mayClose : Bool} (hempty : vs = [] → mayClose = true) (rest : List Char) :
    Reader.run (Reader.upTo close gap true inner mayClose) (t ++ rest) = some (vs, rest) := by
  have hitem : ∀ v j t, j < k → Written v j t → Starts t ∧ Reads inner (id v) t :=
    fun v j t hj hv => ⟨hv.starts, hinner v j t hj hv⟩
  have hread := h.reads hclose hcomma hitem hempty rest
  rwa [List.map_id] at hread

/-! ### What is in a parenthesis -/

/-- What is left behind a name and the gaps around it. -/
def behindFirstName (cs : List Char) : Option (List Char) :=
  (gap.run cs).bind fun start => (name.run start).bind fun p => gap.run p.2

theorem startsField_iff (cs : List Char) :
    startsField cs = true ↔ ∃ more, behindFirstName cs = some (':' :: more) := by
  unfold startsField behindFirstName Gap.run Reader.run
  cases gap cs with
  | none => simp
  | some r =>
    obtain ⟨start, hr⟩ := r
    simp only [Option.map_some, Option.bind_some]
    cases name start with
    | none => simp
    | some t =>
      simp only [Option.map_some, Option.bind_some]
      split
      · rename_i h
        simp [h]
      · rename_i hnot
        simp only [Bool.false_eq_true, false_iff]
        rintro ⟨more, hmore⟩
        obtain ⟨⟨q, hq⟩, hgap, heq⟩ := Option.map_eq_some_iff.mp hmore
        cases heq
        exact hnot _ _ hgap

theorem run_parenthesis (inner : Reader Value) (n : Option String) (cs : List Char) :
    (parenthesis inner n).run cs =
      if startsField cs then
        (Reader.run (Reader.upTo ')' gap true (pair name inner) true) cs).map fun p =>
          (.record n (p.1.map fun e => (String.ofList e.1, e.2)), p.2)
      else
        (Reader.run (Reader.upTo ')' gap true inner true) cs).map fun p =>
          (if p.1.isEmpty then .record n [] else .tuple n p.1, p.2) := by
  unfold Reader.run parenthesis
  split
  · rw [Option.map_map, Option.map_map]
    rfl
  · rw [Option.map_map, Option.map_map]
    rfl

section Parenthesis

variable {inner : Reader Value} {k : Nat} {t : List Char}

theorem behindFirstName_append {g : List Char} (hg : IsGap g) (ht : Starts t) (rest : List Char) :
    behindFirstName (g ++ (t ++ rest)) = (name.run (t ++ rest)).bind fun p => gap.run p.2 := by
  rw [behindFirstName, run_gap_append hg, (ht.append rest).run_gap]
  rfl

theorem startsField_closed {g : List Char} (hg : IsGap g) (rest : List Char) :
    startsField (g ++ ')' :: rest) = false := by
  rw [Bool.eq_false_iff, Ne, startsField_iff, behindFirstName, run_gap_mark (by decide) hg]
  rintro ⟨more, hmore⟩
  rw [Option.bind_some, run_name_of_not_startsName rfl] at hmore
  cases hmore

/-- A row of values does not start with the name of a field. -/
theorem startsField_items {vs : List Value} (h : Row Written ')' vs k t) (hne : vs ≠ [])
    (rest : List Char) : startsField (t ++ rest) = false := by
  obtain ⟨v, j, g, s, g', c, more, -, hv, hg, hg', hc, rfl⟩ := h.first hne
  have hmark : c ∈ marks ∧ c ≠ ':' := by rcases hc with rfl | rfl <;> decide
  have hshape : g ++ (s ++ (g' ++ c :: more)) ++ rest =
      g ++ (s ++ (g' ++ c :: (more ++ rest))) := by simp
  rw [Bool.eq_false_iff, Ne, startsField_iff, hshape, behindFirstName_append hg hv.starts]
  rintro ⟨colon, hcolon⟩
  obtain ⟨p, hp, hgap⟩ := Option.bind_eq_some_iff.mp hcolon
  rcases run_name_written hv (Ended.of_mark hmark.1 hg' _) p hp with hends | ⟨left, hopens⟩
  · rw [hends, run_gap_mark hmark.1 hg'] at hgap
    cases hgap
    exact hmark.2 rfl
  · cases hopens.symm.trans hgap

theorem startsField_fields {fields : List (String × Value)}
    (h : Row (Pair (fun n _ => SpellsName n) Written) ')' fields k t) (hne : fields ≠ [])
    (rest : List Char) : startsField (t ++ rest) = true := by
  obtain ⟨_, j, g, s, g', c, more, -, hpair, hg, hg', -, rfl⟩ := h.first hne
  cases hpair with
  | @intro _ n v s t g₁ g₂ hn hg₁ _ _ =>
  have hshape : g ++ (s ++ (g₁ ++ ':' :: (g₂ ++ t)) ++ (g' ++ c :: more)) ++ rest =
      g ++ (s ++ (g₁ ++ ':' :: (g₂ ++ t ++ (g' ++ c :: more) ++ rest))) := by simp
  rw [startsField_iff, hshape, behindFirstName_append hg (Starts.of_name hn),
    run_name hn (Ended.of_mark (by decide) hg₁ _).stops]
  exact ⟨_, run_gap_mark (by decide) hg₁ _⟩

/-- Fields in a parenthesis are read as a record. -/
theorem parenthesis_fields {fields : List (String × Value)}
    (h : Row (Pair (fun n _ => SpellsName n) Written) ')' fields k t)
    (hinner : ∀ v j t, j < k → Written v j t → Reads inner v t)
    (n : Option String) (rest : List Char) :
    (parenthesis inner n).run (t ++ rest) = some (.record n fields, rest) := by
  by_cases hne : fields = []
  · subst hne
    cases h with
    | @closed k g hg =>
      rw [run_parenthesis, List.append_assoc, List.singleton_append, startsField_closed hg,
        if_neg (by decide), run_upTo_closed (by decide) hg]
      rfl
  · have hpair : ∀ e j t, j < k → Pair (fun n _ => SpellsName n) Written e j t →
        Starts t ∧ Reads (pair name inner) (e.1.toList, e.2) t := by
      rintro _ j _ hj ⟨hn, hg, hg', hv⟩
      have hname := Reads.of_run fun rest hrest => run_name hn hrest
      exact ⟨(Starts.of_name hn).append _,
        Pair.reads hname (hinner _ j _ hj hv) hv.starts hg hg'⟩
    have hid : ((fun e : List Char × Value => (String.ofList e.1, e.2)) ∘
        fun e : String × Value => (e.1.toList, e.2)) = id := by
      funext e
      rw [Function.comp_apply, String.ofList_toList]
      rfl
    rw [run_parenthesis, if_pos (startsField_fields h hne rest),
      h.reads (by decide) (by decide) hpair (fun _ => rfl) rest, Option.map_some, List.map_map, hid,
      List.map_id]

/-- Values in a parenthesis are read as a tuple. -/
theorem parenthesis_items {vs : List Value} (h : Row Written ')' vs k t) (hne : vs ≠ [])
    (hinner : ∀ v j t, j < k → Written v j t → Reads inner v t)
    (n : Option String) (rest : List Char) :
    (parenthesis inner n).run (t ++ rest) = some (.tuple n vs, rest) := by
  rw [run_parenthesis, startsField_items h hne rest, if_neg (by decide),
    h.reads_values (by decide) (by decide) hinner (fun _ => rfl) rest, Option.map_some,
    if_neg (by rw [List.isEmpty_iff]; exact hne)]

end Parenthesis

/-! ### Each kind of value -/

section Kinds

variable {bare opens : Bool} {inner optional : Reader Value} {k : Nat}
  {t : List Char}

/-- Where neither a name nor a sign stands, nor an empty pair of parentheses. -/
theorem run_valueWith_head {c : Char} {cs : List Char} (hname : startsName c = false)
    (hsign : c ≠ '+' ∧ c ≠ '-') (hunit : ¬ "()".toList <+: c :: cs) :
    (valueWith bare opens inner optional).run (c :: cs) = (unnamed opens inner).run (c :: cs) := by
  have hwords : ∀ w ∈ words, (wholeWord w).run (c :: cs) = none := fun w hw =>
    run_wholeWord_of_not_startsName hname hw cs
  have hspecial : special.run (c :: cs) = none := by
    apply run_special_of_words fun w hw _ => hwords w hw
    intro d hd
    cases hd
    exact hsign
  have hreserved : reserved.run (c :: cs) = none :=
    run_reserved_none (fun w hw _ => hwords w hw) hunit hspecial
  exact run_valueWith_none hreserved (hwords "Some" (by decide))
    (run_name_of_not_startsName hname cs)

theorem run_unnamed_parenthesis (cs : List Char) :
    (unnamed true inner).run ('(' :: cs) = (parenthesis inner none).run cs := by
  rw [Reader.run, unnamed]
  exact Option.map_map _ _ _

theorem run_unnamed_list (cs : List Char) :
    (unnamed true inner).run ('[' :: cs) =
      (Reader.run (Reader.upTo ']' gap true inner true) cs).map fun p => (.list p.1, p.2) := by
  rw [Reader.run, unnamed, if_pos rfl, Reader.run, Option.map_map, Option.map_map]
  rfl

theorem run_unnamed_map (cs : List Char) :
    (unnamed true inner).run ('\x7b' :: cs) =
      (Reader.run (Reader.upTo '\x7d' gap true (pair inner inner) true) cs).map fun p =>
        (.map p.1, p.2) := by
  rw [Reader.run, unnamed, if_pos rfl, Reader.run, Option.map_map, Option.map_map]
  rfl

theorem run_unnamed_char (cs : List Char) :
    (unnamed opens inner).run ('\'' :: cs) =
      (char.run ('\'' :: cs)).map fun p => (.char p.1, p.2) := by
  rw [Reader.run, unnamed]
  exact Reader.run_map Value.char char ('\'' :: cs)

theorem run_unnamed_text {c : Char} (hc : c = '"' ∨ c = 'r') (cs : List Char) :
    (unnamed opens inner).run (c :: cs) = (text.run (c :: cs)).map fun p => (.text p.1, p.2) := by
  rcases hc with rfl | rfl
  · rw [Reader.run, unnamed]
    exact Reader.run_map Value.text text ('"' :: cs)
  · rw [Reader.run, unnamed]
    exact Reader.run_map Value.text text ('r' :: cs)

theorem run_unnamed_number {c : Char} (hc : c ∉ ['(', '[', '\x7b', '\'', '"', 'r'])
    (cs : List Char) :
    (unnamed opens inner).run (c :: cs) =
      (number.run (c :: cs)).map fun p => (.number p.1, p.2) := by
  have hne : ∀ d ∈ ['(', '[', '\x7b', '\'', '"', 'r'], ∀ rest, c :: cs = d :: rest → False := by
    intro d hd rest h
    cases h
    exact hc hd
  rw [Reader.run, unnamed]
  · exact Reader.run_map Value.number number (c :: cs)
  all_goals exact hne _ (by decide)

theorem reads_list {vs : List Value} (h : Row Written ']' vs k t)
    (hinner : ∀ v j t, j < k → Written v j t → Reads inner v t) :
    Reads (valueWith bare true inner optional) (.list vs) ('[' :: t) := by
  refine .of_run fun rest _ => ?_
  rw [List.cons_append, run_valueWith_head rfl (by decide) (by simp [List.cons_prefix_cons]),
    run_unnamed_list, h.reads_values (by decide) (by decide) hinner (fun _ => rfl) rest]
  rfl

theorem reads_map {es : List (Value × Value)} (h : Row (Pair Written Written) '\x7d' es k t)
    (hinner : ∀ v j t, j < k → Written v j t → Reads inner v t) :
    Reads (valueWith bare true inner optional) (.map es) ('\x7b' :: t) := by
  have hitem : ∀ e j t, j < k → Pair Written Written e j t →
      Starts t ∧ Reads (pair inner inner) (id e) t := by
    rintro e j _ hj ⟨ha, hg, hg', hb⟩
    exact ⟨ha.starts.append _,
      Pair.reads (hinner _ j _ hj ha) (hinner _ j _ hj hb) hb.starts hg hg'⟩
  refine .of_run fun rest _ => ?_
  rw [List.cons_append, run_valueWith_head rfl (by decide) (by simp [List.cons_prefix_cons]),
    run_unnamed_map, h.reads (by decide) (by decide) hitem (fun _ => rfl) rest, List.map_id]
  rfl

/-- What stands in a parenthesis is read as a value if the parenthesis is, with a name in front or
none. -/
theorem reads_parenthesis {n : Option String} {s : List Char} {v : Value} (hs : SpellsHead n s)
    (hempty : ∀ more, t = ')' :: more → v = .record n [] ∧ more = []) (hne : t ≠ [])
    (h : ∀ rest, (parenthesis inner n).run (t ++ rest) = some (v, rest)) :
    Reads (valueWith bare true inner optional) v (s ++ '(' :: t) := by
  refine .of_run fun rest _ => ?_
  cases hs with
  | none =>
    by_cases hunit : "()".toList <+: '(' :: (t ++ rest)
    · -- An empty pair of parentheses is a reserved word.
      have hshape : ∃ more, t = ')' :: more := by
        rw [show "()".toList = ['(', ')'] from rfl, List.cons_prefix_cons] at hunit
        cases t with
        | nil => exact absurd rfl hne
        | cons c cs =>
          rw [List.cons_append, List.cons_prefix_cons] at hunit
          exact ⟨cs, by rw [← hunit.2.1]⟩
      obtain ⟨more, rfl⟩ := hshape
      obtain ⟨rfl, rfl⟩ := hempty more rfl
      exact run_valueWith_reserved (run_reserved_unit rest)
    · rw [List.nil_append, List.cons_append, run_valueWith_head rfl (by decide) hunit,
        run_unnamed_parenthesis]
      exact h rest
  | @some n s g hn hg =>
    have hshape : s ++ g ++ '(' :: t ++ rest = s ++ (g ++ '(' :: (t ++ rest)) := by simp
    have hstop := stops_open hg (t ++ rest)
    have hwords : ∀ w ∈ words, (wholeWord w).run (s ++ (g ++ '(' :: (t ++ rest))) = none :=
      fun w hw => hn.run_wholeWord hstop hw
    rw [hshape, run_valueWith_name (hn.run_reserved hstop) (hwords "Some" (by decide))
      (run_name hn.spells hstop), behindName_open (run_gap_open hg _), String.ofList_toList]
    exact h rest

/-- A word with a meaning of its own is read as the value that it means. -/
theorem reads_reserved {v : Value}
    (h : ∀ rest, Stops rest → reserved.run (t ++ rest) = some (v, rest)) :
    Reads (valueWith bare opens inner optional) v t :=
  .of_run fun rest hrest => run_valueWith_reserved (h rest hrest)

theorem reads_number {n : Number} (h : SpellsNumber n t) :
    Reads (valueWith bare opens inner optional) (.number n) t := by
  rcases h.special_or_signed with ⟨w, hw, rfl, rfl⟩ | ⟨sign, s, c, cs, hs, rfl, hc⟩
  · exact reads_reserved fun rest hrest => run_reserved_special hw hrest
  · refine .of_run fun rest hrest => ?_
    have hhead : ∃ d ds, s ++ c :: cs ++ rest = d :: ds ∧ startsName d = false ∧
        d ∉ ['(', '[', '\x7b', '\'', '"', 'r'] := by
      cases hs with
      | none =>
        refine ⟨c, cs ++ rest, rfl, not_startsName_of_startsNumber hc, ?_⟩
        intro hmem
        simp only [List.mem_cons, List.not_mem_nil, or_false] at hmem
        rcases hmem with rfl | rfl | rfl | rfl | rfl | rfl <;> cases hc
      | plus => exact ⟨'+', _, rfl, rfl, by decide⟩
      | minus => exact ⟨'-', _, rfl, rfl, by decide⟩
    have hspecial : special.run (s ++ c :: cs ++ rest) = none := by
      rw [List.append_assoc]
      exact run_special_none hs hc
    have hread := run_number h hrest
    obtain ⟨d, ds, hds, hname, hunnamed⟩ := hhead
    rw [hds] at hspecial hread
    have hwords : ∀ w ∈ words, (wholeWord w).run (d :: ds) = none := fun w hw =>
      run_wholeWord_of_not_startsName hname hw ds
    have hunit : ¬ "()".toList <+: d :: ds := by
      rw [show "()".toList = ['(', ')'] from rfl, List.cons_prefix_cons]
      rintro ⟨rfl, -⟩
      exact hunnamed (by decide)
    rw [hds, run_valueWith_none (run_reserved_none (fun w hw _ => hwords w hw) hunit hspecial)
      (hwords "Some" (by decide)) (run_name_of_not_startsName hname ds),
      run_unnamed_number hunnamed, hread]
    rfl

theorem reads_char {c : Char} (h : SpellsChar c t) :
    Reads (valueWith bare opens inner optional) (.char c) t := by
  refine .of_run fun rest _ => ?_
  have hread := run_char h rest
  obtain ⟨cs, hcs⟩ : ∃ cs, t ++ rest = '\'' :: cs := by cases h <;> exact ⟨_, rfl⟩
  rw [hcs] at hread ⊢
  rw [run_valueWith_head rfl (by decide) (by simp [List.cons_prefix_cons]), run_unnamed_char, hread]
  rfl

theorem reads_text {s : String} (h : SpellsText s t) :
    Reads (valueWith bare opens inner optional) (.text s) t := by
  refine .of_run fun rest _ => ?_
  have hread := run_text h rest
  cases h with
  | @quoted t _ =>
    rw [List.cons_append, List.cons_append] at hread ⊢
    rw [run_valueWith_head rfl (by decide) (by simp [List.cons_prefix_cons]),
      run_unnamed_text (Or.inl rfl), hread]
    rfl
  | @raw hashes hall _ =>
    rw [rawText_append] at hread ⊢
    have hwords : ∀ w ∈ words, ∀ cs, (wholeWord w).run ('r' :: cs) = none := fun w hw cs =>
      run_wholeWord_of_head (words_isNameChar w hw).1
        (fun hr => (words_startsName w hw 'r' hr).2 rfl) cs
    have hreserved : ∀ cs, reserved.run ('r' :: cs) = none := fun cs =>
      run_reserved_none (fun w hw _ => hwords w hw cs) (by simp [List.cons_prefix_cons])
        (run_special_of_words (fun w hw _ => hwords w hw cs) (by simp))
    rw [run_valueWith_none (hreserved _) (hwords "Some" (by decide) _) (run_name_rawText hall _),
      run_unnamed_text (Or.inr rfl), hread]
    rfl

/-- What is left behind a name alone is what stands behind the gap. -/
theorem reads_name {n : String} (h : SpellsTitle n t) :
    Reads (valueWith bare opens inner optional) (.name n) t := by
  intro rest hrest
  have hstop := hrest.stops
  obtain ⟨left, hgap, hleft⟩ := hrest
  have hopen : ∀ c ∈ left.head?, c ≠ '(' := by
    rintro c hc rfl
    exact absurd (hleft _ hc) (by decide)
  refine ⟨left, ?_, ?_⟩
  · rw [run_valueWith_name (h.run_reserved hstop) (h.run_wholeWord hstop (by decide))
      (run_name h.spells hstop), behindName_alone hgap hopen, String.ofList_toList]
  · rw [hgap, run_gap_solid fun c hc => solid_of_mem_marks c (hleft c hc)]

theorem reads_some {v : Value} {g : List Char} (hg : IsGap g) (h : Row Written ')' [v] k t)
    (hoptional : ∀ v j t, j < k → Written v j t → Reads optional v t) :
    Reads (valueWith bare opens inner optional) (.optional (some v))
      ("Some".toList ++ (g ++ '(' :: t)) := by
  refine .of_run fun rest _ => ?_
  have hshape : "Some".toList ++ (g ++ '(' :: t) ++ rest =
      "Some".toList ++ (g ++ '(' :: (t ++ rest)) := by simp
  rw [hshape, run_valueWith_some (run_reserved_some (stops_open hg _))
    (run_wholeWord_self (by decide) (stops_open hg _)), run_behindSome (run_gap_open hg _),
    h.reads_values (by decide) (by decide) hoptional (by simp) rest]
  rfl

end Kinds

/-! ### All values -/

/-- What reads the parts of a value of some levels. -/
def innerAt (bare : Bool) : Nat → Reader Value
  | 0 | 1 => .never
  | levels + 2 => value bare levels

/-- What reads the value behind `Some`. -/
def optionalAt (bare : Bool) : Nat → Reader Value
  | 0 => .never
  | levels + 1 => value bare levels

theorem value_eq (bare : Bool) (levels : Nat) :
    value bare levels =
      valueWith bare (0 < levels) (innerAt bare levels) (optionalAt bare levels) := by
  funext cs
  match levels with
  | 0 => rw [value]; rfl
  | 1 => rw [value]; rfl
  | levels + 2 => rw [value]; rfl

/-- **A value is read from each of its spellings** that nests no deeper than the levels that are
read. -/
theorem reads_of_written {v : Value} {k : Nat} {t : List Char} (h : Written v k t) (bare : Bool)
    {levels : Nat} (hk : k ≤ levels) : Reads (value bare levels) v t := by
  induction k using Nat.strong_induction_on generalizing v t levels with
  | _ k ih =>
  have hinner : ∀ {k'}, k = k' + 1 → ∀ v j t, j < k' → Written v j t →
      Reads (innerAt bare levels) v t := by
    rintro k' rfl v j t hj hv
    obtain ⟨n, rfl⟩ : ∃ n, levels = n + 2 := ⟨levels - 2, by omega⟩
    exact ih j (by omega) hv (by omega)
  have hoptional : ∀ v j t, j < k → Written v j t → Reads (optionalAt bare levels) v t := by
    intro v j t hj hv
    obtain ⟨n, rfl⟩ : ∃ n, levels = n + 1 := ⟨levels - 1, by omega⟩
    exact ih j hj hv (by omega)
  have hopens : 0 < k → decide (0 < levels) = true := fun hpos =>
    decide_eq_true (Nat.lt_of_lt_of_le hpos hk)
  rw [value_eq]
  cases h with
  | true => exact reads_reserved fun _ => run_reserved_true
  | false => exact reads_reserved fun _ => run_reserved_false
  | none => exact reads_reserved fun _ => run_reserved_optional
  | unit => exact reads_reserved fun rest _ => run_reserved_unit rest
  | number hn => exact reads_number hn
  | char hc => exact reads_char hc
  | text hs => exact reads_text hs
  | name hn => exact reads_name hn
  | some hg hrow => exact reads_some hg hrow hoptional
  | list hrow =>
    rw [hopens (Nat.succ_pos _)]
    exact reads_list hrow (hinner rfl)
  | map hrow =>
    rw [hopens (Nat.succ_pos _)]
    exact reads_map hrow (hinner rfl)
  | record hs hrow =>
    rw [hopens (Nat.succ_pos _)]
    refine reads_parenthesis hs ?_ hrow.ne_nil (parenthesis_fields hrow (hinner rfl) _)
    rintro more rfl
    obtain ⟨rfl, rfl⟩ := hrow.eq_nil (by decide) fun _ _ _ ⟨hn, _, _, _⟩ =>
      (Starts.of_name hn).append _
    exact ⟨rfl, rfl⟩
  | tuple hs hne hrow =>
    rw [hopens (Nat.succ_pos _)]
    refine reads_parenthesis hs ?_ hrow.ne_nil (parenthesis_items hrow hne (hinner rfl) _)
    rintro more rfl
    exact absurd (hrow.eq_nil (by decide) fun _ _ _ hv => hv.starts).1 hne

end Adventure.Record.Ron
