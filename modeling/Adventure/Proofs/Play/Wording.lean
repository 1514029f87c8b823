import Adventure.Play.Choice
import Adventure.Proofs.Condition.Exchange

/-!
Guards in the words for the roster.

A player who decides is alone on the roster that the guards look at. So a guard may say `character`
where another says `party`: decisions whose guards differ in such words alone are open to the player
at the same time (`availableDecisions_reworded`). Only a guard that cannot be evaluated may show
which word it uses. The search ends at the same decision then, with the same error but for the scope
that the guard names and the place that its words move (`not_availableDecisions_same_error`).
-/

namespace Adventure

/-- Decisions that differ in nothing but words for the roster in their guards. -/
structure DecisionOption.Reworded (o o' : DecisionOption) : Prop where
  text : o.text = o'.text
  targetUri : o.targetUri = o'.targetUri
  order : o.order = o'.order
  guard : Option.Rel (fun script script' => Condition.Exchanged script.toList script'.toList)
    o.guard o'.guard

namespace Play

open Condition

/-- Outcomes of looking for open decisions on the left and on the right of some rows. Either the
same rows are open, or both searches end at the first row whose guards cannot be evaluated, with
errors that are alike: they name the word of their own guard for a scope, and tell the same place in
it. -/
inductive OpenAlike (d : GameData) (rows : List (DecisionOption × DecisionOption)) :
    Except Error (List DecisionOption) → Except Error (List DecisionOption) → Prop where
  | kept {kept : List (DecisionOption × DecisionOption)} (h : kept.Sublist rows) :
    OpenAlike d rows (.ok (kept.map Prod.fst)) (.ok (kept.map Prod.snd))
  | refused {before behind : List (DecisionOption × DecisionOption)} {o o' : DecisionOption}
    (hrows : rows = before ++ (o, o') :: behind)
    (hbefore : ∀ r ∈ before, ∃ isOpen, evaluateGuard r.1.guard d = .ok isOpen ∧
      evaluateGuard r.2.guard d = .ok isOpen)
    {script script' : String} (hguard : o.guard = some script) (hguard' : o'.guard = some script')
    {e e' : Error} (he : evaluate script d = .error e) (he' : evaluate script' d = .error e')
    (h : ToldAlike script script' e e') : OpenAlike d rows (.error e) (.error e')

/-- The guards of reworded decisions say the same of a player who is alone on the roster, or neither
can be evaluated. -/
theorem evaluateGuard_reworded {d : GameData} (hone : d.characters.length = 1)
    {o o' : DecisionOption} (h : o.Reworded o') :
    (∃ isOpen, evaluateGuard o.guard d = .ok isOpen ∧ evaluateGuard o'.guard d = .ok isOpen) ∨
      ∃ script script' e e', o.guard = some script ∧ o'.guard = some script' ∧
        evaluate script d = .error e ∧ evaluate script' d = .error e' ∧
        ToldAlike script script' e e' := by
  have hguard := h.guard
  generalize o.guard = guard at hguard
  generalize o'.guard = guard' at hguard
  cases hguard with
  | none => exact .inl ⟨true, rfl, rfl⟩
  | @some script script' hscript =>
    have hagree := hscript.evaluate_agree hone
    generalize hleft : evaluate script d = left at hagree
    generalize hright : evaluate script' d = right at hagree
    cases hagree with
    | @ok isOpen _ hsame => exact .inl ⟨isOpen, hleft, hsame ▸ hright⟩
    | error he => exact .inr ⟨script, script', _, _, rfl, rfl, hleft, hright, he⟩

/-- A row whose guards can be evaluated may come before the rows that are searched. -/
theorem OpenAlike.cons {d : GameData} {rows : List (DecisionOption × DecisionOption)}
    {left right : Except Error (List DecisionOption)} (h : OpenAlike d rows left right)
    {o o' : DecisionOption} {isOpen : Bool} (ho : evaluateGuard o.guard d = .ok isOpen)
    (ho' : evaluateGuard o'.guard d = .ok isOpen) :
    OpenAlike d ((o, o') :: rows)
      (do let others ← left; return if isOpen then o :: others else others)
      (do let others ← right; return if isOpen then o' :: others else others) := by
  cases h with
  | kept h =>
    cases isOpen with
    | true => exact .kept (h.cons_cons (o, o'))
    | false => exact .kept (h.cons (o, o'))
  | refused hrows hbefore hguard hguard' he he' h =>
    subst hrows
    refine .refused (List.cons_append ..).symm (fun r hr => ?_) hguard hguard' he he' h
    rcases List.mem_cons.mp hr with rfl | hr
    · exact ⟨isOpen, ho, ho'⟩
    · exact hbefore r hr

/-- **Reworded decisions are open at the same time**, for a player who is alone on the roster. -/
theorem availableDecisions_reworded {d : GameData} (hone : d.characters.length = 1)
    {rows : List (DecisionOption × DecisionOption)} (hrows : ∀ r ∈ rows, r.1.Reworded r.2) :
    OpenAlike d rows (availableDecisions d (rows.map Prod.fst))
      (availableDecisions d (rows.map Prod.snd)) := by
  induction rows with
  | nil => exact .kept (List.Sublist.refl [])
  | cons r rest ih =>
    obtain ⟨o, o'⟩ := r
    obtain ⟨hfirst, hrest⟩ := List.forall_mem_cons.mp hrows
    rw [List.map_cons, List.map_cons, availableDecisions, availableDecisions]
    rcases evaluateGuard_reworded hone hfirst with
      ⟨isOpen, ho, ho'⟩ | ⟨script, script', e, e', hguard, hguard', he, he', htold⟩
    · rw [ho, ho']
      exact (ih hrest).cons ho ho'
    · rw [hguard, hguard']
      change OpenAlike d _ (evaluate script d >>= _) (evaluate script' d >>= _)
      rw [he, he']
      exact .refused (List.nil_append _).symm (List.forall_mem_nil _) hguard hguard' he he' htold

theorem length_forPlayers_singleton {d : GameData} {p : Nat} (hp : p < d.characters.length) :
    (d.forPlayers [p]).characters.length = 1 := by
  simp [GameData.forPlayers, hp]

/-- **For a single player `character` and `party` are one.** On a roster of one a tree says the same
alone, under the scope `character` and under the scope `party`, and any of these scopes in it may be
put for the other. So which decisions are open to a player does not depend on which of the two words
their guards use. Where a guard cannot be evaluated, the same decision is refused for the same reason;
an error that names a scope names the one that the guard itself names there, and an error that tells
a place tells where the words of the guard have moved it. -/
theorem rosterWords_alike :
    (∀ (t : Tree) (d : GameData), d.characters.length = 1 →
      (Tree.within .character t).holds d = t.holds d ∧
      (Tree.within .party t).holds d = t.holds d ∧
      ∀ t', t.Reworded t' → t'.holds d = t.holds d) ∧
    ∀ (d : GameData) (p : Nat), p < d.characters.length →
      ∀ rows : List (DecisionOption × DecisionOption), (∀ r ∈ rows, r.1.Reworded r.2) →
        OpenAlike (d.forPlayers [p]) rows (availableDecisions (d.forPlayers [p]) (rows.map Prod.fst))
          (availableDecisions (d.forPlayers [p]) (rows.map Prod.snd)) := by
  constructor
  · intro t d hone
    exact ⟨t.holds_within_of_sole hone rfl, t.holds_within_of_sole hone rfl,
      fun t' hsame => (hsame.holds_eq hone).symm⟩
  · intro d p hp rows hrows
    exact availableDecisions_reworded (length_forPlayers_singleton hp) hrows

/-- Ada may open the door, whichever words its guard uses. What she must be called is a name, and
stays. -/
theorem rosterWords_alike_door :
    let left := "character str > 10 and party has trait \"party\""
    let right := "party str > 10 and CHARACTER has trait \"party\""
    let door (guard : String) : DecisionOption := ⟨"Open it", "data:inn", some guard, .clamp 5⟩
    let wait : DecisionOption := ⟨"Wait", "data:night", none, .clamp 10⟩
    let d : GameData := { characters := [{ name := "Bo" },
      { name := "Ada", stats := { strength := .clamp 12 }, traits := ["party"] }] }
    let rows := [(door left, door right), (wait, wait)]
    let strong (s : Scope) : Tree := .within s (.phrase (.stat ⟨.strength, .greater, .clamp 10⟩))
    ((d.forPlayers [1]).characters.length = 1 ∧ (strong .party).Reworded (strong .character) ∧
      (strong .character).holds (d.forPlayers [1]) = (strong .party).holds (d.forPlayers [1]) ∧
      (strong .party).holds (d.forPlayers [1]) = true) ∧
    1 < d.characters.length ∧ (∀ r ∈ rows, r.1.Reworded r.2) ∧
      OpenAlike (d.forPlayers [1]) rows (availableDecisions (d.forPlayers [1]) (rows.map Prod.fst))
        (availableDecisions (d.forPlayers [1]) (rows.map Prod.snd)) ∧
      availableDecisions (d.forPlayers [1]) (rows.map Prod.snd) = .ok [door right, wait] := by
  intro left right door wait d rows strong
  have hcharacter : IsRosterWord "character".toList := isRosterWord_word (s := .character) rfl
  have hcapitals : IsRosterWord "CHARACTER".toList :=
    ⟨.character, rfl, .word (by decide) (by decide) (by decide)⟩
  have hparty : IsRosterWord "party".toList := isRosterWord_word (s := .party) rfl
  have hspace : ∀ rest : List Char, rest.head? = some ' ' →
      ∀ c ∈ rest.head?, isWordChar c = false := by
    intro rest hrest c hc
    rw [hrest] at hc
    cases hc
    decide
  have hsecond : Exchanged (" str > 10 and ".toList ++ "party".toList ++ " has trait \"party\"".toList)
      (" str > 10 and ".toList ++ "CHARACTER".toList ++ " has trait \"party\"".toList) :=
    .word ⟨by decide, by decide⟩ hparty hcapitals (hspace _ (by decide)) (.same _)
  have hfirst := Exchanged.word (⟨by decide, by decide⟩ : EndsApart []) hcharacter hparty
    (hspace _ (by decide)) hsecond
  have hguards : Exchanged left.toList right.toList := by
    have hleft : left.toList = [] ++ "character".toList ++
        (" str > 10 and ".toList ++ "party".toList ++ " has trait \"party\"".toList) := by decide
    have hright : right.toList = [] ++ "party".toList ++
        (" str > 10 and ".toList ++ "CHARACTER".toList ++ " has trait \"party\"".toList) := by decide
    rwa [hleft, hright]
  have hdoor : (door left).Reworded (door right) := ⟨rfl, rfl, rfl, .some hguards⟩
  have hrows : ∀ r ∈ rows, r.1.Reworded r.2 :=
    List.forall_mem_cons.mpr ⟨hdoor, List.forall_mem_singleton.mpr ⟨rfl, rfl, rfl, .none⟩⟩
  have hone : (d.forPlayers [1]).characters.length = 1 := rfl
  have hsame : (strong .party).Reworded (strong .character) := by decide
  obtain ⟨-, -, hholds⟩ := rosterWords_alike.1 (strong .party) _ hone
  have htwo : 1 < d.characters.length := by decide
  exact ⟨⟨hone, hsame, hholds _ hsame, by decide +kernel⟩, htwo, hrows,
    rosterWords_alike.2 d 1 htwo rows hrows, by decide +kernel⟩

/-- **The word may be told where a guard is refused**: a scope that is followed by nothing is called
by its name. -/
theorem not_availableDecisions_same_error :
    ¬∀ (d : GameData) (p : Nat), p < d.characters.length →
      ∀ rows : List (DecisionOption × DecisionOption), (∀ r ∈ rows, r.1.Reworded r.2) →
        (∃ kept : List (DecisionOption × DecisionOption), kept.Sublist rows ∧
          availableDecisions (d.forPlayers [p]) (rows.map Prod.fst) = .ok (kept.map Prod.fst) ∧
          availableDecisions (d.forPlayers [p]) (rows.map Prod.snd) = .ok (kept.map Prod.snd)) ∨
        ∃ e, availableDecisions (d.forPlayers [p]) (rows.map Prod.fst) = .error e ∧
          availableDecisions (d.forPlayers [p]) (rows.map Prod.snd) = .error e := by
  intro h
  let go (guard : String) : DecisionOption := ⟨"Go", "data:inn", some guard, .clamp 1⟩
  let d : GameData := { characters := [{ name := "Ada" }] }
  have hcharacter : IsRosterWord "character".toList := isRosterWord_word (s := .character) rfl
  have hparty : IsRosterWord "party".toList := isRosterWord_word (s := .party) rfl
  have hwords : Exchanged "character".toList "party".toList :=
    .word (⟨by decide, by decide⟩ : EndsApart []) hcharacter hparty (by simp) (.same [])
  have hrow : ∀ r ∈ [(go "character", go "party")], r.1.Reworded r.2 :=
    List.forall_mem_singleton.mpr ⟨rfl, rfl, rfl, .some hwords⟩
  have hleft : availableDecisions (d.forPlayers [0]) [go "character"] =
      .error (.emptyScope .character) := by
    decide +kernel
  have hright : availableDecisions (d.forPlayers [0]) [go "party"] =
      .error (.emptyScope .party) := by
    decide +kernel
  rcases h d 0 (by decide) _ hrow with ⟨kept, -, hkept, -⟩ | ⟨e, he, he'⟩
  · cases hleft.symm.trans hkept
  · cases hleft.symm.trans he
    cases hright.symm.trans he'

end Play

end Adventure
