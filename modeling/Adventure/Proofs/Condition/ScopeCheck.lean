import Adventure.Condition.Evaluation
import Adventure.Proofs.Condition.Grouped

/-!
The check of scopes is sound for evaluation.

A test of a stat has no answer where there are only traits, under an encounter or a session.
Evaluation says that it does not hold, and the check that ends the building of a tree refuses it, so
that no tree that is built should ever come to it. `Tree.holds?` is evaluation without that way out:
there a test of a stat among traits is an error. On every tree that is built it gives what
evaluation gives (`holds?_of_ofTokens`).

The check passes a scope down the tree, and evaluation a binding, one for each character under the
scope `character`. They agree because a binding is all of one scope (`Binding.scope?`), whoever the
character is.
-/

namespace Adventure.Condition

/-! ### Evaluation that refuses misplaced tests -/

/-- Whether a phrase holds. A test of a stat where there are only traits is an error. -/
def Phrase.holds? (d : GameData) : Binding → Phrase → Except Error Bool
  | .encounter, stat p => .error (.statUnderTraits p.stat .encounter)
  | .session, stat p => .error (.statUnderTraits p.stat .session)
  | b, p => .ok (p.holds d b)

namespace Tree

/-- Whether a tree holds under what binds its phrases. The second side of a join is looked at only
if the first does not decide it, and characters only up to the first of whom the tree holds. -/
def holdsUnder? (d : GameData) (b : Binding) : Tree → Except Error Bool
  | phrase p => p.holds? d b
  | join .and lhs rhs => do
    if ← lhs.holdsUnder? d b then rhs.holdsUnder? d b else return false
  | join .or lhs rhs => do
    if ← lhs.holdsUnder? d b then return true else rhs.holdsUnder? d b
  | within .character inner => d.characters.anyM fun c => inner.holdsUnder? d (.character c)
  | within .party inner => inner.holdsUnder? d .party
  | within .encounter inner => inner.holdsUnder? d .encounter
  | within .session inner => inner.holdsUnder? d .session

/-- Whether a condition holds of game data, where no test of a stat may come under traits alone. -/
def holds? (t : Tree) (d : GameData) : Except Error Bool := t.holdsUnder? d .none

end Tree

/-- The scope that a binding is of. -/
def Binding.scope? : Binding → Option Scope
  | .none => Option.none
  | .character _ => some Scope.character
  | .party => some Scope.party
  | .encounter => some Scope.encounter
  | .session => some Scope.session

/-! ### What the check lets through -/

/-- A phrase that the check lets through under the scope of a binding has an answer there. -/
theorem Phrase.holds?_eq_ok {p : Phrase} {b : Binding}
    (h : (Tree.phrase p).misplacedStat? b.scope? = none) (d : GameData) :
    p.holds? d b = .ok (p.holds d b) := by
  cases p with
  | traits p => cases b <;> rfl
  | stat p =>
    cases b with
    | encounter => cases h
    | session => cases h
    | _ => rfl

/-- Where every answer on the way is known, so is whether there is some element. -/
theorem anyM_eq_ok {α : Type} {f : α → Except Error Bool} {g : α → Bool} {xs : List α}
    (h : ∀ x ∈ xs, f x = .ok (g x)) : xs.anyM f = .ok (xs.any g) := by
  induction xs with
  | nil => rfl
  | cons x xs ih =>
    obtain ⟨hx, hxs⟩ := List.forall_mem_cons.mp h
    rw [List.anyM, hx, List.any_cons]
    cases g x with
    | true => rfl
    | false => exact ih hxs

/-- **A tree that the check lets through under the scope of a binding** is evaluated without an
error there, to what evaluation gives. -/
theorem Tree.holdsUnder?_eq_ok {t : Tree} {b : Binding} (h : t.misplacedStat? b.scope? = none)
    (d : GameData) : t.holdsUnder? d b = .ok (t.holdsUnder d b) := by
  induction t generalizing b with
  | phrase p => exact Phrase.holds?_eq_ok h d
  | join c lhs rhs ihl ihr =>
    rw [misplacedStat?, Option.or_eq_none_iff] at h
    have hl := ihl h.1
    have hr := ihr h.2
    cases c with
    | and =>
      rw [holdsUnder?, holdsUnder, hl, hr]
      cases lhs.holdsUnder d b <;> rfl
    | or =>
      rw [holdsUnder?, holdsUnder, hl, hr]
      cases lhs.holdsUnder d b <;> rfl
  | within s inner ih =>
    cases s with
    | character =>
      -- Under this scope the binding changes from character to character, its scope does not.
      exact anyM_eq_ok fun c _ => ih (b := .character c) h
    | party => exact ih (b := .party) h
    | encounter => exact ih (b := .encounter) h
    | session => exact ih (b := .session) h

/-- **No tree that is built tests a stat among traits alone.** Evaluation of it never comes to such
a test: where that test is an error, the tree still has an answer for all game data, and the same
one. -/
theorem holds?_of_ofTokens {ts : List Token} {t : Tree} (h : Tree.ofTokens ts = .ok t)
    (d : GameData) : t.holds? d = .ok (t.holds d) := by
  obtain ⟨-, -, hplaced⟩ := Tree.ofTokens_eq_ok_iff.mp h
  exact Tree.holdsUnder?_eq_ok (b := .none) hplaced d

/-- In `session ( character str > 4 ) , encounter ( party str < 9 )` the inner scopes have stats.
The roster of one character passes both tests, and an empty one fails the first. -/
theorem holds?_of_ofTokens_nested :
    let above : Phrase := .stat ⟨.strength, .greater, ⟨4, by decide, by decide⟩⟩
    let below : Phrase := .stat ⟨.strength, .less, ⟨9, by decide, by decide⟩⟩
    let ts : List Token := [.scope .session, .openParen, .scope .character, .phrase above,
      .closeParen, .comma, .scope .encounter, .openParen, .scope .party, .phrase below, .closeParen]
    let t : Tree := .join .and (.within .session (.within .character (.phrase above)))
      (.within .encounter (.within .party (.phrase below)))
    let ada : Character := { name := "Ada", stats := { strength := ⟨6, by decide, by decide⟩ } }
    Tree.ofTokens ts = .ok t ∧ t.holds? { characters := [ada] } = .ok true ∧
      t.holds? {} = .ok false := by
  intro above below ts t ada
  have htree : Tree.ofTokens ts = .ok t := rfl
  exact ⟨htree, holds?_of_ofTokens htree { characters := [ada] }, holds?_of_ofTokens htree {}⟩

/-- A tree that was not checked may come to such a test, unless what stands before it decides. -/
example :
    let misplaced : Tree := .within .session (.phrase (.stat ⟨.magic, .equal, 0⟩))
    misplaced.holds? {} = .error (.statUnderTraits .magic .session) ∧
      (Tree.join .and (.phrase (.ofTrait "A")) misplaced).holds? {} = .ok false :=
  ⟨rfl, rfl⟩

end Adventure.Condition
