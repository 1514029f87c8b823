import Adventure.Proofs.Condition.Conservation
import Adventure.Proofs.Condition.ScopeCheck
import Adventure.Proofs.Condition.SoleCharacter

/-!
Complementary conditions.

The dual of a condition (`Tree.dual`) joins by `and` what the condition joins by `or` and the other
way round, and turns each of its tests into the opposite one. `has not` is the opposite of `has`
under every scope, because both look at all the names together, and so is `!=` of `=`. But the scope
`character`, and no scope at all, ask whether there is some character, and that one character passes
a test does not keep another one from failing it. Hence the dual is the negation only where there is
no choice (`holds_dual`): on a roster of one character, and for conditions that never ask for some
character.

A test of a stat among traits alone is never passed, and so is its opposite. No tree that is built
holds one.
-/

namespace Adventure.Condition

/-! ### Opposites -/

/-- The other connective. -/
def Connective.dual : Connective → Connective
  | and => .or
  | or => .and

/-- The opposite of `=` or `!=`. The other two comparisons have none, and stay. -/
def Comparison.dual : Comparison → Comparison
  | equal => .unequal
  | unequal => .equal
  | greater => .greater
  | less => .less

/-- The opposite test, where a stat is tested by `=` or `!=`. -/
def Phrase.dual : Phrase → Phrase
  | stat p => .stat { p with comparison := p.comparison.dual }
  | traits p => .traits { p with inverse := !p.inverse }

/-- Whether a phrase that tests a stat does so by `=` or `!=`. -/
def Phrase.HasDual : Phrase → Prop
  | stat p => p.comparison = .equal ∨ p.comparison = .unequal
  | traits _ => True

instance (p : Phrase) : Decidable p.HasDual :=
  match p with
  | .stat p => inferInstanceAs (Decidable (p.comparison = .equal ∨ p.comparison = .unequal))
  | .traits _ => .isTrue trivial

namespace Tree

/-- The tree with the other connectives and the opposite tests, under the same scopes. -/
def dual : Tree → Tree
  | phrase p => phrase p.dual
  | join c lhs rhs => join c.dual lhs.dual rhs.dual
  | within s inner => within s inner.dual

/-- Whether some scope encloses each phrase. -/
def IsScoped (t : Tree) : Prop := ∀ q ∈ t.placements none, q.2 ≠ none

instance (t : Tree) : Decidable t.IsScoped :=
  inferInstanceAs (Decidable (∀ q ∈ t.placements none, q.2 ≠ none))

end Tree

/-! ### One phrase -/

theorem Comparison.holds_opposite {c : Comparison} (hc : c = .equal ∨ c = .unequal) (m n : Int) :
    c.dual.holds m n = !c.holds m n := by
  rcases hc with rfl | rfl
  · exact decide_not
  · rw [dual, holds, holds, decide_not, Bool.not_not]

theorem TraitPhrase.holdsWith_dual (p : TraitPhrase) (present : String → Bool) :
    ({ p with inverse := !p.inverse } : TraitPhrase).holdsWith present = !p.holdsWith present := by
  rw [holdsWith, holdsWith, Bool.bne_not]

section Dual

variable {d : GameData}

/-- Of one character, a phrase or its dual holds. -/
theorem Phrase.holdsOf_dual {p : Phrase} (hp : p.HasDual) (c : Character) :
    p.dual.holdsOf c = !p.holdsOf c := by
  cases p with
  | stat p => exact Comparison.holds_opposite hp _ _
  | traits p => exact p.holdsWith_dual _

/-- **A phrase or its dual holds**, where the check of scopes lets the phrase through and nobody is
chosen: under a binding, or on a roster of one character. -/
theorem Phrase.holds_opposite {p : Phrase} {b : Binding} (hp : p.HasDual)
    (hplaced : (Tree.phrase p).misplacedStat? b.scope? = none)
    (hone : b.scope? ≠ none ∨ d.characters.length = 1) : p.dual.holds d b = !p.holds d b := by
  cases b with
  | none =>
    obtain ⟨c, hc⟩ := List.length_eq_one_iff.mp (hone.resolve_left fun h => h rfl)
    rw [p.dual.holds_of_sole hc (.inl rfl), p.holds_of_sole hc (.inl rfl), holdsOf_dual hp]
  | character c => exact holdsOf_dual hp c
  | party =>
    cases p with
    | stat p => exact Comparison.holds_opposite hp _ _
    | traits p => exact p.holdsWith_dual _
  | encounter =>
    cases p with
    | stat p => cases hplaced
    | traits p => exact p.holdsWith_dual _
  | session =>
    cases p with
    | stat p => cases hplaced
    | traits p => exact p.holdsWith_dual _

/-! ### The whole tree -/

namespace Tree

/-- What leaves no choice among characters to a tree under a scope: that there is one character, or
that no phrase is outside every scope and none of the scopes is `character`. -/
def LeavesNoChoice (d : GameData) (around : Option Scope) (t : Tree) : Prop :=
  d.characters.length = 1 ∨ t.withins .character = 0 ∧ ∀ q ∈ t.placements around, q.2 ≠ none

/-- **A tree or its dual holds** under a binding, where the check of scopes lets the tree through
and no character is chosen. -/
theorem holdsUnder_dual {t : Tree} {b : Binding} (hdual : ∀ p ∈ t.phrases, p.HasDual)
    (hplaced : t.misplacedStat? b.scope? = none) (hchoice : t.LeavesNoChoice d b.scope?) :
    t.dual.holdsUnder d b = !t.holdsUnder d b := by
  induction t generalizing b with
  | phrase p =>
    have hone := hchoice.symm.imp_left fun h => h.2 _ (List.mem_singleton_self _)
    exact Phrase.holds_opposite (hdual p (List.mem_singleton_self p)) hplaced hone
  | join c lhs rhs ihl ihr =>
    obtain ⟨hduall, hdualr⟩ := List.forall_mem_append.mp hdual
    rw [misplacedStat?, Option.or_eq_none_iff] at hplaced
    have hchoices : lhs.LeavesNoChoice d b.scope? ∧ rhs.LeavesNoChoice d b.scope? := by
      rcases hchoice with hone | ⟨hscopes, hscoped⟩
      · exact ⟨.inl hone, .inl hone⟩
      · obtain ⟨hl, hr⟩ := Nat.add_eq_zero_iff.mp hscopes
        obtain ⟨hscopedl, hscopedr⟩ := List.forall_mem_append.mp hscoped
        exact ⟨.inr ⟨hl, hscopedl⟩, .inr ⟨hr, hscopedr⟩⟩
    have hl := ihl hduall hplaced.1 hchoices.1
    have hr := ihr hdualr hplaced.2 hchoices.2
    cases c with
    | and => rw [dual, Connective.dual, holdsUnder, holdsUnder, hl, hr, Bool.not_and]
    | or => rw [dual, Connective.dual, holdsUnder, holdsUnder, hl, hr, Bool.not_or]
  | within s inner ih =>
    cases s with
    | character =>
      have hone : d.characters.length = 1 := hchoice.resolve_right fun h => by simp [withins] at h
      obtain ⟨c, hc⟩ := List.length_eq_one_iff.mp hone
      rw [dual, holdsUnder_within_of_sole hc rfl, holdsUnder_within_of_sole hc rfl]
      exact ih (b := .character c) hdual hplaced (.inl hone)
    | party => exact ih (b := .party) hdual hplaced hchoice
    | encounter => exact ih (b := .encounter) hdual hplaced hchoice
    | session => exact ih (b := .session) hdual hplaced hchoice

end Tree

/-- **Complementary conditions exclude each other and leave nothing out.** Where a condition that is
built tests stats by `=` and `!=` alone, its dual holds exactly where the condition does not: on
every roster of one character, and on every roster at all if the condition has no scope `character`
and no phrase outside every scope. -/
theorem holds_dual {ts : List Token} {t : Tree} (h : Tree.ofTokens ts = .ok t)
    (hdual : ∀ p ∈ t.phrases, p.HasDual) :
    (∀ d : GameData, d.characters.length = 1 → t.dual.holds d = !t.holds d) ∧
      (t.withins .character = 0 → t.IsScoped → ∀ d : GameData, t.dual.holds d = !t.holds d) := by
  obtain ⟨-, -, hplaced⟩ := Tree.ofTokens_eq_ok_iff.mp h
  constructor
  · intro d hone
    exact Tree.holdsUnder_dual (b := .none) hdual hplaced (.inl hone)
  · intro hscopes hscoped d
    exact Tree.holdsUnder_dual (b := .none) hdual hplaced (.inr ⟨hscopes, hscoped⟩)

/-- The dual of `party ( money = 0 or has not trait "Lamp" "Rope" ) , session trait "Rain"` holds of
two who have money, a lamp and a rope between them, although it rains, and of one of them alone when
it does not. -/
theorem holds_dual_lamp :
    let broke : Phrase := .stat ⟨.money, .equal, 0⟩
    let bare : Phrase := .traits ⟨true, ["Lamp", "Rope"]⟩
    let ts : List Token := [.scope .party, .openParen, .phrase broke, .connective .or, .phrase bare,
      .closeParen, .comma, .scope .session, .phrase (.ofTrait "Rain")]
    let t : Tree := .join .and (.within .party (.join .or (.phrase broke) (.phrase bare)))
      (.within .session (.phrase (.ofTrait "Rain")))
    let ada : Character :=
      { stats := { money := ⟨3, by decide, by decide⟩ }, traits := ["Lamp"] }
    let two : GameData := { characters := [ada, { traits := ["Rope"] }], sessionTraits := ["Rain"] }
    let one : GameData := { characters := [ada] }
    Tree.ofTokens ts = .ok t ∧ (∀ p ∈ t.phrases, p.HasDual) ∧
      (one.characters.length = 1 ∧ t.dual.holds one = (!t.holds one) ∧ t.holds one = false) ∧
      t.withins .character = 0 ∧ t.IsScoped ∧ t.dual.holds two = (!t.holds two) ∧
      t.holds two = false := by
  intro broke bare ts t ada two one
  have htree : Tree.ofTokens ts = .ok t := rfl
  have hdual : ∀ p ∈ t.phrases, p.HasDual := by decide
  have hscoped : t.IsScoped := by decide
  exact ⟨htree, hdual, ⟨rfl, (holds_dual htree hdual).1 one rfl, rfl⟩, rfl, hscoped,
    (holds_dual htree hdual).2 rfl hscoped two, rfl⟩

/-- Where there is a choice, a condition and its dual may both hold, and where there is nobody,
neither does. -/
example :
    let brave : Tree := .phrase (.ofTrait "Brave")
    let d : GameData := { characters := [{ traits := ["Brave"] }, {}] }
    brave.holds d = true ∧ brave.dual.holds d = true ∧ brave.holds {} = false ∧
      brave.dual.holds {} = false :=
  ⟨rfl, rfl, rfl, rfl⟩

end Dual

end Adventure.Condition
