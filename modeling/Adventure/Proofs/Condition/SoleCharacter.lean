import Adventure.Proofs.Condition.ImplicitScope

/-!
Conditions on a roster of one.

With one character on the roster it makes no difference whether a phrase asks for some character,
for the character under a scope `character`, or for the party: the party has the stats and the
traits of that character (`Phrase.holds_of_sole`). So the two scopes that look at the roster say the
same, at whatever depth they stand, and the same as no scope at all (`Tree.holds_within_of_sole`,
`Tree.Reworded.holds_eq`).
-/

namespace Adventure.Condition

/-- The scope, with `character` for `party`. -/
def Scope.plain : Scope → Scope
  | .party => .character
  | s => s

/-- The tree, with `character` for each `party`. -/
def Tree.plain : Tree → Tree
  | phrase p => phrase p
  | join c lhs rhs => join c lhs.plain rhs.plain
  | within s inner => within s.plain inner.plain

/-- Trees of which one is the other with `party` for some scopes `character`, and `character` for
some scopes `party`. -/
def Tree.Reworded (t t' : Tree) : Prop := t.plain = t'.plain

instance (t t' : Tree) : Decidable (t.Reworded t') :=
  inferInstanceAs (Decidable (t.plain = t'.plain))

section Sole

variable {d : GameData} {c : Character}

/-- What holds of some character holds of the only one. -/
theorem any_of_sole (h : d.characters = [c]) (f : Character → Bool) :
    d.characters.any f = f c := by
  rw [h, List.any_cons, List.any_nil, Bool.or_false]

/-- **A phrase asks the only character**, whether it asks for some character or for the party. -/
theorem Phrase.holds_of_sole (h : d.characters = [c]) {b : Binding}
    (hb : b = .none ∨ b = .party) (p : Phrase) : p.holds d b = p.holdsOf c := by
  rcases hb with rfl | rfl
  · exact any_of_sole h p.holdsOf
  · cases p with
    | stat p =>
      rw [holds, h, List.map_singleton, List.foldr_cons, List.foldr_nil, Int.add_zero]
      rfl
    | traits p =>
      have htraits : d.partyHas = c.hasTrait := funext fun name => any_of_sole h (·.hasTrait name)
      rw [holds, htraits]
      rfl

namespace Tree

/-- A tree asks the only character, whether no scope is around it or `party` is. -/
theorem holdsUnder_of_sole (h : d.characters = [c]) {b : Binding}
    (hb : b = .none ∨ b = .party) (t : Tree) :
    t.holdsUnder d b = t.holdsUnder d (.character c) := by
  induction t with
  | phrase p => exact p.holds_of_sole h hb
  | join j lhs rhs ihl ihr =>
    cases j with
    | and => rw [holdsUnder, holdsUnder, ihl, ihr]
    | or => rw [holdsUnder, holdsUnder, ihl, ihr]
  | within s inner => exact holdsUnder_within s inner b _

/-- Either of the scopes that look at the roster asks the only character. -/
theorem holdsUnder_within_of_sole (h : d.characters = [c]) {s : Scope} (hs : s.hasStats = true)
    (b : Binding) (inner : Tree) :
    (within s inner).holdsUnder d b = inner.holdsUnder d (.character c) := by
  cases s with
  | character => exact any_of_sole h _
  | party => exact holdsUnder_of_sole h (.inr rfl) inner
  | encounter => cases hs
  | session => cases hs

/-- **With `character` for each `party`** a tree holds under the same bindings. -/
theorem holdsUnder_plain (h : d.characters = [c]) (t : Tree) (b : Binding) :
    t.plain.holdsUnder d b = t.holdsUnder d b := by
  induction t generalizing b with
  | phrase p => rfl
  | join j lhs rhs ihl ihr =>
    cases j with
    | and => rw [plain, holdsUnder, holdsUnder, ihl, ihr]
    | or => rw [plain, holdsUnder, holdsUnder, ihl, ihr]
  | within s inner ih =>
    cases s with
    | character =>
      rw [plain, holdsUnder_within_of_sole h rfl, holdsUnder_within_of_sole h rfl, ih]
    | party => rw [plain, holdsUnder_within_of_sole h rfl, holdsUnder_within_of_sole h rfl, ih]
    | encounter => exact ih .encounter
    | session => exact ih .session

/-- **Under either of the scopes that look at the roster** a tree says what it says alone. -/
theorem holds_within_of_sole (hone : d.characters.length = 1) {s : Scope} (hs : s.hasStats = true)
    (t : Tree) : (within s t).holds d = t.holds d := by
  obtain ⟨c, h⟩ := List.length_eq_one_iff.mp hone
  exact (holdsUnder_within_of_sole h hs .none t).trans (t.holdsUnder_of_sole h (.inl rfl)).symm

/-- **Trees that differ in the two words alone** hold of the same rosters of one. -/
theorem Reworded.holds_eq (hone : d.characters.length = 1) {t t' : Tree} (hsame : t.Reworded t') :
    t.holds d = t'.holds d := by
  obtain ⟨c, h⟩ := List.length_eq_one_iff.mp hone
  calc t.holds d = t.plain.holds d := (t.holdsUnder_plain h .none).symm
    _ = t'.plain.holds d := by rw [hsame]
    _ = t'.holds d := t'.holdsUnder_plain h .none

end Tree

end Sole

end Adventure.Condition
