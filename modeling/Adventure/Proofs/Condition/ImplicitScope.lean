import Adventure.Condition.Evaluation
import Adventure.Proofs.Condition.Clause
import Adventure.Proofs.Condition.Postorder

/-!
What stands outside every scope.

A phrase that no scope encloses asks for some character. It may as well be written with a scope
`character` of its own: the tree in which this is done for every such phrase and for no other
(`Tree.explicit`, `Tree.placements_explicit`) holds of the same game data, and of the same wherever
it is put (`Tree.holdsUnder_explicit`). One scope `character` around the whole tree asks for more,
because it is then one character of whom all must hold; so that tree implies the one without the
scope, but not the other way round (`holds_explicit`).

Both come from what a binding is to a tree. A scope takes no notice of the binding around it, so
that a binding reaches the phrases that are outside every scope and nothing else.
-/

namespace Adventure.Condition

namespace Tree

/-- The tree with a scope `character` of its own around each phrase that no scope encloses. -/
def explicit : Tree → Tree
  | phrase p => within .character (phrase p)
  | join c lhs rhs => join c lhs.explicit rhs.explicit
  | within s inner => within s inner

variable {d : GameData}

/-- A scope takes no notice of the binding around it. -/
theorem holdsUnder_within (s : Scope) (inner : Tree) (b b' : Binding) :
    (within s inner).holdsUnder d b = (within s inner).holdsUnder d b' := by
  cases s <;> rfl

/-! ### A scope for each phrase -/

/-- Under a scope no phrase is outside every scope. -/
theorem isSome_of_mem_placements {t : Tree} {around : Scope} {q : Phrase × Option Scope}
    (hq : q ∈ t.placements (some around)) : q.2.isSome = true := by
  induction t generalizing around with
  | phrase p =>
    obtain rfl := List.mem_singleton.mp hq
    rfl
  | join c lhs rhs ihl ihr => exact (List.mem_append.mp hq).elim ihl ihr
  | within s inner ih => exact ih hq

/-- The explicit tree has the phrases of the tree under the same scopes, and under a scope
`character` those that had none. -/
theorem placements_explicit (t : Tree) :
    t.explicit.placements none =
      (t.placements none).map fun q => (q.1, some (q.2.getD .character)) := by
  induction t with
  | phrase p => rfl
  | join c lhs rhs ihl ihr => rw [explicit, placements, placements, ihl, ihr, List.map_append]
  | within s inner =>
    have hsame : ∀ q ∈ inner.placements (some s), (q.1, some (q.2.getD .character)) = q := by
      rintro ⟨p, _ | scope⟩ hq
      · cases isSome_of_mem_placements hq
      · rfl
    rw [explicit, placements, List.map_congr_left hsame, List.map_id']

/-- **An explicit tree says everywhere what the tree says on its own.** -/
theorem holdsUnder_explicit (t : Tree) (b : Binding) : t.explicit.holdsUnder d b = t.holds d := by
  induction t with
  | phrase p => rfl
  | join c lhs rhs ihl ihr =>
    cases c with
    | and => rw [explicit, holdsUnder, ihl, ihr]; rfl
    | or => rw [explicit, holdsUnder, ihl, ihr]; rfl
  | within s inner => exact holdsUnder_within s inner b .none

/-! ### One scope for all phrases -/

/-- What holds of a character of the roster holds without a binding: for each phrase outside every
scope, that character will do. -/
theorem holds_of_holdsUnder_character {t : Tree} {c : Character} (hc : c ∈ d.characters)
    (h : t.holdsUnder d (.character c) = true) : t.holds d = true := by
  induction t with
  | phrase p => exact List.any_eq_true.mpr ⟨c, hc, h⟩
  | join j lhs rhs ihl ihr =>
    cases j with
    | and =>
      obtain ⟨hl, hr⟩ := Bool.and_eq_true_iff.mp h
      exact Bool.and_eq_true_iff.mpr ⟨ihl hl, ihr hr⟩
    | or => exact Bool.or_eq_true_iff.mpr ((Bool.or_eq_true_iff.mp h).imp ihl ihr)
  | within s inner => exact (holdsUnder_within s inner .none (.character c)).trans h

end Tree

/-- **The implicit scope is the scope `character`**, phrase by phrase. A tree holds of the same game
data as the tree in which each phrase outside every scope is put under a scope `character` of its
own. The tree as a whole under one scope `character` asks for no less: where it holds, so does the
tree alone. -/
theorem holds_explicit (t : Tree) (d : GameData) :
    t.holds d = t.explicit.holds d ∧
      ((Tree.within .character t).holds d = true → t.holds d = true) := by
  refine ⟨(t.holdsUnder_explicit .none).symm, ?_⟩
  intro h
  obtain ⟨c, hc, h⟩ := List.any_eq_true.mp h
  exact Tree.holds_of_holdsUnder_character hc h

/-- The condition `trait "Brave" or session ( trait "Night" and str > 5 ) and mag < 3` under one
scope: Ada is brave. -/
theorem holds_explicit_brave :
    let strong : Phrase := .stat ⟨.strength, .greater, ⟨5, by decide, by decide⟩⟩
    let plain : Phrase := .stat ⟨.magic, .less, ⟨3, by decide, by decide⟩⟩
    let t : Tree := .join .or (.phrase (.ofTrait "Brave"))
      (.join .and (.within .session (.join .and (.phrase (.ofTrait "Night")) (.phrase strong)))
        (.phrase plain))
    let d : GameData :=
      { characters := [{ name := "Bo" }, { name := "Ada", traits := ["Brave"] }] }
    (Tree.within .character t).holds d = true ∧ t.holds d = true ∧
      t.holds d = t.explicit.holds d := by
  intro strong plain t d
  have hscope : (Tree.within .character t).holds d = true := rfl
  exact ⟨hscope, (holds_explicit t d).2 hscope, (holds_explicit t d).1⟩

/-- One character who is brave and one who is clever are not one who is both. On an empty roster not
even a missing trait is found. -/
example :
    let both : Tree := .join .and (.phrase (.ofTrait "Brave")) (.phrase (.ofTrait "Clever"))
    let d : GameData := { characters := [{ traits := ["Brave"] }, { traits := ["Clever"] }] }
    both.holds d = true ∧ (Tree.within .character both).holds d = false ∧
      (Tree.phrase (.traits ⟨true, ["Brave"]⟩)).holds {} = false :=
  ⟨rfl, rfl, rfl⟩

end Adventure.Condition
