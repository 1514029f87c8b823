import Adventure.Proofs.Condition.Clause
import Adventure.Proofs.Condition.Postorder
import Adventure.Proofs.Condition.ScopeCheck
import Mathlib.Data.List.Forall2

/-!
Positive conditions never close.

Game data grows when characters join the roster and when characters, the encounter or the session
gain traits, while the stats of those who were there stay as they are (`GameData.GrownInto`). A
condition is positive if it asks for no trait to be missing and tests no stat of the party as a
whole (`Tree.IsPositive`). Once a positive condition holds, it holds of everything that the game
data may grow into (`holds_of_grownInto`).

Two evaluations run side by side, the one on the roster as it was and the other on the grown one.
Where the first finds some character, the second finds the same one grown. A test of a stat is
answered from one character, whose stats are the same. All other tests ask for traits, of which
there are more.
-/

namespace Adventure

/-- A character who may have gained traits, among or behind those that were there. -/
structure Character.GrownInto (c c' : Character) : Prop where
  stats : c'.stats = c.stats
  traits : c.traits.Sublist c'.traits

/-- Game data that may have gained characters and traits, among or behind those that were there. The
characters who were there may have grown themselves. -/
structure GameData.GrownInto (d d' : GameData) : Prop where
  roster : ∃ cs, List.Forall₂ Character.GrownInto d.characters cs ∧ cs.Sublist d'.characters
  encounter : d.encounterTraits.Sublist d'.encounterTraits
  session : d.sessionTraits.Sublist d'.sessionTraits

/-! ### What growth keeps -/

theorem contains_of_sublist {xs ys : List String} (h : xs.Sublist ys) {name : String}
    (hname : xs.contains name = true) : ys.contains name = true := by
  rw [List.contains_iff_mem] at hname ⊢
  exact h.subset hname

/-- A test that some element passes is passed by some partner, if each element hands it on to its
partner. -/
theorem any_of_forall₂ {α β : Type} {R : α → β → Prop} {xs : List α} {ys : List β}
    (hpairs : List.Forall₂ R xs ys) {f : α → Bool} {g : β → Bool}
    (h : ∀ x y, R x y → f x = true → g y = true) (hany : xs.any f = true) : ys.any g = true := by
  induction hpairs with
  | nil => cases hany
  | @cons x y xs ys hxy _ ih =>
    rw [List.any_cons, Bool.or_eq_true] at hany ⊢
    exact hany.imp (h x y hxy) ih

namespace GameData.GrownInto

variable {d d' : GameData}

/-- A test that some character passes is passed by one of the grown roster, if no character fails it
by growing. -/
theorem any_characters (h : d.GrownInto d') {f g : Character → Bool}
    (hfg : ∀ c c', c.GrownInto c' → f c = true → g c' = true)
    (hany : d.characters.any f = true) : d'.characters.any g = true := by
  obtain ⟨cs, hpairs, hsub⟩ := h.roster
  obtain ⟨c', hc', hg⟩ := List.any_eq_true.mp (any_of_forall₂ hpairs hfg hany)
  exact List.any_eq_true.mpr ⟨c', hsub.subset hc', hg⟩

theorem partyHas (h : d.GrownInto d') {name : String} (hname : d.partyHas name = true) :
    d'.partyHas name = true :=
  h.any_characters (fun _ _ hcc => contains_of_sublist hcc.traits) hname

end GameData.GrownInto

namespace Condition

/-- Bindings of one kind. If they are to characters, the second is the first one grown. -/
inductive Binding.GrownInto : Binding → Binding → Prop where
  | none : Binding.none.GrownInto .none
  | character {c c' : Character} (h : c.GrownInto c') :
      (Binding.character c).GrownInto (.character c')
  | party : Binding.party.GrownInto .party
  | encounter : Binding.encounter.GrownInto .encounter
  | session : Binding.session.GrownInto .session

/-! ### Positive conditions -/

/-- Whether a phrase under a scope can only be helped by growth: it asks for no trait to be missing,
and for no stat of the party. -/
def Phrase.IsPositive (scope : Option Scope) : Phrase → Prop
  | stat _ => scope ≠ some .party
  | traits p => p.inverse = false

instance (scope : Option Scope) (p : Phrase) : Decidable (p.IsPositive scope) :=
  match p with
  | .stat _ => inferInstanceAs (Decidable (scope ≠ some .party))
  | .traits p => inferInstanceAs (Decidable (p.inverse = false))

/-- Whether no phrase of the tree asks for a trait to be missing, and none that has `party` as its
innermost scope tests a stat. The whole tree stands under `scope`. -/
def Tree.IsPositive (scope : Option Scope) (t : Tree) : Prop :=
  ∀ q ∈ t.placements scope, q.1.IsPositive q.2

instance (scope : Option Scope) (t : Tree) : Decidable (t.IsPositive scope) :=
  inferInstanceAs (Decidable (∀ q ∈ t.placements scope, q.1.IsPositive q.2))

/-! ### One phrase -/

section Growth

variable {d d' : GameData} {c c' : Character} {b b' : Binding}

/-- A test that asks for traits to be there passes where there are more of them. -/
theorem TraitPhrase.holdsWith_mono {p : TraitPhrase} (hp : p.inverse = false)
    {present present' : String → Bool}
    (h : ∀ {name}, present name = true → present' name = true)
    (hold : p.holdsWith present = true) : p.holdsWith present' = true := by
  rw [holdsWith, hp, Bool.bne_false, List.all_eq_true] at hold ⊢
  exact fun name hname => h (hold name hname)

/-- A phrase that holds of a character holds of the grown one, unless it asks for a trait to be
missing. -/
theorem Phrase.holdsOf_mono {p : Phrase} {scope : Option Scope} (hp : p.IsPositive scope)
    (hcc : c.GrownInto c') (hold : p.holdsOf c = true) : p.holdsOf c' = true := by
  cases p with
  | stat p =>
    rw [holdsOf, Character.stat] at hold ⊢
    rwa [hcc.stats]
  | traits p => exact TraitPhrase.holdsWith_mono hp (contains_of_sublist hcc.traits) hold

/-- **A positive phrase that holds keeps holding.** -/
theorem Phrase.holds_mono (h : d.GrownInto d') (hb : b.GrownInto b') {p : Phrase}
    (hp : p.IsPositive b.scope?) (hold : p.holds d b = true) : p.holds d' b' = true := by
  cases hb with
  | none => exact h.any_characters (fun _ _ hcc => holdsOf_mono hp hcc) hold
  | character hcc => exact holdsOf_mono hp hcc hold
  | party =>
    cases p with
    | stat p => exact absurd rfl hp
    | traits p => exact TraitPhrase.holdsWith_mono hp h.partyHas hold
  | encounter =>
    cases p with
    | stat p => cases hold
    | traits p => exact TraitPhrase.holdsWith_mono hp (contains_of_sublist h.encounter) hold
  | session =>
    cases p with
    | stat p => cases hold
    | traits p => exact TraitPhrase.holdsWith_mono hp (contains_of_sublist h.session) hold

/-! ### The whole tree -/

/-- **What runs along with two evaluations.** A positive tree that holds under a binding holds of
the grown game data under the grown binding. -/
theorem Tree.holdsUnder_mono (h : d.GrownInto d') (hb : b.GrownInto b') {t : Tree}
    (hpos : t.IsPositive b.scope?) (hold : t.holdsUnder d b = true) :
    t.holdsUnder d' b' = true := by
  induction t generalizing b b' with
  | phrase p => exact Phrase.holds_mono h hb (hpos _ (List.mem_singleton_self _)) hold
  | join j lhs rhs ihl ihr =>
    obtain ⟨hl, hr⟩ := List.forall_mem_append.mp hpos
    cases j with
    | and =>
      obtain ⟨holdl, holdr⟩ := Bool.and_eq_true_iff.mp hold
      exact Bool.and_eq_true_iff.mpr ⟨ihl hb hl holdl, ihr hb hr holdr⟩
    | or =>
      have hsome := Bool.or_eq_true_iff.mp hold
      exact Bool.or_eq_true_iff.mpr (hsome.imp (ihl hb hl) (ihr hb hr))
  | within s inner ih =>
    cases s with
    | character =>
      -- The character whom the first search finds is the one to grow.
      exact h.any_characters (fun c c' hcc => ih (b := .character c) (.character hcc) hpos) hold
    | party => exact ih (b := .party) .party hpos hold
    | encounter => exact ih (b := .encounter) .encounter hpos hold
    | session => exact ih (b := .session) .session hpos hold

/-- **Positive conditions never close.** A condition that asks for no trait to be missing and tests
no stat of the party holds, once it holds, of everything that the game data may grow into. -/
theorem holds_of_grownInto {t : Tree} (hpos : t.IsPositive none) (h : d.GrownInto d')
    (hold : t.holds d = true) : t.holds d' = true :=
  Tree.holdsUnder_mono h .none hpos hold

/-- Ben has joined Ada, who has found a lamp, and it has begun to rain. The condition
`party ( trait "Lamp" or character str > 5 ) , encounter trait "Ambush" , trait "Brave"` held of Ada
alone, and still holds. -/
theorem holds_of_grownInto_lamp :
    let strong : Phrase := .stat ⟨.strength, .greater, ⟨5, by decide, by decide⟩⟩
    let t : Tree := .join .and
      (.join .and
        (.within .party
          (.join .or (.phrase (.ofTrait "Lamp")) (.within .character (.phrase strong))))
        (.within .encounter (.phrase (.ofTrait "Ambush"))))
      (.phrase (.ofTrait "Brave"))
    let ada : Character :=
      { name := "Ada", stats := { strength := ⟨6, by decide, by decide⟩ }, traits := ["Brave"] }
    let d : GameData := { characters := [ada], encounterTraits := ["Ambush"] }
    let d' : GameData :=
      { characters := [{ name := "Ben" }, { ada with traits := ["Lamp", "Brave"] }]
        encounterTraits := ["Ambush"]
        sessionTraits := ["Rain"] }
    t.IsPositive none ∧ d.GrownInto d' ∧ t.holds d = true ∧ t.holds d' = true := by
  intro strong t ada d d'
  have hpos : t.IsPositive none := by decide
  have hgrown : d.GrownInto d' :=
    { roster := ⟨[{ ada with traits := ["Lamp", "Brave"] }],
        .cons ⟨rfl, .cons _ (.refl _)⟩ .nil, .cons _ (.refl _)⟩
      encounter := .refl _
      session := .cons _ (.refl _) }
  exact ⟨hpos, hgrown, rfl, holds_of_grownInto hpos hgrown rfl⟩

end Growth

/-- Neither limit can be spared: a trait that is gained ends that it is missing, and a character who
joins changes what the party has of a stat. -/
example :
    let poor : Tree := .within .party (.phrase (.stat ⟨.money, .equal, 0⟩))
    let free : Tree := .phrase (.traits ⟨true, ["Cursed"]⟩)
    let rich : Character := { stats := { money := ⟨5, by decide, by decide⟩ } }
    poor.holds {} = true ∧ poor.holds { characters := [rich] } = false ∧
      free.holds { characters := [{}] } = true ∧
      free.holds { characters := [{ traits := ["Cursed"] }] } = false :=
  ⟨rfl, rfl, rfl, rfl⟩

end Condition

end Adventure
