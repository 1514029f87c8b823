import Adventure.Condition.Evaluation
import Mathlib.Data.List.Forall2
import Mathlib.Data.List.Perm.Basic

/-!
A condition looks at nothing that it does not mention.

A tree mentions the stats that its phrases test and the traits that they name. Two rosters are the
same to it if they can be paired so that every two paired characters are the same in these, whatever
the order of the rosters. Encounters and sessions are the same to it if they have the same ones of
the traits. Then the tree holds of both or of neither (`holds_eq_of_sameData`), so that names,
titles, thresholds, the order and the repetition of traits and all other stats and traits are out of
its sight.

Two evaluations run side by side. Under the scope `character` the one may stand at the first
character of its roster while the other stands at the last of its own, so that what runs along is
not a place on the roster but the relation between their bindings (`Tree.SameBinding`). Where the
whole roster counts, in a search for some character or in the sum of a stat, it counts only up to
its order.
-/

namespace Adventure

/-- A trait is among the traits of the party if some character has it. -/
theorem GameData.mem_partyTraits {d : GameData} {name : String} :
    name ∈ d.partyTraits ↔ d.partyHas name = true := by
  simp only [partyTraits, partyHas, Character.hasTrait, List.mem_mergeSort, List.mem_eraseDups,
    List.mem_flatMap, List.any_eq_true, List.contains_iff_mem]

namespace Condition

/-! ### What a tree mentions -/

/-- The stat that a phrase tests, if it tests one. -/
def Phrase.stat? : Phrase → Option Stat
  | stat p => some p.stat
  | traits _ => none

/-- The traits that a phrase names. -/
def Phrase.names : Phrase → List String
  | stat _ => []
  | traits p => p.traits

namespace Tree

/-- The stats that are tested anywhere in the tree. -/
def stats (t : Tree) : List Stat := t.phrases.filterMap Phrase.stat?

/-- The traits that are named anywhere in the tree. -/
def names (t : Tree) : List String := t.phrases.flatMap Phrase.names

/-- Two lists with the same ones of the traits that the tree names. -/
def SameTraits (t : Tree) (xs ys : List String) : Prop := ∀ name ∈ t.names, name ∈ xs ↔ name ∈ ys

instance (t : Tree) (xs ys : List String) : Decidable (t.SameTraits xs ys) :=
  inferInstanceAs (Decidable (∀ name ∈ t.names, name ∈ xs ↔ name ∈ ys))

/-- Two characters with the same scores and traits, of those that the tree mentions. -/
structure SameCharacter (t : Tree) (c c' : Character) : Prop where
  stats : ∀ s ∈ t.stats, c.stat s = c'.stat s
  traits : t.SameTraits c.traits c'.traits

/-- Game data in which all that the tree mentions is the same. After the first roster has been put
in some other order, the two rosters are the same character by character. -/
structure SameData (t : Tree) (d d' : GameData) : Prop where
  roster : ∃ cs, d.characters.Perm cs ∧ List.Forall₂ t.SameCharacter cs d'.characters
  encounter : t.SameTraits d.encounterTraits d'.encounterTraits
  session : t.SameTraits d.sessionTraits d'.sessionTraits

/-- Bindings of one kind. If they are to characters, these are the same to the tree. -/
inductive SameBinding (t : Tree) : Binding → Binding → Prop where
  | none : t.SameBinding .none .none
  | character {c c' : Character} (h : t.SameCharacter c c') :
      t.SameBinding (.character c) (.character c')
  | party : t.SameBinding .party .party
  | encounter : t.SameBinding .encounter .encounter
  | session : t.SameBinding .session .session

variable {t : Tree}

theorem mem_stats {p : StatPhrase} (hp : .stat p ∈ t.phrases) : p.stat ∈ t.stats :=
  List.mem_filterMap.mpr ⟨.stat p, hp, rfl⟩

theorem mem_names {p : TraitPhrase} (hp : .traits p ∈ t.phrases) {name : String}
    (hname : name ∈ p.traits) : name ∈ t.names :=
  List.mem_flatMap.mpr ⟨.traits p, hp, hname⟩

end Tree

/-! ### Rosters that are paired -/

section Paired

variable {α β γ : Type} {R : α → β → Prop} {xs mid : List α} {ys : List β}

/-- What is computed of each element is the same up to order, if it is the same for every pair. -/
theorem map_perm_map {f : α → γ} {g : β → γ} (hperm : xs.Perm mid)
    (hpairs : List.Forall₂ R mid ys) (h : ∀ x y, R x y → f x = g y) :
    (xs.map f).Perm (ys.map g) := by
  have hmid : List.Forall₂ (· = ·) (mid.map f) (ys.map g) :=
    List.forall₂_map_left_iff.mpr (List.forall₂_map_right_iff.mpr (hpairs.imp h))
  rw [List.forall₂_eq_eq_eq] at hmid
  exact hmid ▸ hperm.map f

/-- Some element passes a test on the one side if some element does on the other. -/
theorem any_eq_any {f : α → Bool} {g : β → Bool} (hperm : xs.Perm mid)
    (hpairs : List.Forall₂ R mid ys) (h : ∀ x y, R x y → f x = g y) : xs.any f = ys.any g := by
  have hanswers : true ∈ xs.map f ↔ true ∈ ys.map g := (map_perm_map hperm hpairs h).mem_iff
  rw [Bool.eq_iff_iff, List.any_eq_true, List.any_eq_true]
  simpa only [List.mem_map] using hanswers

end Paired

/-! ### One phrase in two evaluations -/

/-- A test of traits asks for nothing but the traits that it names. -/
theorem TraitPhrase.holdsWith_congr {p : TraitPhrase} {present present' : String → Bool}
    (h : ∀ name ∈ p.traits, present name = present' name) :
    p.holdsWith present = p.holdsWith present' := by
  have hall : p.traits.all present = p.traits.all present' := by
    rw [Bool.eq_iff_iff, List.all_eq_true, List.all_eq_true]
    exact forall₂_congr fun name hname => by rw [h name hname]
  rw [holdsWith, holdsWith, hall]

section Mentioned

variable {t : Tree} {d d' : GameData} {c c' : Character} {b b' : Binding} {p : Phrase}

theorem Tree.SameTraits.contains {xs ys : List String} (h : t.SameTraits xs ys) {name : String}
    (hname : name ∈ t.names) : xs.contains name = ys.contains name := by
  rw [Bool.eq_iff_iff, List.contains_iff_mem, List.contains_iff_mem]
  exact h name hname

/-- A test of traits in the tree has one answer for lists that are the same to the tree. -/
theorem Tree.SameTraits.holdsWith {xs ys : List String} (h : t.SameTraits xs ys) {p : TraitPhrase}
    (hp : .traits p ∈ t.phrases) : p.holdsWith xs.contains = p.holdsWith ys.contains :=
  TraitPhrase.holdsWith_congr fun _ hname => h.contains (mem_names hp hname)

/-- A phrase of the tree holds of both characters or of neither. -/
theorem Phrase.holdsOf_congr (h : t.SameCharacter c c') (hp : p ∈ t.phrases) :
    p.holdsOf c = p.holdsOf c' := by
  cases p with
  | stat p => rw [holdsOf, holdsOf, h.stats p.stat (Tree.mem_stats hp)]
  | traits p => exact h.traits.holdsWith hp

namespace Tree.SameData

/-- A search through the roster ends alike, if it asks for what is the same to the tree. -/
theorem any_characters (h : t.SameData d d') {f g : Character → Bool}
    (hfg : ∀ c c', t.SameCharacter c c' → f c = g c') :
    d.characters.any f = d'.characters.any g := by
  obtain ⟨cs, hperm, hpairs⟩ := h.roster
  exact any_eq_any hperm hpairs hfg

/-- The party as a whole has the same score of a stat. -/
theorem sum_stat (h : t.SameData d d') {s : Stat} (hs : s ∈ t.stats) :
    (d.characters.map fun c => (c.stat s).val).foldr (· + ·) 0 =
      (d'.characters.map fun c => (c.stat s).val).foldr (· + ·) 0 := by
  obtain ⟨cs, hperm, hpairs⟩ := h.roster
  refine (map_perm_map hperm hpairs fun c c' hcc => ?_).foldr_eq 0
  rw [hcc.stats s hs]

/-- The party as a whole has the same ones of the traits. -/
theorem partyHas (h : t.SameData d d') {name : String} (hname : name ∈ t.names) :
    d.partyHas name = d'.partyHas name :=
  h.any_characters fun _ _ hcc => hcc.traits.contains hname

end Tree.SameData

/-- **A phrase of the tree holds in both evaluations or in neither**, if the two bindings
are the same. -/
theorem Phrase.holds_congr (h : t.SameData d d') (hb : t.SameBinding b b') (hp : p ∈ t.phrases) :
    p.holds d b = p.holds d' b' := by
  cases hb with
  | none => exact h.any_characters fun c c' hcc => holdsOf_congr hcc hp
  | character hcc => exact holdsOf_congr hcc hp
  | party =>
    cases p with
    | stat p => rw [holds, holds, h.sum_stat (Tree.mem_stats hp)]
    | traits p =>
      exact TraitPhrase.holdsWith_congr fun name hname => h.partyHas (Tree.mem_names hp hname)
  | encounter =>
    cases p with
    | stat p => rfl
    | traits p => exact h.encounter.holdsWith hp
  | session =>
    cases p with
    | stat p => rfl
    | traits p => exact h.session.holdsWith hp

/-! ### The whole tree -/

/-- **What runs along with two evaluations.** A part of the tree holds in both or in neither, as
long as the bindings under which they come to it are the same. -/
theorem Tree.holdsUnder_congr (h : t.SameData d d') (hb : t.SameBinding b b') {u : Tree}
    (hu : u.phrases ⊆ t.phrases) : u.holdsUnder d b = u.holdsUnder d' b' := by
  induction u generalizing b b' with
  | phrase p => exact Phrase.holds_congr h hb (hu (List.mem_singleton_self p))
  | join c lhs rhs ihl ihr =>
    rw [phrases, List.append_subset] at hu
    have hl := ihl hb hu.1
    have hr := ihr hb hu.2
    cases c with
    | and => rw [holdsUnder, holdsUnder, hl, hr]
    | or => rw [holdsUnder, holdsUnder, hl, hr]
  | within s inner ih =>
    cases s with
    | character =>
      -- The characters at hand may stand at different places of their rosters from here on.
      exact h.any_characters fun c c' hcc => ih (.character hcc) hu
    | party => exact ih .party hu
    | encounter => exact ih .encounter hu
    | session => exact ih .session hu

/-- **A condition looks at nothing that it does not mention.** It holds of both or of neither of two
sets of game data in which all that it mentions is the same. -/
theorem holds_eq_of_sameData (h : t.SameData d d') : t.holds d = t.holds d' :=
  Tree.holdsUnder_congr h .none (List.Subset.refl t.phrases)

/-- The roster is turned around, and its characters have other names, scores and traits. The
condition `party ( str > 9 and trait "Lamp" ) , character ( has not trait "Cursed" and mag < 3 ) ,
session ( trait "Rain" )` holds all the same. -/
theorem holds_eq_of_sameData_turned :
    let strong : Phrase := .stat ⟨.strength, .greater, ⟨9, by decide, by decide⟩⟩
    let plain : Phrase := .stat ⟨.magic, .less, ⟨3, by decide, by decide⟩⟩
    let lit : Phrase := .traits ⟨false, ["Lamp"]⟩
    let free : Phrase := .traits ⟨true, ["Cursed"]⟩
    let rainy : Phrase := .traits ⟨false, ["Rain"]⟩
    let t : Tree := .join .and
      (.join .and (.within .party (.join .and (.phrase strong) (.phrase lit)))
        (.within .character (.join .and (.phrase free) (.phrase plain))))
      (.within .session (.phrase rainy))
    let six : Score := ⟨6, by decide, by decide⟩
    let four : Score := ⟨4, by decide, by decide⟩
    let d : GameData :=
      { characters := [
          { name := "Ada", stats := { strength := six }, traits := ["Lamp", "Tall"] },
          { name := "Ben", stats := { strength := four, magic := six }, traits := ["Cursed"] }]
        sessionTraits := ["Night", "Rain"] }
    let d' : GameData :=
      { characters := [
          { name := "Cy", stats := { strength := four, magic := six },
            traits := ["Cursed", "Cursed"] },
          { name := "Dot", title := "Dame", stats := { strength := six, money := four },
            traits := ["Old", "Lamp"], thresholds := { debt := four } }]
        encounterTraits := ["Storm"]
        sessionTraits := ["Rain"] }
    t.SameData d d' ∧ t.holds d = t.holds d' ∧ t.holds d' = true := by
  intro strong plain lit free rainy t six four d d'
  have hsame : t.SameData d d' :=
    { roster := ⟨d.characters.reverse, (List.reverse_perm _).symm,
        .cons ⟨by decide, by decide⟩ (.cons ⟨by decide, by decide⟩ .nil)⟩
      encounter := by decide
      session := by decide }
  exact ⟨hsame, holds_eq_of_sameData hsame, rfl⟩

end Mentioned

end Condition

end Adventure
