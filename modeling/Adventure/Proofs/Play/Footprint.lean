import Adventure.Proofs.Play.Deaths
import Mathlib.Data.List.Forall2

/-!
What playing a storyboard changes in the game data, field by field.

Only narrations change anything. Of the characters, those who are listed feel every effect once, in
the order of the panels, and nobody else does; of a character, only stats and traits change
(`Character.after`). The traits of the encounter and of the session grow at the end, those of the
session also by deaths, which are noted behind each narration. `Footprint` says this of a row of
panels, is kept by one panel (`footprint_playPanel`) and put together from panel to panel
(`Footprint.cons`); `playBoard_footprint` says it of a storyboard.
-/

namespace Adventure

/-- The effect of a panel. Only narrations have one. -/
def Panel.effect? (p : Panel) : Option Effect :=
  match p.body with
  | .narration _ e => some e
  | _ => none

/-! ### Characters after effects -/

/-- The scores after one change. -/
def StatBlock.apply (b : StatBlock) (change : StatChange) : StatBlock :=
  b.set change.stat
    (if change.additive then b.get change.stat + change.value else change.value)

namespace Character

/-- The character after some effects: with all stat changes in order, and with the new traits behind
the old ones. -/
def after (c : Character) (effects : List Effect) : Character :=
  { c with
    stats := (effects.flatMap Effect.statChanges).foldl StatBlock.apply c.stats
    traits := c.traits ++ effects.flatMap Effect.characterTraits }

theorem after_nil (c : Character) : c.after [] = c := by
  rw [after, List.flatMap_nil, List.flatMap_nil, List.foldl_nil, List.append_nil]

theorem after_append (c : Character) (first second : List Effect) :
    c.after (first ++ second) = (c.after first).after second := by
  simp only [after, List.flatMap_append, List.foldl_append, List.append_assoc]

theorem foldl_apply (changes : List StatChange) (c : Character) :
    changes.foldl apply c = { c with stats := changes.foldl StatBlock.apply c.stats } := by
  induction changes generalizing c with
  | nil => rfl
  | cons change changes ih => exact ih (c.apply change)

theorem foldl_addTrait (traits : List String) (c : Character) :
    traits.foldl addTrait c = { c with traits := c.traits ++ traits } := by
  induction traits generalizing c with
  | nil => rw [List.append_nil]; rfl
  | cons t traits ih => rw [List.foldl_cons, ih, addTrait, List.append_assoc]; rfl

end Character

/-- An effect makes of a character what it says. -/
theorem Effect.applyTo_eq (e : Effect) (c : Character) : e.applyTo c = c.after [e] := by
  rw [Effect.applyTo, Character.foldl_apply, Character.foldl_addTrait]
  simp [Character.after]

namespace Play

/-! ### Footprints -/

/-- What a panel adds to the traits of the session: a narration its own traits and behind them only
deaths, and any other panel nothing. -/
def AddsToSession (p : Panel) (added : List String) : Prop :=
  match p.effect? with
  | some e => ∃ deaths, added = e.sessionTraits ++ deaths ∧ ∀ t ∈ deaths, ∃ s : Stat, t = s.deathTrait
  | none => added = []

/-- How the data that some panels leave behind differ from those before. -/
structure Footprint (players : List Nat) (panels : List Panel) (old new : GameData) : Prop where
  characters : ∀ i, new.characters[i]? =
    if i ∈ players then old.characters[i]?.map (·.after (panels.filterMap Panel.effect?))
    else old.characters[i]?
  encounter : new.encounterTraits =
    old.encounterTraits ++ (panels.filterMap Panel.effect?).flatMap Effect.encounterTraits
  session : ∃ added, List.Forall₂ AddsToSession panels added ∧
    new.sessionTraits = old.sessionTraits ++ added.flatten

variable {players : List Nat} {old mid new : GameData}

/-- Nothing changes where nothing is played. -/
theorem Footprint.nil (d : GameData) : Footprint players [] d d where
  characters := by
    intro i
    simp [Character.after_nil]
  encounter := (List.append_nil _).symm
  session := ⟨[], .nil, (List.append_nil _).symm⟩

/-- The footprint of a panel and that of the panels behind it make one. -/
theorem Footprint.cons {p : Panel} {rest : List Panel} (first : Footprint players [p] old mid)
    (others : Footprint players rest mid new) : Footprint players (p :: rest) old new where
  characters := by
    intro i
    have heffects : (p :: rest).filterMap Panel.effect? =
        [p].filterMap Panel.effect? ++ rest.filterMap Panel.effect? :=
      List.filterMap_append (l := [p])
    rw [others.characters, first.characters, heffects]
    split
    · rw [Option.map_map]
      congr 1
      funext c
      exact (c.after_append _ _).symm
    · rfl
  encounter := by
    rw [others.encounter, first.encounter, List.append_assoc, ← List.flatMap_append,
      ← List.filterMap_append]
    rfl
  session := by
    obtain ⟨added, hadded, hfirst⟩ := first.session
    obtain ⟨more, hmore, hothers⟩ := others.session
    cases hadded with
    | cons hp hnil =>
      cases hnil
      refine ⟨_ :: more, .cons hp hmore, ?_⟩
      rw [hothers, hfirst]
      simp

/-! ### One panel -/

/-- Changing each of some places once changes what stands at them. -/
theorem getElem?_foldl_modify_of_mem {α : Type} {f : α → α} {places : List Nat}
    (hplaces : places.Nodup) {i : Nat} (h : i ∈ places) (xs : List α) :
    (places.foldl (fun xs p => xs.modify p f) xs)[i]? = xs[i]?.map f := by
  induction places generalizing xs with
  | nil => cases h
  | cons p places ih =>
    rw [List.nodup_cons] at hplaces
    rw [List.foldl_cons]
    rcases List.mem_cons.mp h with rfl | h
    · rw [getElem?_foldl_modify hplaces.1, List.getElem?_modify_eq]
      rfl
    · have hne : p ≠ i := fun heq => hplaces.1 (heq ▸ h)
      rw [ih hplaces.2 h, List.getElem?_modify_ne _ _ hne]

/-- When nobody is listed twice, an effect is felt once by whoever is listed, and by nobody else. -/
theorem getElem?_characters_applyEffect (hplayers : players.Nodup) (e : Effect) (d : GameData)
    (i : Nat) :
    (applyEffect e players d).characters[i]? =
      if i ∈ players then d.characters[i]?.map e.applyTo else d.characters[i]? := by
  split
  · exact getElem?_foldl_modify_of_mem hplayers ‹_› d.characters
  · exact characters_applyEffect ‹_› d

/-- Every death that is found is the death trait of some stat. -/
theorem exists_stat_of_mem_deathsOf {d : GameData} {t : String} (h : t ∈ deathsOf players d) :
    ∃ s : Stat, t = s.deathTrait := by
  obtain ⟨p, -, hp⟩ := List.mem_filterMap.mp h
  obtain ⟨c, -, hc⟩ := Option.bind_eq_some_iff.mp hp
  obtain ⟨s, -, hs⟩ := Option.map_eq_some_iff.mp hc
  exact ⟨s, hs.symm⟩

/-- Decisions and branches change nothing. -/
theorem playPanel_of_effect?_eq_none {p : Panel} (h : p.effect? = none) (names : String)
    (players : List Nat) (d : GameData) : (playPanel names players d p).1 = d := by
  obtain ⟨properties, body⟩ := p
  cases body with
  | narration text effect => cases h
  | decision prompt options => rfl
  | branch options => rfl

theorem playPanel_of_effect?_eq_some {p : Panel} {e : Effect} (h : p.effect? = some e)
    (names : String) (players : List Nat) (d : GameData) :
    (playPanel names players d p).1 = (recordDeaths players (applyEffect e players d)).1 := by
  obtain ⟨properties, body⟩ := p
  cases body with
  | narration text effect =>
    cases h
    rfl
  | decision prompt options => cases h
  | branch options => cases h

/-- When nobody is listed twice, a narration is felt once by whoever is listed, and by nobody else. -/
theorem getElem?_characters_playPanel (hplayers : players.Nodup) {p : Panel} {e : Effect}
    (h : p.effect? = some e) (names : String) (d : GameData) (i : Nat) :
    (playPanel names players d p).1.characters[i]? =
      if i ∈ players then d.characters[i]?.map e.applyTo else d.characters[i]? := by
  obtain ⟨deaths, heq, -⟩ := recordDeaths_eq players (applyEffect e players d)
  rw [playPanel_of_effect?_eq_some h, heq]
  exact getElem?_characters_applyEffect hplayers e d i

/-- The footprint of one panel. -/
theorem footprint_playPanel (hplayers : players.Nodup) (names : String) (d : GameData) (p : Panel) :
    Footprint players [p] d (playPanel names players d p).1 := by
  cases heffect : p.effect? with
  | none =>
    have hnone : [p].filterMap Panel.effect? = [] := by simp [heffect]
    rw [playPanel_of_effect?_eq_none heffect]
    refine ⟨?_, ?_, [[]], .cons ?_ .nil, ?_⟩
    · intro i
      simp [hnone, Character.after_nil]
    · rw [hnone, List.flatMap_nil, List.append_nil]
    · rw [AddsToSession, heffect]
    · simp
  | some e =>
    have hone : [p].filterMap Panel.effect? = [e] := by simp [heffect]
    have hcharacters := getElem?_characters_playPanel hplayers heffect names d
    obtain ⟨deaths, heq, hnotes⟩ := recordDeaths_eq players (applyEffect e players d)
    rw [playPanel_of_effect?_eq_some heffect, heq] at hcharacters ⊢
    refine ⟨?_, ?_, [e.sessionTraits ++ deaths], .cons ?_ .nil, ?_⟩
    · intro i
      rw [hcharacters, hone, funext e.applyTo_eq]
    · simp [hone, applyEffect]
    · rw [AddsToSession, heffect]
      exact ⟨deaths, rfl, fun t ht => exists_stat_of_mem_deathsOf (hnotes.sound t ht)⟩
    · simp [applyEffect]

/-! ### Storyboards -/

theorem footprint_playPanels (hplayers : players.Nodup) (names : String) (d : GameData)
    (panels : List Panel) :
    Footprint players panels d (playPanels names players d panels).1 := by
  induction panels generalizing d with
  | nil => exact Footprint.nil d
  | cons p rest ih => exact (footprint_playPanel hplayers names d p).cons (ih _)

/-- **What playing a storyboard changes.** When no player is listed twice, it leaves exactly the
footprint of its panels, and of these only the narrations change anything. -/
theorem playBoard_footprint {players : List Nat} (hplayers : players.Nodup) (board : Storyboard)
    (d : GameData) :
    Footprint players board.panels d (playBoard board players d).1 ∧
      ∀ (p : Panel) (names : String) (d' : GameData), p.effect? = none →
        (playPanel names players d' p).1 = d' := by
  refine ⟨footprint_playPanels hplayers _ d board.panels, ?_⟩
  intro p names d' hnone
  exact playPanel_of_effect?_eq_none hnone names players d'

/-- Two of three are hurt, one of them falls, and both are up again; the third, who is not there, is
as before, and so is a player whom the roster does not have. -/
theorem playBoard_footprint_ambush :
    let hero (name : String) (strength : Int) : Character :=
      { name
        stats := ⟨.clamp strength, .clamp 5, .clamp 5, .clamp 5, .clamp 5, .clamp 5, .clamp 5,
          .clamp 5, .clamp 5, .clamp 5⟩ }
    let d : GameData :=
      { characters := [hero "Ada" 3, hero "Bo" 4, hero "Cy" 2]
        encounterTraits := ["Night"]
        sessionTraits := ["Rain"] }
    let wound : Effect :=
      { statChanges := [⟨.strength, .clamp (-2), true⟩]
        characterTraits := ["Hurt"]
        encounterTraits := ["Alarm"]
        sessionTraits := ["Ambushed"] }
    let heal : Effect :=
      { statChanges := [⟨.strength, .clamp 6, false⟩]
        characterTraits := ["Healed"]
        sessionTraits := ["Saved"] }
    let board : Storyboard :=
      ⟨"ambush", ∅, [⟨∅, .narration "" wound⟩, ⟨∅, .decision "" [⟨"Rest", "data:camp", none, 0⟩]⟩,
        ⟨∅, .narration "" heal⟩]⟩
    let after := (playBoard board [2, 7, 0] d).1
    [2, 7, 0].Nodup ∧ Footprint [2, 7, 0] board.panels d after ∧
      after.characters.map (fun c => ((c.stat .strength).val, c.traits)) =
        [(6, ["Hurt", "Healed"]), (4, []), (6, ["Hurt", "Healed"])] ∧
      after.encounterTraits = ["Night", "Alarm"] ∧
      after.sessionTraits = ["Rain", "Ambushed", "Strength Limit Death", "Saved"] := by
  intro hero d wound heal board after
  have hplayers : [2, 7, 0].Nodup := by decide
  refine ⟨hplayers, (playBoard_footprint hplayers board d).1, ?_, ?_, ?_⟩
  · decide +kernel
  · decide +kernel
  · decide +kernel

end Play

end Adventure
