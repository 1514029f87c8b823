import Adventure.Play.Session

/-!
Deaths over whole runs: whoever has fallen is noted in the session.

Game data are `Recorded` when the session holds, for every character who has fallen, the death trait
of the first stat that reached its limit. Noting deaths adds what is missing and nothing twice
(`recordDeaths_eq`). A narration changes the listed players only, and their deaths are noted right
behind it, so that one panel keeps the data recorded (`recorded_playPanel`), and with it storyboards
and whole sessions.
-/

namespace Adventure

/-- The trait that notes a character's death: that of the first stat that has reached its limit. -/
def Character.death? (c : Character) : Option String := c.limitsReached.head?.map Stat.deathTrait

/-- Whether the death of every character who is not alive is noted in the session. -/
def GameData.Recorded (d : GameData) : Prop :=
  ∀ c ∈ d.characters, c.isAlive = false →
    ∃ s ∈ c.limitsReached.head?, s.deathTrait ∈ d.sessionTraits

instance (d : GameData) : Decidable d.Recorded :=
  inferInstanceAs (Decidable (∀ c ∈ d.characters, c.isAlive = false → ∃ s ∈ _, _))

/-- A character who is not alive has a first stat that reached its limit, so data are recorded when
every death there is is noted. -/
theorem GameData.recorded_iff {d : GameData} :
    d.Recorded ↔ ∀ c ∈ d.characters, ∀ t ∈ c.death?, t ∈ d.sessionTraits := by
  constructor
  · intro h c hc t ht
    obtain ⟨s, hs, rfl⟩ := Option.map_eq_some_iff.mp ht
    have hdead : c.isAlive = false := by
      rw [← Bool.not_eq_true, Character.isAlive_iff]
      intro hnone
      rw [hnone] at hs
      cases hs
    obtain ⟨s', hs', hnoted⟩ := h c hc hdead
    cases hs.symm.trans hs'
    exact hnoted
  · intro h c hc hdead
    cases hfirst : c.limitsReached.head? with
    | none =>
      rw [Character.isAlive_iff.mpr (List.head?_eq_none_iff.mp hfirst)] at hdead
      cases hdead
    | some s => exact ⟨s, rfl, h c hc _ (Option.map_eq_some_iff.mpr ⟨s, hfirst, rfl⟩)⟩

namespace Play

/-! ### Noting deaths -/

/-- The deaths of some players that are to be noted. -/
def deathsOf (players : List Nat) (d : GameData) : List String :=
  players.filterMap fun p => d.characters[p]?.bind Character.death?

/-- What noting some deaths adds to the traits that are there: every death that is missing, once,
and nothing else. -/
structure Notes (traits deaths new : List String) : Prop where
  nodup : new.Nodup
  fresh : ∀ t ∈ new, t ∉ traits
  complete : ∀ t ∈ deaths, t ∈ traits ++ new
  sound : ∀ t ∈ new, t ∈ deaths

theorem Notes.nil (traits : List String) : Notes traits [] [] where
  nodup := List.nodup_nil
  fresh := by intro t ht; cases ht
  complete := by intro t ht; cases ht
  sound := by intro t ht; cases ht

/-- A death that is noted already adds nothing. -/
theorem Notes.cons_of_mem {traits deaths new : List String} {t : String} (ht : t ∈ traits)
    (h : Notes traits deaths new) : Notes traits (t :: deaths) new where
  nodup := h.nodup
  fresh := h.fresh
  complete := by
    intro t' ht'
    rcases List.mem_cons.mp ht' with rfl | ht'
    · exact List.mem_append_left _ ht
    · exact h.complete t' ht'
  sound := fun t' ht' => List.mem_cons_of_mem _ (h.sound t' ht')

/-- A death that is missing is added in front of what the others add. -/
theorem Notes.cons_of_not_mem {traits deaths new : List String} {t : String} (ht : t ∉ traits)
    (h : Notes (traits ++ [t]) deaths new) : Notes traits (t :: deaths) (t :: new) where
  nodup := by
    refine List.nodup_cons.mpr ⟨?_, h.nodup⟩
    intro hnew
    exact h.fresh t hnew (List.mem_append_right _ (List.mem_singleton_self t))
  fresh := by
    intro t' ht'
    rcases List.mem_cons.mp ht' with rfl | ht'
    · exact ht
    · exact fun hold => h.fresh t' ht' (List.mem_append_left _ hold)
  complete := by
    intro t' ht'
    rcases List.mem_cons.mp ht' with rfl | ht'
    · exact List.mem_append_right _ List.mem_cons_self
    · rw [List.append_cons]
      exact h.complete t' ht'
  sound := by
    intro t' ht'
    rcases List.mem_cons.mp ht' with rfl | ht'
    · exact List.mem_cons_self
    · exact List.mem_cons_of_mem _ (h.sound t' ht')

/-- Notes one death, given with the character's name: the step that `recordDeaths` takes. -/
def noteDeath : GameData × List String → String × String → GameData × List String :=
  fun (d, told) (name, death) =>
    if d.sessionTraits.contains death then (d, told)
    else
      ({ d with sessionTraits := d.sessionTraits ++ [death] },
        told ++ [s!"  [{name} has fallen: {death}]"])

theorem fst_noteDeath (d : GameData) (told : List String) (name death : String) :
    (noteDeath (d, told) (name, death)).1 =
      if death ∈ d.sessionTraits then d
      else { d with sessionTraits := d.sessionTraits ++ [death] } := by
  by_cases h : death ∈ d.sessionTraits <;> simp [noteDeath, h]

theorem foldl_noteDeath (deaths : List (String × String)) (state : GameData × List String) :
    ∃ new, (deaths.foldl noteDeath state).1 =
        { state.1 with sessionTraits := state.1.sessionTraits ++ new } ∧
      Notes state.1.sessionTraits (deaths.map Prod.snd) new := by
  induction deaths generalizing state with
  | nil => exact ⟨[], by rw [List.append_nil]; rfl, Notes.nil _⟩
  | cons death rest ih =>
    obtain ⟨d, told⟩ := state
    obtain ⟨name, t⟩ := death
    have hstep := fst_noteDeath d told name t
    obtain ⟨new, heq, hnotes⟩ := ih (noteDeath (d, told) (name, t))
    rw [hstep] at heq hnotes
    rw [List.foldl_cons, List.map_cons, heq]
    by_cases ht : t ∈ d.sessionTraits
    · rw [if_pos ht] at hnotes ⊢
      exact ⟨new, rfl, hnotes.cons_of_mem ht⟩
    · rw [if_neg ht] at hnotes ⊢
      exact ⟨t :: new, by simp, hnotes.cons_of_not_mem ht⟩

/-- Noting deaths adds the missing ones to the traits of the session, and changes nothing else. -/
theorem recordDeaths_eq (players : List Nat) (d : GameData) :
    ∃ new, (recordDeaths players d).1 = { d with sessionTraits := d.sessionTraits ++ new } ∧
      Notes d.sessionTraits (deathsOf players d) new := by
  -- The deaths are found before any is noted, so the run over them is over a fixed list.
  let found (p : Nat) : Option (String × String) :=
    d.characters[p]?.bind fun c => c.limitsReached.head?.map fun s => (c.name, s.deathTrait)
  have hfound : (players.filterMap found).map Prod.snd = deathsOf players d := by
    rw [List.map_filterMap, deathsOf]
    congr 1
    funext p
    cases h : d.characters[p]? <;> simp [found, h, Character.death?, Function.comp_def]
  rw [← hfound]
  exact foldl_noteDeath (players.filterMap found) (d, [])

/-! ### Effects -/

/-- Changing the characters at some places leaves those at all others. -/
theorem getElem?_foldl_modify {α : Type} {f : α → α} {places : List Nat} {i : Nat}
    (h : i ∉ places) (xs : List α) :
    (places.foldl (fun xs p => xs.modify p f) xs)[i]? = xs[i]? := by
  induction places generalizing xs with
  | nil => rfl
  | cons p places ih =>
    rw [List.mem_cons, not_or] at h
    have hne : ¬p = i := fun hp => h.1 hp.symm
    simp only [List.foldl_cons, ih h.2, List.getElem?_modify, hne, if_false]
    exact Option.map_id'

/-- Whoever is not listed is the same after an effect. -/
theorem characters_applyEffect {e : Effect} {players : List Nat} {i : Nat} (h : i ∉ players)
    (d : GameData) : (applyEffect e players d).characters[i]? = d.characters[i]? :=
  getElem?_foldl_modify h d.characters

/-- After an effect and the noting of the listed players' deaths, data that were recorded are so
again. -/
theorem recorded_narration {d : GameData} (h : d.Recorded) (e : Effect) (players : List Nat) :
    (recordDeaths players (applyEffect e players d)).1.Recorded := by
  obtain ⟨new, heq, hnotes⟩ := recordDeaths_eq players (applyEffect e players d)
  rw [heq, GameData.recorded_iff]
  rw [GameData.recorded_iff] at h
  intro c hc t ht
  obtain ⟨i, hi⟩ := List.mem_iff_getElem?.mp hc
  by_cases hplays : i ∈ players
  · -- The deaths of all who are listed are noted now.
    apply hnotes.complete
    refine List.mem_filterMap.mpr ⟨i, hplays, ?_⟩
    rw [hi]
    exact ht
  · -- All others are as they were, and no trait leaves the session.
    rw [characters_applyEffect hplays] at hi
    have hold : t ∈ d.sessionTraits := h c (List.mem_of_getElem? hi) t ht
    exact List.mem_append_left _ (List.mem_append_left _ hold)

/-! ### Runs -/

/-- A panel keeps the data recorded: decisions and branches change nothing. -/
theorem recorded_playPanel {d : GameData} (h : d.Recorded) (names : String) (players : List Nat)
    (p : Panel) : (playPanel names players d p).1.Recorded := by
  unfold playPanel
  split
  · exact recorded_narration h _ players
  · exact h
  · exact h

theorem recorded_playPanels {d : GameData} (h : d.Recorded) (names : String) (players : List Nat)
    (panels : List Panel) : (playPanels names players d panels).1.Recorded := by
  induction panels generalizing d with
  | nil => exact h
  | cons p rest ih => exact ih (recorded_playPanel h names players p)

theorem recorded_playBoard {d : GameData} (h : d.Recorded) (board : Storyboard)
    (players : List Nat) : (playBoard board players d).1.Recorded :=
  recorded_playPanels h _ players board.panels

theorem recorded_playSession {d : GameData} (h : d.Recorded) (asset : String)
    (boards : Keyed Storyboard) (rounds : Nat) (waiting : List Waiting) :
    (playSession asset boards rounds waiting d).1.Recorded := by
  induction rounds generalizing waiting d with
  | zero => exact h
  | succ rounds ih =>
    cases waiting with
    | nil => exact h
    | cons first rest =>
      rw [playSession]
      split
      · exact ih h rest
      · exact ih (recorded_playBoard h _ first.players) _

/-- **Deaths stay recorded.** When data are recorded, they are so after any storyboard with any
players, listed twice or not on the roster as may be; so they are after any row of storyboards and
groups, and after any session. Noting deaths adds none that the session holds. -/
theorem deaths_stay_recorded :
    (∀ (board : Storyboard) (players : List Nat) (d : GameData), d.Recorded →
      (playBoard board players d).1.Recorded) ∧
    (∀ (turns : List (Storyboard × List Nat)) (d : GameData), d.Recorded →
      (turns.foldl (fun d turn => (playBoard turn.1 turn.2 d).1) d).Recorded) ∧
    (∀ (asset : String) (boards : Keyed Storyboard) (rounds : Nat) (waiting : List Waiting)
      (d : GameData), d.Recorded → (playSession asset boards rounds waiting d).1.Recorded) ∧
    ∀ (players : List Nat) (d : GameData), ∃ new,
      (recordDeaths players d).1 = { d with sessionTraits := d.sessionTraits ++ new } ∧
        new.Nodup ∧ ∀ t ∈ new, t ∉ d.sessionTraits ∧ t ∈ deathsOf players d := by
  refine ⟨?_, ?_, ?_, ?_⟩
  · intro board players d h
    exact recorded_playBoard h board players
  · intro turns d h
    induction turns generalizing d with
    | nil => exact h
    | cons turn rest ih => exact ih _ (recorded_playBoard h turn.1 turn.2)
  · intro asset boards rounds waiting d h
    exact recorded_playSession h asset boards rounds waiting
  · intro players d
    obtain ⟨new, heq, hnotes⟩ := recordDeaths_eq players d
    exact ⟨new, heq, hnotes.nodup, fun t ht => ⟨hnotes.fresh t ht, hnotes.sound t ht⟩⟩

/-- One has fallen before the storyboard begins and stays out of it, another falls on its first panel
and is up again after the second: both deaths are noted at the end. -/
theorem deaths_stay_recorded_duel :
    let hero (money : Int) : Character :=
      { stats := ⟨.clamp 1, .clamp 5, .clamp 5, .clamp 5, .clamp 5, .clamp 5, .clamp 5, .clamp 5,
          .clamp 5, .clamp money⟩ }
    let d : GameData := { characters := [hero 5, hero (-3)], sessionTraits := ["Debt Limit Death"] }
    let change (value : Int) : Panel :=
      ⟨∅, .narration "" { statChanges := [⟨.strength, .clamp value, true⟩] }⟩
    let board : Storyboard := ⟨"duel", ∅, [change (-3), change 9]⟩
    d.Recorded ∧ (playBoard board [0, 7, 0] d).1.Recorded ∧
      (playBoard board [0, 7, 0] d).1.sessionTraits =
        ["Debt Limit Death", "Strength Limit Death"] ∧
      (playBoard board [0, 7, 0] d).1.characters.map Character.isAlive = [true, false] := by
  intro hero d change board
  have hd : d.Recorded := by decide +kernel
  refine ⟨hd, deaths_stay_recorded.1 board [0, 7, 0] d hd, ?_, ?_⟩
  · decide +kernel
  · decide +kernel

end Play

end Adventure
