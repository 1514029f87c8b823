import Adventure.Proofs.Play.Parting
import Adventure.TavernNight
import Mathlib.Logic.Function.Iterate

/-!
Sessions in rounds: who waits in one, and with whom.

In a round the first who wait play, and those whom they send on wait last (`playRound`); a session is
so many rounds (`fst_playSession_add`). Every group that waits holds some of the players who began the
session, each of them once (`wellParted_playRound`).
-/

namespace Adventure.Play

/-- Whether the players of a group are some of those on a roster, each once. -/
structure WellParted (roster players : List Nat) : Prop where
  nonempty : players ≠ []
  nodup : players.Nodup
  subset : players ⊆ roster

/-- Whoever a storyboard sends on are some of those who played it. -/
theorem wellParted_of_mem_next {players : List Nat} (hplayers : players.Nodup)
    (hsome : players ≠ []) {board : Storyboard} {d : GameData} {g : Group}
    (h : g ∈ (playBoard board players d).2.next) : WellParted players g.players := by
  obtain ⟨parts, hnext, hlength, hparts⟩ := parts_playBoard hplayers hsome board d
  rw [hnext] at h
  obtain ⟨groups, hgroups, hg⟩ := List.mem_flatten.mp h
  obtain ⟨n, hn⟩ := List.mem_iff_getElem?.mp hgroups
  have hlt : n < board.panels.length := hlength ▸ (List.getElem?_eq_some_iff.mp hn).1
  obtain ⟨groups', hgroups', hpart, -⟩ := hparts n _ (List.getElem?_eq_getElem hlt)
  cases hn.symm.trans hgroups'
  exact ⟨hpart.nonempty g hg, hpart.nodup g hg, hpart.subset g hg⟩

/-- One round of a session: the first who wait play, and those who are sent on wait last. -/
def playRound (asset : String) (boards : Keyed Storyboard) :
    List Waiting × GameData → List Waiting × GameData
  | ([], d) => ([], d)
  | (first :: rest, d) =>
    match boards.get? first.board with
    | none => (rest, d)
    | some board =>
      let (d, outcome) := playBoard board first.players d
      (rest ++ (sendOn asset outcome.next).1, d)

theorem fst_playSession_nil (asset : String) (boards : Keyed Storyboard) (rounds : Nat)
    (d : GameData) : (playSession asset boards rounds [] d).1 = d := by
  cases rounds <;> rfl

/-- A session is played in rounds: after some of them it goes on with those who wait then. -/
theorem fst_playSession_add (asset : String) (boards : Keyed Storyboard) (rounds more : Nat)
    (waiting : List Waiting) (d : GameData) :
    (playSession asset boards (rounds + more) waiting d).1 =
      (playSession asset boards more ((playRound asset boards)^[rounds] (waiting, d)).1
        ((playRound asset boards)^[rounds] (waiting, d)).2).1 := by
  induction rounds generalizing waiting d with
  | zero => rw [Nat.zero_add]; rfl
  | succ rounds ih =>
    rw [Nat.succ_add, Function.iterate_succ_apply]
    cases waiting with
    | nil => rw [playRound, ← ih, fst_playSession_nil, fst_playSession_nil]
    | cons first rest =>
      cases hboard : boards.get? first.board with
      | none => simp only [playSession, playRound, hboard, ih]
      | some board => simp only [playSession, playRound, hboard, ih]

/-- Who is sent on waits with the players of a group. -/
theorem exists_group_of_mem_sendOn {asset : String} {groups : List Group} {w : Waiting}
    (h : w ∈ (sendOn asset groups).1) : ∃ g ∈ groups, w.players = g.players := by
  simp only [sendOn, List.mem_filterMap, List.mem_map] at h
  obtain ⟨_, ⟨g, hg, rfl⟩, hw⟩ := h
  obtain ⟨name, -, rfl⟩ := Option.map_eq_some_iff.mp hw
  exact ⟨g, hg, rfl⟩

theorem WellParted.trans {roster players others : List Nat} (h : WellParted roster players)
    (h' : WellParted players others) : WellParted roster others where
  nonempty := h'.nonempty
  nodup := h'.nodup
  subset := fun _ hi => h.subset (h'.subset hi)

/-- In a round, those who wait stay players of the roster, each once in a group. -/
theorem wellParted_playRound {asset : String} {boards : Keyed Storyboard} {roster : List Nat}
    {state : List Waiting × GameData} (h : ∀ w ∈ state.1, WellParted roster w.players) :
    ∀ w ∈ (playRound asset boards state).1, WellParted roster w.players := by
  obtain ⟨waiting, d⟩ := state
  cases waiting with
  | nil => exact h
  | cons first rest =>
    rw [List.forall_mem_cons] at h
    cases hboard : boards.get? first.board with
    | none =>
      simp only [playRound, hboard]
      exact h.2
    | some board =>
      simp only [playRound, hboard]
      intro w hw
      rcases List.mem_append.mp hw with hw | hw
      · exact h.2 w hw
      · obtain ⟨g, hg, hplayers⟩ := exists_group_of_mem_sendOn hw
        rw [hplayers]
        exact h.1.trans (wellParted_of_mem_next h.1.nodup h.1.nonempty hg)

/-- So they do over a whole session. -/
theorem wellParted_rounds {asset : String} {boards : Keyed Storyboard} {roster : List Nat}
    {waiting : List Waiting} (h : ∀ w ∈ waiting, WellParted roster w.players) (d : GameData)
    (rounds : Nat) :
    ∀ w ∈ ((playRound asset boards)^[rounds] (waiting, d)).1, WellParted roster w.players := by
  induction rounds with
  | zero => exact h
  | succ rounds ih =>
    rw [Function.iterate_succ_apply']
    exact wellParted_playRound ih

/-- **Players are neither doubled nor mixed up.** When some players, each listed once, play a
storyboard, what it sends on are the groups of its panels in order: those of one panel hold some of
the players, each once, and they are the ones whom the panel sends on as the data are at that moment.
So in a session that some players began, which after any number of rounds goes on with the groups
that wait then, each of these holds some of the players, each once, and the effect of any narration
that it comes to is felt once by each of its players and by nobody else. -/
theorem players_stay_apart :
    (∀ (board : Storyboard) (players : List Nat) (d : GameData), players ≠ [] → players.Nodup →
      ∃ parts : List (List Group), (playBoard board players d).2.next = parts.flatten ∧
        parts.length = board.panels.length ∧
        ∀ n p, board.panels[n]? = some p → ∃ groups, parts[n]? = some groups ∧
          Parts players groups ∧ Follows players (dataAt board players d n) p groups) ∧
    ∀ (asset : String) (boards : Keyed Storyboard) (start : String) (roster : List Nat)
      (d : GameData) (rounds : Nat), roster ≠ [] → roster.Nodup →
      let state := (playRound asset boards)^[rounds] ([⟨start, roster⟩], d)
      (∀ more, (playSession asset boards (rounds + more) [⟨start, roster⟩] d).1 =
        (playSession asset boards more state.1 state.2).1) ∧
        ∀ w ∈ state.1, WellParted roster w.players ∧
          ∀ (p : Panel) (e : Effect) (names : String) (d : GameData) (i : Nat), p.effect? = some e →
            (playPanel names w.players d p).1.characters[i]? =
              if i ∈ w.players then d.characters[i]?.map e.applyTo else d.characters[i]? := by
  refine ⟨?_, ?_⟩
  · intro board players d hsome hplayers
    exact parts_playBoard hplayers hsome board d
  · intro asset boards start roster d rounds hsome hroster state
    refine ⟨fun more => fst_playSession_add asset boards rounds more _ d, ?_⟩
    intro w hw
    have hbegin : ∀ w ∈ [(⟨start, roster⟩ : Waiting)], WellParted roster w.players :=
      List.forall_mem_singleton.mpr ⟨hsome, hroster, List.Subset.refl roster⟩
    have hpart := wellParted_rounds hbegin d rounds w hw
    refine ⟨hpart, ?_⟩
    intro p e names d i heffect
    exact getElem?_characters_playPanel hpart.nodup heffect names d i

/-- Three come to a gate that only one of them is strong enough to force, and that one does. All who
wait in the night at the tavern are of its party, each once in a group. -/
theorem players_stay_apart_gate :
    let hero (strength : Int) : Character :=
      { stats := { strength := .clamp strength }, thresholds := ⟨.least, .least, .least⟩ }
    let d : GameData := { characters := [hero 2, hero 5, hero 3] }
    let force : DecisionOption := ⟨"Force it", "data:inn-yard", some "strength > 4", .clamp 5⟩
    let leave : DecisionOption := ⟨"Leave it", "data:inn-wood", none, .clamp 10⟩
    let board : Storyboard :=
      ⟨"gate", ∅, [⟨∅, .narration "A gate." {}⟩, ⟨∅, .decision "And now?" [leave, force]⟩]⟩
    let everyone := List.range TavernNight.party.characters.length
    [0, 1, 2] ≠ [] ∧ [0, 1, 2].Nodup ∧
      (∃ parts : List (List Group), (playBoard board [0, 1, 2] d).2.next = parts.flatten ∧
        ∃ groups, parts[1]? = some groups ∧ Parts [0, 1, 2] groups ∧
          ∃ g ∈ groups, 1 ∈ g.players ∧ g.targetUri = "data:inn-yard") ∧
      everyone ≠ [] ∧ everyone.Nodup ∧
      ∀ (boards : Keyed Storyboard) (rounds : Nat),
        ∀ w ∈ ((playRound TavernNight.assetName boards)^[rounds]
          ([⟨TavernNight.assetName, everyone⟩], TavernNight.party)).1,
          WellParted everyone w.players := by
  intro hero d force leave board everyone
  have hsome : [0, 1, 2] ≠ [] := by decide
  have hplayers : [0, 1, 2].Nodup := by decide
  have heveryone : everyone ≠ [] := by decide
  refine ⟨hsome, hplayers, ?_, heveryone, List.nodup_range, ?_⟩
  · obtain ⟨parts, hnext, -, hparts⟩ :=
      players_stay_apart.1 board [0, 1, 2] d hsome hplayers
    obtain ⟨groups, hgroups, hpart, hfollows⟩ := hparts 1 _ rfl
    have hopen : availableDecisions ((dataAt board [0, 1, 2] d 1).forPlayers [1]) [leave, force] =
        .ok [leave, force] := by
      decide +kernel
    obtain ⟨hgoes, hwhere⟩ := hfollows 1 (by decide)
    obtain ⟨g, hg, hin⟩ := hgoes.mpr ⟨_, hopen, by decide⟩
    obtain ⟨available, havailable, o, ho, htarget⟩ := hwhere g hg hin
    cases hopen.symm.trans havailable
    cases ho
    exact ⟨parts, hnext, groups, hgroups, hpart, g, hg, hin, htarget.symm⟩
  · intro boards rounds w hw
    exact ((players_stay_apart.2 TavernNight.assetName boards TavernNight.assetName everyone
      TavernNight.party rounds heveryone List.nodup_range).2 w hw).1

end Adventure.Play
