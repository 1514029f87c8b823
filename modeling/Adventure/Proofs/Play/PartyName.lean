import Adventure.Preview
import Adventure.Proofs.Text.Cuts
import Adventure.Record.Read
import Mathlib.Data.List.Perm.Subperm

/-!
What players are called in narration.

A narration is told of `The Party` when as many players are listed as there are characters, one of
whom is listed (`called_eq_theParty_iff`); otherwise of the first names of those who are listed. No
first names read like `The Party` (`listNames_ne_theParty`). For a list in which nobody is named
twice, and nobody who is not there, this is the whole party (`whole_party_called_iff`). Other lists
can be as long as the roster without the whole party in them, or longer with it
(`whole_party_miscalled`).
-/

namespace Adventure

/-! ### First names -/

/-- A first name has no space in it, or is a name that starts with one. -/
theorem Character.space_firstName (c : Character) :
    ' ' ∉ c.firstName.toList ∨ ∃ rest, c.firstName.toList = ' ' :: rest := by
  cases hparts : c.nameParts? with
  | some parts =>
    obtain ⟨hcut, -⟩ := Option.filter_eq_some_iff.mp hparts
    obtain ⟨-, -, -, hfirst⟩ := Text.splitAt?_eq_some_iff.mp hcut
    rw [firstName, hparts]
    refine .inl fun hspace => ?_
    rw [String.toList_ofList] at hspace
    simpa using hfirst ' ' hspace
  | none =>
    rw [firstName, hparts]
    rw [nameParts?] at hparts
    cases hcut : Text.splitAt? (· = ' ') c.name.toList with
    | none =>
      refine .inl fun hspace => ?_
      simpa using Text.splitAt?_eq_none_iff.mp hcut ' ' hspace
    | some parts =>
      obtain ⟨first, last⟩ := parts
      have hempty : first = [] := by
        simpa [hcut, Option.filter] using hparts
      obtain ⟨space, hname, hspace, -⟩ := Text.splitAt?_eq_some_iff.mp hcut
      rw [of_decide_eq_true hspace, hempty] at hname
      exact .inr ⟨last, hname⟩

theorem Character.firstName_ne_theParty (c : Character) : c.firstName ≠ "The Party" := by
  intro h
  rcases c.space_firstName with hspace | ⟨rest, hspace⟩
  · rw [h] at hspace
    exact hspace (by decide)
  · rw [h] at hspace
    exact absurd (List.cons.inj hspace).1 (by decide)

namespace Play

/-! ### Names together -/

/-- Some names together do not read like `The Party` if none of them does. -/
theorem listNames_ne_theParty {names : List String} (h : ∀ name ∈ names, name ≠ "The Party") :
    listNames names ≠ "The Party" := by
  -- Several names are joined by an `and`, whose second letter is not in `The Party`.
  have hjoined {front joint behind : String} (hn : 'n' ∈ joint.toList) :
      front ++ joint ++ behind ≠ "The Party" := by
    intro heq
    have hin : 'n' ∈ (front ++ joint ++ behind).toList := by
      rw [String.toList_append, String.toList_append]
      exact List.mem_append_left _ (List.mem_append_right _ hn)
    rw [heq] at hin
    exact absurd hin (by decide)
  match names with
  | [] => exact (by decide : "" ≠ "The Party")
  | [only] => exact h only (List.mem_singleton_self only)
  | [first, second] =>
    rw [listNames]
    exact hjoined (by decide)
  | first :: second :: third :: rest =>
    rw [listNames]
    · exact hjoined (by decide)
    all_goals simp

/-- Players are called `The Party` exactly if they are said to be it and one of them is there. -/
theorem playerNames_eq_theParty_iff {characters : List Character} {isParty : Bool} :
    playerNames characters isParty = "The Party" ↔ isParty = true ∧ characters ≠ [] := by
  have hfirst : listNames (characters.map Character.firstName) ≠ "The Party" :=
    listNames_ne_theParty (List.forall_mem_map.mpr fun c _ => c.firstName_ne_theParty)
  rw [playerNames]
  cases characters with
  | nil => simp
  | cons c rest =>
    cases isParty with
    | true => simp
    | false => simpa using hfirst

/-- If they are not called so, they are called by their first names. -/
theorem playerNames_of_ne_theParty {characters : List Character} {isParty : Bool}
    (h : playerNames characters isParty ≠ "The Party") :
    playerNames characters isParty = listNames (characters.map Character.firstName) := by
  rw [playerNames] at h ⊢
  cases characters with
  | nil => rfl
  | cons c rest =>
    cases isParty with
    | true => exact absurd rfl h
    | false => rfl

end Play

/-! ### The whole party -/

/-- Players who are all on a roster, and none of them twice, are all who are there if they are as
many. -/
theorem length_eq_iff_forall_mem {players : List Nat} {n : Nat} (hnodup : players.Nodup)
    (hthere : ∀ i ∈ players, i < n) : players.length = n ↔ ∀ i < n, i ∈ players := by
  have hsub : players.Subperm (List.range n) :=
    List.subperm_of_subset hnodup fun i hi => List.mem_range.mpr (hthere i hi)
  constructor
  · intro hlength i hi
    have hperm := hsub.perm_of_length_le (by rw [List.length_range, hlength])
    exact hperm.mem_iff.mpr (List.mem_range.mpr hi)
  · intro hall
    have hsup : (List.range n).Subperm players :=
      List.subperm_of_subset List.nodup_range fun i hi => hall i (List.mem_range.mp hi)
    have hle := hsub.length_le
    have hge := hsup.length_le
    rw [List.length_range] at hle hge
    exact Nat.le_antisymm hle hge

namespace Preview

/-- What players are called when a narration is told to them. -/
def called (p : Preview) (players : List Nat) : String :=
  Play.playerNames (p.data.forPlayers players).characters
    (!players.isEmpty && players.length == p.data.characters.length)

variable {p : Preview} {players : List Nat}

/-- A narration is told with what the players are called in place of the mark for them. -/
theorem narration_eq [Record.Formats] {name json text : String} {place : Nat} {panel : Panel}
    {effect : Effect} (hread : readPlayers json = .ok players)
    (hpanel : p.panel name place = .ok panel) (hbody : panel.body = .narration text effect) :
    p.narration name place json = .ok (Play.withNames text (p.called players)) := by
  obtain ⟨properties, body⟩ := panel
  cases hbody
  rw [narration, hread, hpanel]
  rfl

theorem characters_forPlayers_ne_nil {d : GameData} :
    (d.forPlayers players).characters ≠ [] ↔ ∃ i ∈ players, i < d.characters.length := by
  simp [GameData.forPlayers, List.filterMap_eq_nil_iff]

/-- They are called `The Party` exactly if as many are listed as there are characters, and one who is
there. -/
theorem called_eq_theParty_iff :
    p.called players = "The Party" ↔
      players.length = p.data.characters.length ∧ ∃ i ∈ players, i < p.data.characters.length := by
  rw [called, Play.playerNames_eq_theParty_iff, characters_forPlayers_ne_nil]
  refine and_congr_left ?_
  rintro ⟨i, hi, -⟩
  have hsome : players.isEmpty = false := List.isEmpty_eq_false_iff.mpr (List.ne_nil_of_mem hi)
  rw [hsome, Bool.not_false, Bool.true_and, beq_iff_eq]

/-- **When players are called the whole party.** A narration is told to listed players with what they
are called. That is `The Party` exactly if the list is as long as the roster and names someone on it,
and else the first names of those on the roster who are listed. If nobody is listed twice and nobody
who is not there, they are called `The Party` exactly if everyone is listed. -/
theorem whole_party_called_iff [Record.Formats] {name json text : String} {place : Nat}
    {panel : Panel} {effect : Effect} (hroster : p.data.characters ≠ [])
    (hread : readPlayers json = .ok players)
    (hpanel : p.panel name place = .ok panel) (hbody : panel.body = .narration text effect) :
    let n := p.data.characters.length
    p.narration name place json = .ok (Play.withNames text (p.called players)) ∧
      (p.called players = "The Party" ↔ players.length = n ∧ ∃ i ∈ players, i < n) ∧
      (p.called players ≠ "The Party" → p.called players =
        Play.listNames ((p.data.forPlayers players).characters.map Character.firstName)) ∧
      (players.Nodup → (∀ i ∈ players, i < n) →
        (p.called players = "The Party" ↔ ∀ i < n, i ∈ players)) := by
  intro n
  refine ⟨narration_eq hread hpanel hbody, called_eq_theParty_iff,
    Play.playerNames_of_ne_theParty, ?_⟩
  intro hnodup hthere
  rw [called_eq_theParty_iff, ← length_eq_iff_forall_mem hnodup hthere, and_iff_left_iff_imp]
  intro hlength
  have hsome : players ≠ [] := by
    rintro rfl
    exact hroster (List.eq_nil_of_length_eq_zero hlength.symm)
  obtain ⟨i, hi⟩ := List.exists_mem_of_ne_nil players hsome
  exact ⟨i, hi, hthere i hi⟩

/-- Ada and Bo wait in the hall. -/
theorem whole_party_called_iff_hall :
    let text := "\x7bplayer\x7d wait."
    let hall : Storyboard := ⟨"hall", ∅, [⟨∅, .narration text {}⟩]⟩
    let p : Preview :=
      { storyboards := .ofList [("hall", hall)], warnings := []
        data := { characters := [{ name := "Ada" }, { name := "Bo" }] } }
    (p.data.characters ≠ [] ∧ readPlayers "[1, 0]" = .ok [1, 0] ∧
      p.panel "hall" 0 = .ok ⟨∅, .narration text {}⟩) ∧
      p.narration "hall" 0 "[1, 0]" = .ok "The Party wait." := by
  intro text hall p
  have hread : readPlayers "[1, 0]" = .ok [1, 0] := by decide +kernel
  have hpanel : p.panel "hall" 0 = .ok ⟨∅, .narration text {}⟩ := rfl
  have hroster : p.data.characters ≠ [] := List.cons_ne_nil _ _
  obtain ⟨htold, -, -, hcalled⟩ := whole_party_called_iff hroster hread hpanel rfl
  have hnames : p.called [1, 0] = "The Party" := (hcalled (by decide) (by decide)).mpr (by decide)
  have htext : Play.withNames text "The Party" = "The Party wait." := by decide +kernel
  rw [hnames, htext] at htold
  exact ⟨⟨hroster, hread, hpanel⟩, htold⟩

/-- **A party that is not whole, and one that is not seen to be**: somebody who is not there makes up
for Bo, and Ada's second mention makes the list too long. -/
theorem whole_party_miscalled :
    let roster := "\x7b\"characters\": [\x7b\"name\": \"Ada\"\x7d, \x7b\"name\": \"Bo\"\x7d]\x7d"
    let told (players : String) : Except Error String :=
      ((ofAsset "inn" ">>hall\n|\x7bplayer\x7d waits.").setData roster).bind fun p =>
        p.narration "hall" 0 players
    (¬(∀ i < 2, i ∈ [0, 5]) ∧ readPlayers "[0,5]" = .ok [0, 5] ∧
      told "[0,5]" = .ok "The Party waits.") ∧
    (∀ i < 2, i ∈ [0, 1, 0]) ∧ readPlayers "[0,1,0]" = .ok [0, 1, 0] ∧
      told "[0,1,0]" = .ok "Ada, Bo, and Ada waits." := by
  intro roster told
  refine ⟨⟨by decide, by decide +kernel, by decide +kernel⟩, by decide, by decide +kernel,
    by decide +kernel⟩

end Preview

end Adventure
