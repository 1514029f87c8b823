import Adventure.Proofs.Play.Footprint
import Adventure.Proofs.Play.Grouping
import Mathlib.Data.List.Nodup

/-!
How players part: nobody is sent on twice from one panel, and everybody goes where they chose.

Where picks are of different players, the groups that they make hold each of these players once,
under the target that was picked for them (`ways_groupsOf`). A panel makes one pick for a player, or
one for all of them, so that its groups are `Parts` of the players, and those it `Follows` from what
they chose (`follows_playPanel`). The groups of a storyboard are those of its panels, one panel after
another (`parts_playBoard`).
-/

namespace Adventure.Play

/-! ### Ways -/

/-- Where each player of a group goes. -/
def Group.ways (g : Group) : List (Nat × String) := g.players.map (·, g.targetUri)

theorem Group.mem_ways {g : Group} {i : Nat} {target : String} :
    (i, target) ∈ g.ways ↔ i ∈ g.players ∧ g.targetUri = target := by
  simp [ways]

@[simp] theorem Group.map_fst_ways (g : Group) : g.ways.map Prod.fst = g.players := by
  simp [ways, Function.comp_def]

/-- In a list without repetitions there is nothing to erase. -/
theorem eraseDups_of_nodup {xs : List Nat} (h : xs.Nodup) : xs.eraseDups = xs := by
  induction xs with
  | nil => rfl
  | cons x xs ih =>
    rw [List.nodup_cons] at h
    have hkept : xs.filter (fun y => !y == x) = xs := by
      refine List.filter_eq_self.mpr ?_
      intro y hy
      have hne : y ≠ x := fun heq => h.1 (heq ▸ hy)
      simpa using hne
    rw [List.eraseDups_cons, hkept, ih h.2]

/-- Players who are new to a group join it as they are. -/
theorem Group.ways_join {g : Group} {p : Pick} (htarget : g.targetUri = p.targetUri)
    (hplayers : p.players.Nodup) (hnew : ∀ i ∈ p.players, i ∉ g.players) :
    (g.join p.players).ways = g.ways ++ p.group.ways := by
  have hkept : p.players.filter (fun i => !g.players.contains i) = p.players := by
    refine List.filter_eq_self.mpr ?_
    intro i hi
    simpa using hnew i hi
  rw [join_eq, withNew, hkept, eraseDups_of_nodup hplayers]
  simp [ways, Pick.group, htarget]

/-- A pick of players who are in no group yet brings their ways to those that are there. -/
theorem ways_mergeInto {p : Pick} {gs : List (Group × Bool)} (hplayers : p.players.Nodup)
    (hnew : ∀ g ∈ gs, ∀ i ∈ p.players, i ∉ g.1.players) :
    ((Fork.mergeInto p gs).flatMap (·.1.ways)).Perm (gs.flatMap (·.1.ways) ++ p.group.ways) := by
  induction gs with
  | nil => simp [Fork.mergeInto]
  | cons entry rest ih =>
    obtain ⟨g, joinable⟩ := entry
    rw [List.forall_mem_cons] at hnew
    rw [Fork.mergeInto]
    split
    · rename_i hjoins
      have htarget : g.targetUri = p.targetUri := by
        simp only [Bool.and_eq_true, decide_eq_true_eq] at hjoins
        exact hjoins.2
      rw [List.flatMap_cons, List.flatMap_cons, Group.ways_join htarget hplayers hnew.1,
        List.append_assoc, List.append_assoc]
      exact List.perm_append_comm.append_left _
    · rw [List.flatMap_cons, List.flatMap_cons, List.append_assoc]
      exact (ih hnew.2).append_left _

/-- The ways of all groups of a fork. -/
def Fork.ways (f : Fork) : List (Nat × String) := f.groups.flatMap (·.1.ways)

/-- So does a pick that does not merge. -/
theorem Fork.ways_pick {f : Fork} {p : Pick}
    (h : ((f.ways ++ p.group.ways).map Prod.fst).Nodup) :
    (f.pick p).ways.Perm (f.ways ++ p.group.ways) := by
  rw [pick]
  split
  · rw [List.map_append, Group.map_fst_ways, List.nodup_append'] at h
    obtain ⟨-, hplayers, hdisjoint⟩ := h
    refine ways_mergeInto hplayers ?_
    intro g hg i hi hold
    refine hdisjoint (List.mem_map.mpr ⟨(i, g.1.targetUri), ?_, rfl⟩) hi
    exact List.mem_flatMap.mpr ⟨g, hg, Group.mem_ways.mpr ⟨hold, rfl⟩⟩
  · simp [ways]

/-- Picks of different players send each of them where it was picked. -/
theorem Fork.ways_foldl_pick {f : Fork} {picks : List Pick}
    (h : ((f.ways ++ picks.flatMap (·.group.ways)).map Prod.fst).Nodup) :
    (picks.foldl Fork.pick f).ways.Perm (f.ways ++ picks.flatMap (·.group.ways)) := by
  induction picks generalizing f with
  | nil => simp
  | cons p picks ih =>
    rw [List.flatMap_cons, ← List.append_assoc] at h ⊢
    have hfirst : (f.pick p).ways.Perm (f.ways ++ p.group.ways) := by
      refine ways_pick ?_
      rw [List.map_append] at h
      exact h.of_append_left
    have hall := hfirst.append_right (picks.flatMap (·.group.ways))
    exact (ih ((hall.map Prod.fst).nodup_iff.mpr h)).trans hall

/-- The same when they are sent off. -/
theorem ways_groupsOf {picks : List Pick} (h : (picks.flatMap Pick.players).Nodup) (d : GameData) :
    ((groupsOf d picks).flatMap Group.ways).Perm (picks.flatMap (·.group.ways)) := by
  have hplayers : (picks.flatMap (·.group.ways)).map Prod.fst = picks.flatMap Pick.players := by
    simp [List.map_flatMap, Group.map_fst_ways, Pick.group]
  have hfork := Fork.ways_foldl_pick (f := {}) (hplayers ▸ h)
  have hsent := ((picks.foldl Fork.pick {}).sendOff_perm d.characters).flatMap_right Group.ways
  rw [List.flatMap_map] at hsent
  exact hsent.trans hfork

/-! ### Parts of the players -/

/-- Groups that hold some of the players, and each of these once. -/
structure Parts (players : List Nat) (groups : List Group) : Prop where
  nonempty : ∀ g ∈ groups, g.players ≠ []
  nodup : ∀ g ∈ groups, g.players.Nodup
  disjoint : groups.Pairwise fun g h => g.players.Disjoint h.players
  subset : ∀ g ∈ groups, g.players ⊆ players

/-- Every group was founded by some pick, and holds the players of this pick. -/
theorem exists_pick_of_mem_formed {earlier picks : List Pick} {entry : Group × Bool}
    (h : entry ∈ formed earlier picks) :
    ∃ p ∈ picks, ∃ others, entry.1.players = p.players ++ others := by
  induction picks generalizing earlier with
  | nil => cases h
  | cons p later ih =>
    rw [formed] at h
    split at h
    · obtain ⟨q, hq, hplayers⟩ := ih h
      exact ⟨q, List.mem_cons_of_mem p hq, hplayers⟩
    · rcases List.mem_cons.mp h with rfl | h
      · exact ⟨p, List.mem_cons_self, _, rfl⟩
      · obtain ⟨q, hq, hplayers⟩ := ih h
        exact ⟨q, List.mem_cons_of_mem p hq, hplayers⟩

theorem mem_groupsOf {d : GameData} {picks : List Pick} {g : Group} (h : g ∈ groupsOf d picks) :
    ∃ p ∈ picks, ∃ others, g.players = p.players ++ others := by
  have hfork := ((picks.foldl Fork.pick {}).sendOff_perm d.characters).mem_iff.mp h
  rw [groups_foldl_pick] at hfork
  obtain ⟨entry, hentry, rfl⟩ := List.mem_map.mp hfork
  exact exists_pick_of_mem_formed hentry

/-- Picks of some of the players, each in one of them, part the players. -/
theorem parts_groupsOf {players : List Nat} {picks : List Pick} (hplayers : players.Nodup)
    (hpicks : ∀ p ∈ picks, p.players ≠ []) (hsub : (picks.flatMap Pick.players).Sublist players)
    (d : GameData) : Parts players (groupsOf d picks) := by
  have hways := ways_groupsOf (hsub.nodup hplayers) d
  have hperm : ((groupsOf d picks).flatMap Group.players).Perm (picks.flatMap Pick.players) := by
    have h := hways.map Prod.fst
    simpa [List.map_flatMap, Pick.group] using h
  have hnodup := List.nodup_flatMap.mp (hperm.nodup_iff.mpr (hsub.nodup hplayers))
  refine ⟨?_, hnodup.1, hnodup.2, ?_⟩
  · intro g hg
    obtain ⟨p, hp, others, heq⟩ := mem_groupsOf hg
    rw [heq]
    exact fun hnil => hpicks p hp (List.append_eq_nil_iff.mp hnil).1
  · intro g hg i hi
    exact hsub.subset (hperm.mem_iff.mp (List.mem_flatMap.mpr ⟨g, hg, hi⟩))

/-- Picks of one player each are of those players who have a pick. -/
theorem flatMap_players_of_solo {choose : Nat → Option Pick}
    (hsolo : ∀ i p, choose i = some p → p.players = [i]) (players : List Nat) :
    (players.filterMap choose).flatMap Pick.players =
      players.filter fun i => (choose i).isSome := by
  induction players with
  | nil => rfl
  | cons i players ih =>
    cases hi : choose i with
    | none => simp [hi, ih]
    | some p => simp [hi, ih, hsolo i p hi]

/-- They part the players, and whoever has a pick goes where it says. -/
theorem parts_of_solo {players : List Nat} (hplayers : players.Nodup) {choose : Nat → Option Pick}
    (hsolo : ∀ i p, choose i = some p → p.players = [i]) (d : GameData) :
    Parts players (groupsOf d (players.filterMap choose)) ∧
      ∀ i ∈ players,
        ((∃ g ∈ groupsOf d (players.filterMap choose), i ∈ g.players) ↔ ∃ p, choose i = some p) ∧
        ∀ g ∈ groupsOf d (players.filterMap choose), i ∈ g.players →
          ∃ p, choose i = some p ∧ p.targetUri = g.targetUri := by
  have hsub : ((players.filterMap choose).flatMap Pick.players).Sublist players := by
    rw [flatMap_players_of_solo hsolo]
    exact List.filter_sublist
  have hnonempty : ∀ p ∈ players.filterMap choose, p.players ≠ [] := by
    intro p hp
    obtain ⟨i, -, hi⟩ := List.mem_filterMap.mp hp
    rw [hsolo i p hi]
    exact List.cons_ne_nil i []
  refine ⟨parts_groupsOf hplayers hnonempty hsub d, ?_⟩
  intro i hi
  have hways (target : String) := (ways_groupsOf (hsub.nodup hplayers) d).mem_iff (a := (i, target))
  simp only [List.mem_flatMap, Group.mem_ways] at hways
  have hgoes : ∀ g ∈ groupsOf d (players.filterMap choose), i ∈ g.players →
      ∃ p, choose i = some p ∧ p.targetUri = g.targetUri := by
    intro g hg hin
    obtain ⟨p, hp, hin, htarget⟩ := (hways g.targetUri).mp ⟨g, hg, hin, rfl⟩
    obtain ⟨j, -, hj⟩ := List.mem_filterMap.mp hp
    have hij : i = j := by
      rw [Pick.group, hsolo j p hj] at hin
      exact List.mem_singleton.mp hin
    exact ⟨p, hij ▸ hj, htarget⟩
  refine ⟨⟨?_, ?_⟩, hgoes⟩
  · rintro ⟨g, hg, hin⟩
    obtain ⟨p, hp, -⟩ := hgoes g hg hin
    exact ⟨p, hp⟩
  · rintro ⟨p, hp⟩
    have hin : i ∈ p.group.players := by
      rw [Pick.group, hsolo i p hp]
      exact List.mem_singleton_self i
    obtain ⟨g, hg, hin, -⟩ :=
      (hways p.targetUri).mpr ⟨p, List.mem_filterMap.mpr ⟨i, hi, hp⟩, hin, rfl⟩
    exact ⟨g, hg, hin⟩

/-- No picks make no groups. -/
theorem groupsOf_nil (d : GameData) : groupsOf d [] = [] := List.mergeSort_nil

/-- One pick makes one group. -/
theorem groupsOf_singleton (d : GameData) (p : Pick) : groupsOf d [p] = [p.group] := by
  rw [groupsOf, List.foldl_cons, List.foldl_nil, Fork.pick_empty]
  exact List.mergeSort_singleton _

/-! ### One panel -/

/-- A player decides for the option whose number among those that are open is the player's place on
the roster, counted round. -/
theorem snd_chooseDecision_eq_some_iff {d : GameData} {options : List DecisionOption}
    {merge : Bool} {i : Nat} {p : Pick} :
    (chooseDecision d options merge i).2 = some p ↔
      ∃ available, availableDecisions (d.forPlayers [i]) options = .ok available ∧
        ∃ o, available[i % available.length]? = some o ∧ Pick.ofDecision i o merge = p := by
  rw [chooseDecision]
  cases availableDecisions (d.forPlayers [i]) options with
  | error e => simp
  | ok available =>
    cases hchoice : available[i % available.length]? with
    | none => simp [hchoice]
    | some o => simp [hchoice]

theorem snd_chooseBranch_eq_some_iff {d : GameData} {options : List BranchOption}
    {merge : Bool} {players : List Nat} {p : Pick} :
    (chooseBranch d options merge players).2 = some p ↔
      ∃ o, resolveBranch (d.forPlayers players) options = .ok (some o) ∧
        Pick.ofBranch players o merge = p := by
  rw [chooseBranch]
  cases resolveBranch (d.forPlayers players) options with
  | error e => simp
  | ok taken =>
    cases taken with
    | none => simp
    | some o => simp

/-- Which groups a panel sends on: after a narration none; after a decision those who have an open
option, each to the one that is theirs; after a branch that everyone takes alone those for whom a
guard holds, each to the option with the first such guard; and after any other branch all players
together, if a guard holds for them. -/
def Follows (players : List Nat) (d : GameData) (p : Panel) (groups : List Group) : Prop :=
  match p.body with
  | .narration _ _ => groups = []
  | .decision _ options =>
    ∀ i ∈ players,
      ((∃ g ∈ groups, i ∈ g.players) ↔
        ∃ available, availableDecisions (d.forPlayers [i]) options = .ok available ∧
          available ≠ []) ∧
      ∀ g ∈ groups, i ∈ g.players →
        ∃ available, availableDecisions (d.forPlayers [i]) options = .ok available ∧
          ∃ o, available[i % available.length]? = some o ∧ o.targetUri = g.targetUri
  | .branch options =>
    if p.splitsParty then
      ∀ i ∈ players,
        ((∃ g ∈ groups, i ∈ g.players) ↔
          ∃ o, resolveBranch (d.forPlayers [i]) options = .ok (some o)) ∧
        ∀ g ∈ groups, i ∈ g.players →
          ∃ o, resolveBranch (d.forPlayers [i]) options = .ok (some o) ∧ o.targetUri = g.targetUri
    else
      (∃ o, resolveBranch (d.forPlayers players) options = .ok (some o) ∧
        groups = [⟨players, o.targetUri, o.order⟩]) ∨
      (¬∃ o, resolveBranch (d.forPlayers players) options = .ok (some o)) ∧ groups = []

theorem Parts.nil (players : List Nat) : Parts players [] where
  nonempty := by intro g hg; cases hg
  nodup := by intro g hg; cases hg
  disjoint := .nil
  subset := by intro g hg; cases hg

theorem follows_decision {players : List Nat} (hplayers : players.Nodup) (names : String)
    (d : GameData) (properties : Keyed String) (prompt : String) (options : List DecisionOption) :
    let p : Panel := ⟨properties, .decision prompt options⟩
    Parts players (playPanel names players d p).2.next ∧
      Follows players d p (playPanel names players d p).2.next := by
  intro p
  have hnext : (playPanel names players d p).2.next =
      groupsOf d (players.filterMap fun i => (chooseDecision d options p.merges i).2) := by
    simp only [playPanel, p, List.filterMap_map, Function.comp_def]
  have hsolo : ∀ i q, (chooseDecision d options p.merges i).2 = some q → q.players = [i] := by
    intro i q hq
    obtain ⟨available, -, o, -, rfl⟩ := snd_chooseDecision_eq_some_iff.mp hq
    rfl
  obtain ⟨hparts, hgoes⟩ := parts_of_solo hplayers hsolo d
  rw [← hnext] at hparts hgoes
  refine ⟨hparts, ?_⟩
  intro i hi
  refine ⟨(hgoes i hi).1.trans ⟨?_, ?_⟩, ?_⟩
  · rintro ⟨q, hq⟩
    obtain ⟨available, hopen, o, ho, -⟩ := snd_chooseDecision_eq_some_iff.mp hq
    exact ⟨available, hopen, List.ne_nil_of_mem (List.mem_of_getElem? ho)⟩
  · rintro ⟨available, hopen, hne⟩
    have hlt : i % available.length < available.length :=
      Nat.mod_lt i (List.length_pos_of_ne_nil hne)
    exact ⟨_, snd_chooseDecision_eq_some_iff.mpr
      ⟨available, hopen, _, List.getElem?_eq_getElem hlt, rfl⟩⟩
  · intro g hg hin
    obtain ⟨q, hq, htarget⟩ := (hgoes i hi).2 g hg hin
    obtain ⟨available, hopen, o, ho, rfl⟩ := snd_chooseDecision_eq_some_iff.mp hq
    exact ⟨available, hopen, o, ho, htarget⟩

theorem follows_branch {players : List Nat} (hplayers : players.Nodup) (hsome : players ≠ [])
    (names : String) (d : GameData) (properties : Keyed String) (options : List BranchOption) :
    let p : Panel := ⟨properties, .branch options⟩
    Parts players (playPanel names players d p).2.next ∧
      Follows players d p (playPanel names players d p).2.next := by
  intro p
  cases hsplits : p.splitsParty with
  | true =>
    have hnext : (playPanel names players d p).2.next =
        groupsOf d (players.filterMap fun i => (chooseBranch d options p.merges [i]).2) := by
      simp only [playPanel, p, hsplits, if_true, List.map_map, List.filterMap_map,
        Function.comp_def]
    have hsolo : ∀ i q, (chooseBranch d options p.merges [i]).2 = some q → q.players = [i] := by
      intro i q hq
      obtain ⟨o, -, rfl⟩ := snd_chooseBranch_eq_some_iff.mp hq
      rfl
    obtain ⟨hparts, hgoes⟩ := parts_of_solo hplayers hsolo d
    rw [← hnext] at hparts hgoes
    refine ⟨hparts, ?_⟩
    simp only [Follows, p, hsplits, if_true]
    intro i hi
    refine ⟨(hgoes i hi).1.trans ⟨?_, ?_⟩, ?_⟩
    · rintro ⟨q, hq⟩
      obtain ⟨o, ho, -⟩ := snd_chooseBranch_eq_some_iff.mp hq
      exact ⟨o, ho⟩
    · rintro ⟨o, ho⟩
      exact ⟨_, snd_chooseBranch_eq_some_iff.mpr ⟨o, ho, rfl⟩⟩
    · intro g hg hin
      obtain ⟨q, hq, htarget⟩ := (hgoes i hi).2 g hg hin
      obtain ⟨o, ho, rfl⟩ := snd_chooseBranch_eq_some_iff.mp hq
      exact ⟨o, ho, htarget⟩
  | false =>
    have hnext : (playPanel names players d p).2.next =
        groupsOf d (chooseBranch d options p.merges players).2.toList := by
      simp only [playPanel, p, hsplits, Bool.false_eq_true, if_false, List.map_cons, List.map_nil]
      cases hchoice : (chooseBranch d options p.merges players).2 <;> simp [p, hchoice]
    rw [hnext]
    simp only [Follows, p, hsplits, Bool.false_eq_true, if_false]
    cases hchoice : (chooseBranch d options p.merges players).2 with
    | none =>
      rw [Option.toList_none, groupsOf_nil]
      refine ⟨Parts.nil players, Or.inr ⟨?_, rfl⟩⟩
      rintro ⟨o, ho⟩
      rw [snd_chooseBranch_eq_some_iff.mpr ⟨o, ho, rfl⟩] at hchoice
      cases hchoice
    | some q =>
      obtain ⟨o, ho, rfl⟩ := snd_chooseBranch_eq_some_iff.mp hchoice
      rw [Option.toList_some, groupsOf_singleton]
      refine ⟨⟨?_, ?_, ?_, ?_⟩, Or.inl ⟨o, ho, rfl⟩⟩
      · exact List.forall_mem_singleton.mpr hsome
      · exact List.forall_mem_singleton.mpr hplayers
      · exact List.pairwise_singleton _ _
      · exact List.forall_mem_singleton.mpr (List.Subset.refl players)

/-- The groups of a panel part the players as the panel has it. -/
theorem follows_playPanel {players : List Nat} (hplayers : players.Nodup) (hsome : players ≠ [])
    (names : String) (d : GameData) (p : Panel) :
    Parts players (playPanel names players d p).2.next ∧
      Follows players d p (playPanel names players d p).2.next := by
  obtain ⟨properties, body⟩ := p
  cases body with
  | narration text effect => exact ⟨Parts.nil players, rfl⟩
  | decision prompt options => exact follows_decision hplayers names d properties prompt options
  | branch options => exact follows_branch hplayers hsome names d properties options

/-! ### Storyboards -/

/-- The game data when a storyboard comes to its panel number `n`: those that playing the panels
before it leaves behind. -/
def dataAt (board : Storyboard) (players : List Nat) (d : GameData) (n : Nat) : GameData :=
  (playBoard { board with panels := board.panels.take n } players d).1

/-- The groups that panels send on come one panel after another. -/
theorem next_playPanels (names : String) (players : List Nat) (d : GameData)
    (panels : List Panel) :
    ∃ parts : List (List Group), (playPanels names players d panels).2.next = parts.flatten ∧
      parts.length = panels.length ∧
      ∀ n p, panels[n]? = some p → parts[n]? =
        some (playPanel names players (playPanels names players d (panels.take n)).1 p).2.next := by
  induction panels generalizing d with
  | nil =>
    refine ⟨[], rfl, rfl, ?_⟩
    intro n p hp
    cases hp
  | cons first rest ih =>
    obtain ⟨parts, hnext, hlength, hparts⟩ := ih (playPanel names players d first).1
    refine ⟨(playPanel names players d first).2.next :: parts, ?_, ?_, ?_⟩
    · rw [playPanels, List.flatten_cons, ← hnext]
    · rw [List.length_cons, List.length_cons, hlength]
    · intro n p hp
      cases n with
      | zero =>
        cases hp
        rfl
      | succ n => exact hparts n p hp

theorem parts_playBoard {players : List Nat} (hplayers : players.Nodup) (hsome : players ≠ [])
    (board : Storyboard) (d : GameData) :
    ∃ parts : List (List Group), (playBoard board players d).2.next = parts.flatten ∧
      parts.length = board.panels.length ∧
      ∀ n p, board.panels[n]? = some p → ∃ groups, parts[n]? = some groups ∧
        Parts players groups ∧ Follows players (dataAt board players d n) p groups := by
  obtain ⟨parts, hnext, hlength, hparts⟩ := next_playPanels _ players d board.panels
  refine ⟨parts, hnext, hlength, ?_⟩
  intro n p hp
  exact ⟨_, hparts n p hp, follows_playPanel hplayers hsome _ _ p⟩

end Adventure.Play
