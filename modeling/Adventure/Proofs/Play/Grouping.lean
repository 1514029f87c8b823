import Adventure.Play.Fork

/-!
What a row of picks makes of a fork, seen by looking at all of them at once.

Two picks *merge* with each other when both ask for it and have one target. A pick that merges with
no earlier one founds a group, and the group takes in the players of all later picks that merge with
its founder, each only if it is not there yet (`formed`). A fork takes the picks one at a time and
looks for the group that a pick may join; it comes to hold just these groups (`groups_foldl_pick`).
`Fork.sendOff_of_picks` says so of a fork that is sent off: every group goes on once, sorted by its
place in the order, and groups with one place go on in the order of their founders.
-/

namespace Adventure.Play

/-! ### Groups seen at once -/

/-- Whether both of two picks merge, and for one target. -/
def Pick.mergesWith (p q : Pick) : Bool := p.merge && q.merge && p.targetUri = q.targetUri

/-- Players with others behind them, in order, who are not among them yet. -/
def withNew (players others : List Nat) : List Nat :=
  players ++ (others.filter fun p => !players.contains p).eraseDups

/-- The group that a pick founds, given the picks behind it. -/
def Pick.groupWith (p : Pick) (later : List Pick) : Group :=
  { p.group with
    players := withNew p.players ((later.filter p.mergesWith).flatMap Pick.players) }

/-- The groups that picks form behind some earlier ones, each with whether others may join it: one
for every pick that merges with no pick before it. -/
def formed (earlier : List Pick) : List Pick → List (Group × Bool)
  | [] => []
  | p :: later =>
    if earlier.any p.mergesWith then formed (earlier ++ [p]) later
    else (p.groupWith later, p.merge) :: formed (earlier ++ [p]) later

/-! ### Merging -/

theorem Pick.mergesWith_iff {p q : Pick} :
    p.mergesWith q = true ↔ p.merge = true ∧ q.merge = true ∧ p.targetUri = q.targetUri := by
  simp [mergesWith, and_assoc]

theorem Pick.mergesWith_of_not_merge {p : Pick} (h : p.merge = false) (q : Pick) :
    p.mergesWith q = false := by
  simp [mergesWith, h]

theorem Pick.mergesWith_comm (p q : Pick) : p.mergesWith q = q.mergesWith p := by
  rw [Bool.eq_iff_iff, mergesWith_iff, mergesWith_iff]
  constructor
  · rintro ⟨hp, hq, ht⟩
    exact ⟨hq, hp, ht.symm⟩
  · rintro ⟨hq, hp, ht⟩
    exact ⟨hp, hq, ht.symm⟩

/-- Picks that merge with each other merge with the same picks. -/
theorem Pick.mergesWith_congr {p q : Pick} (h : p.mergesWith q = true) (r : Pick) :
    p.mergesWith r = q.mergesWith r := by
  obtain ⟨hp, hq, ht⟩ := mergesWith_iff.mp h
  simp only [mergesWith, hp, hq, ht]

/-- So they merge with an earlier pick both or neither. -/
theorem Pick.any_mergesWith_congr {p q : Pick} (h : p.mergesWith q = true) (earlier : List Pick) :
    earlier.any p.mergesWith = earlier.any q.mergesWith := by
  congr 1
  funext r
  exact mergesWith_congr h r

theorem Pick.any_concat_mergesWith (earlier : List Pick) (p q : Pick) :
    (earlier ++ [p]).any q.mergesWith = (earlier.any q.mergesWith || p.mergesWith q) := by
  rw [List.any_append, mergesWith_comm p q]
  simp

/-- A pick that merges with an earlier one does not change what later ones merge with. -/
theorem Pick.any_concat_of_any {earlier : List Pick} {p : Pick}
    (hp : earlier.any p.mergesWith = true) (q : Pick) :
    (earlier ++ [p]).any q.mergesWith = earlier.any q.mergesWith := by
  rw [any_concat_mergesWith]
  cases hq : p.mergesWith q with
  | false => rw [Bool.or_false]
  | true => rw [← any_mergesWith_congr hq, hp, Bool.or_true]

/-! ### Joining -/

theorem foldl_add_new (players others : List Nat) :
    others.foldl (fun ps p => if ps.contains p then ps else ps ++ [p]) players =
      withNew players others := by
  induction others generalizing players with
  | nil => exact (List.append_nil players).symm
  | cons q others ih =>
    rw [List.foldl_cons, ih]
    cases hq : players.contains q with
    | true => simp only [withNew, hq, if_true, List.filter_cons, Bool.not_true, Bool.false_eq_true,
        if_false]
    | false =>
      -- Those who come behind `q` are new if they are neither `q` nor there before.
      have hnew : (fun p => !(players ++ [q]).contains p) =
          fun p => !(p == q) && !players.contains p := by
        funext p
        rw [List.contains_append, Bool.not_or, Bool.and_comm]
        simp [Bool.beq_eq_decide_eq]
      simp only [withNew, hq, if_false, List.filter_cons, Bool.not_false, if_true,
        List.eraseDups_cons, List.filter_filter, hnew, List.append_assoc, List.singleton_append,
        Bool.false_eq_true]

theorem Group.join_eq (g : Group) (others : List Nat) :
    g.join others = { g with players := withNew g.players others } := by
  rw [join, foldl_add_new]

/-- Players who join in two lots join in one. -/
theorem Group.join_join (g : Group) (first second : List Nat) :
    (g.join first).join second = g.join (first ++ second) := by
  simp only [join, List.foldl_append]

/-! ### Picking -/

theorem Fork.pick_of_not_merge {p : Pick} (h : p.merge = false) (gs : List (Group × Bool)) :
    Fork.pick ⟨gs⟩ p = ⟨gs ++ [(p.group, false)]⟩ := by
  simp [pick, h]

theorem Fork.pick_of_merge {p : Pick} (h : p.merge = true) (gs : List (Group × Bool)) :
    Fork.pick ⟨gs⟩ p = ⟨mergeInto p gs⟩ := by
  simp [pick, h]

/-- The first pick founds a group. -/
theorem Fork.pick_empty (p : Pick) : Fork.pick {} p = ⟨[(p.group, p.merge)]⟩ := by
  cases hmerge : p.merge with
  | false => exact pick_of_not_merge hmerge []
  | true => exact pick_of_merge hmerge []

/-- Which picks go to the first group of a fork. -/
def takes (g : Group) (joinable : Bool) (p : Pick) : Bool :=
  joinable && p.merge && g.targetUri = p.targetUri

/-- The first group takes in all the picks that may join it, and the others see only what stands
behind it. -/
theorem groups_foldl_pick_cons (g : Group) (joinable : Bool) (rest : List (Group × Bool))
    (picks : List Pick) :
    (picks.foldl Fork.pick ⟨(g, joinable) :: rest⟩).groups =
      (g.join ((picks.filter (takes g joinable)).flatMap Pick.players), joinable) ::
        ((picks.filter fun p => !takes g joinable p).foldl Fork.pick ⟨rest⟩).groups := by
  induction picks generalizing g rest with
  | nil => rfl
  | cons p picks ih =>
    rw [List.foldl_cons]
    cases hmerge : p.merge with
    | false =>
      have htakes : takes g joinable p = false := by simp [takes, hmerge]
      simp [Fork.pick_of_not_merge hmerge, htakes, ih]
    | true =>
      rw [Fork.pick_of_merge hmerge, Fork.mergeInto]
      cases htakes : takes g joinable p with
      | true =>
        have hfirst : (joinable && decide (g.targetUri = p.targetUri)) = true := by
          simpa [takes, hmerge] using htakes
        have hsame : takes (g.join p.players) joinable = takes g joinable := rfl
        rw [if_pos hfirst, ih, hsame, Group.join_join]
        simp [htakes]
      | false =>
        have hfirst : ¬(joinable && decide (g.targetUri = p.targetUri)) = true := by
          simpa [takes, hmerge] using htakes
        rw [if_neg hfirst, ih]
        simp [htakes, Fork.pick_of_merge hmerge]

/-- Behind some earlier picks, those that merge with none of them are all that still counts. -/
theorem groups_foldl_pick_filter (earlier picks : List Pick) :
    ((picks.filter fun p => !earlier.any p.mergesWith).foldl Fork.pick {}).groups =
      formed earlier picks := by
  induction picks generalizing earlier with
  | nil => rfl
  | cons p later ih =>
    rw [formed, ← ih]
    cases hp : earlier.any p.mergesWith with
    | true =>
      simp [hp, Pick.any_concat_of_any hp]
    | false =>
      -- Whoever merges with `p` merges with nothing before it.
      have htaken : ∀ q ∈ later,
          (p.mergesWith q && !earlier.any q.mergesWith) = p.mergesWith q := by
        intro q _
        cases hq : p.mergesWith q with
        | false => rfl
        | true => simp [← Pick.any_mergesWith_congr hq, hp]
      have hleft : ∀ q ∈ later,
          (!p.mergesWith q && !earlier.any q.mergesWith) =
            !(earlier ++ [p]).any q.mergesWith := by
        intro q _
        rw [Pick.any_concat_mergesWith, Bool.not_or, Bool.and_comm]
      have htakes : takes p.group p.merge = p.mergesWith := rfl
      simp only [List.filter_cons, hp, Bool.not_false, if_true, List.foldl_cons,
        Fork.pick_empty, groups_foldl_pick_cons, htakes, List.filter_filter, List.filter_congr htaken,
        List.filter_congr hleft, Group.join_eq, Pick.groupWith, Bool.false_eq_true, if_false]
      rfl

/-- A fork that takes picks one at a time holds the groups that they form. -/
theorem groups_foldl_pick (picks : List Pick) :
    (picks.foldl Fork.pick {}).groups = formed [] picks := by
  have hall : (picks.filter fun p => !([] : List Pick).any p.mergesWith) = picks :=
    List.filter_eq_self.mpr fun _ _ => rfl
  rw [← groups_foldl_pick_filter, hall]

/-! ### Which groups there are -/

/-- Every pick that does not merge has its own group. -/
theorem apart_formed (earlier picks : List Pick) :
    ((formed earlier picks).filter (!·.2)).map Prod.fst =
      (picks.filter (!·.merge)).map Pick.group := by
  induction picks generalizing earlier with
  | nil => rfl
  | cons p later ih =>
    rw [formed]
    cases hmerge : p.merge with
    | true => split <;> simp [hmerge, ih]
    | false =>
      have halone := Pick.mergesWith_of_not_merge hmerge
      have hnone : later.filter p.mergesWith = [] := by
        simp [List.filter_eq_nil_iff, halone]
      have hgroup : p.groupWith later = p.group := by
        simp [Pick.groupWith, withNew, hnone, Pick.group]
      simp [hmerge, halone, ih, hgroup]

/-- There is one group that may be joined for every target of the picks that merge. -/
theorem targets_formed (earlier picks : List Pick) :
    ((formed earlier picks).filter (·.2)).map (·.1.targetUri) =
      ((picks.filter fun p => p.merge && !earlier.any p.mergesWith).map
        Pick.targetUri).eraseDups := by
  induction picks generalizing earlier with
  | nil => rfl
  | cons p later ih =>
    have ih := ih (earlier ++ [p])
    rw [formed]
    cases hp : earlier.any p.mergesWith with
    | true =>
      simp only [Pick.any_concat_of_any hp] at ih
      simp [hp, ih]
    | false =>
      cases hmerge : p.merge with
      | false =>
        have halone := Pick.mergesWith_of_not_merge hmerge
        simp only [Pick.any_concat_mergesWith, halone, Bool.or_false] at ih
        simp [hmerge, ih]
      | true =>
        -- Those who merge behind `p` are left over if they have another target.
        have hleft : ∀ q : Pick, (q.merge && !(earlier ++ [p]).any q.mergesWith) =
            (!(q.targetUri == p.targetUri) && (q.merge && !earlier.any q.mergesWith)) := by
          intro q
          rw [Pick.any_concat_mergesWith]
          cases hq : q.merge with
          | false => simp
          | true =>
            simp [Pick.mergesWith, hmerge, hq, Bool.and_comm, eq_comm, Bool.beq_eq_decide_eq]
        simp only [hleft] at ih
        simp [hp, hmerge, ih, List.eraseDups_cons, List.filter_map, Function.comp_def,
          List.filter_filter, Pick.groupWith, Pick.group]

/-! ### Sending off -/

theorem place_trans (roster : List Character) (a b c : Group)
    (hab : decide (a.finalOrder roster ≤ b.finalOrder roster) = true)
    (hbc : decide (b.finalOrder roster ≤ c.finalOrder roster) = true) :
    decide (a.finalOrder roster ≤ c.finalOrder roster) = true := by
  simp only [decide_eq_true_eq, Score.le_iff] at *
  omega

theorem place_total (roster : List Character) (a b : Group) :
    (decide (a.finalOrder roster ≤ b.finalOrder roster) ||
      decide (b.finalOrder roster ≤ a.finalOrder roster)) = true := by
  simp only [Bool.or_eq_true, decide_eq_true_eq, Score.le_iff]
  omega

/-- No group is lost or repeated. -/
theorem Fork.sendOff_perm (f : Fork) (roster : List Character) :
    (f.sendOff roster).1.Perm (f.groups.map Prod.fst) :=
  List.mergeSort_perm _ _

/-- The groups go on by their places. -/
theorem Fork.sendOff_sorted (f : Fork) (roster : List Character) :
    (f.sendOff roster).1.Pairwise fun a b => a.finalOrder roster ≤ b.finalOrder roster :=
  (List.pairwise_mergeSort (place_trans roster) (place_total roster) _).imp of_decide_eq_true

/-- Groups with one place keep their order. -/
theorem Fork.sendOff_stable (f : Fork) (roster : List Character) (place : Score) :
    (f.sendOff roster).1.filter (fun g => g.finalOrder roster = place) =
      (f.groups.map Prod.fst).filter fun g => g.finalOrder roster = place := by
  let same := (f.groups.map Prod.fst).filter fun g => g.finalOrder roster = place
  have hsame : ∀ g ∈ same, g.finalOrder roster = place := by
    intro g hg
    exact of_decide_eq_true (List.mem_filter.mp hg).2
  have hsorted : same.Pairwise fun a b =>
      decide (a.finalOrder roster ≤ b.finalOrder roster) = true := by
    refine List.pairwise_of_forall_mem_list ?_
    intro a ha b hb
    have hequal := (hsame a ha).trans (hsame b hb).symm
    exact decide_eq_true (Score.le_iff.mpr (Int.le_of_eq (congrArg Score.val hequal)))
  -- They are sorted as they stand, so the sort leaves them in this order among the others.
  have hsub : same.Sublist (f.sendOff roster).1 :=
    List.sublist_mergeSort (place_trans roster) (place_total roster) hsorted List.filter_sublist
  have hkept : same.filter (fun g => g.finalOrder roster = place) = same :=
    List.filter_eq_self.mpr fun g hg => decide_eq_true (hsame g hg)
  have hsub' := hsub.filter fun g => g.finalOrder roster = place
  rw [hkept] at hsub'
  exact (hsub'.eq_of_length ((f.sendOff_perm roster).filter _).length_eq.symm).symm

/-- **A fork groups as one does who sees all picks at once.** Whatever a fork is sent off with, it is
like a new one behind that. From there it holds the groups that its picks form: one for every pick
that does not merge and one for every target of those that do, in the order of the picks that found
them. Sent off, these groups go on once each, sorted by their places, and those with one place in the
order in which they were founded. -/
theorem Fork.sendOff_of_picks (picks : List Pick) (roster : List Character) :
    let fork := picks.foldl Fork.pick {}
    let groups := (formed [] picks).map Prod.fst
    let sent := (fork.sendOff roster).1
    fork.groups = formed [] picks ∧
      ((formed [] picks).filter (!·.2)).map Prod.fst = (picks.filter (!·.merge)).map Pick.group ∧
      ((formed [] picks).filter (·.2)).map (·.1.targetUri) =
        ((picks.filter (·.merge)).map Pick.targetUri).eraseDups ∧
      sent.Perm groups ∧
      sent.Pairwise (fun a b => a.finalOrder roster ≤ b.finalOrder roster) ∧
      (∀ place, sent.filter (fun g => g.finalOrder roster = place) =
        groups.filter fun g => g.finalOrder roster = place) ∧
      ∀ f : Fork, (f.sendOff roster).2 = {} := by
  intro fork groups sent
  have hgroups : fork.groups.map Prod.fst = groups :=
    congrArg (List.map Prod.fst) (groups_foldl_pick picks)
  refine ⟨groups_foldl_pick picks, apart_formed [] picks, ?_, ?_, ?_, ?_, ?_⟩
  · simpa using targets_formed [] picks
  · rw [← hgroups]
    exact fork.sendOff_perm roster
  · exact fork.sendOff_sorted roster
  · intro place
    rw [← hgroups]
    exact fork.sendOff_stable roster place
  · intro f
    rfl

end Adventure.Play
