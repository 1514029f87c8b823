import Adventure.Proofs.Play.Grouping
import Mathlib.Algebra.BigOperators.Group.List.Basic
import Mathlib.Data.List.Forall2
import Mathlib.Data.List.Nodup
import Mathlib.Data.List.Perm.Basic

/-!
Nothing is gained by picking first.

A group that may be joined holds whoever is in one of the picks that merge for its target
(`joint_of_mem_formed`), and this set does not depend on the order of the picks. So in whatever order
the same picks are made, they form the `SameGroups`: one by one the groups are `Alike`, which leaves
open only in which order they list their players. Alike groups have one place in the order, because
this place depends on how many the players are and on the sum of their initiatives, and so only
groups of one place can change places when they are sent off (`Fork.sendOff_of_perm`).
-/

namespace Adventure.Play

/-! ### Groups that are alike -/

/-- Groups that differ at most in the order in which they list their players. -/
structure Group.Alike (g g' : Group) : Prop where
  targetUri : g.targetUri = g'.targetUri
  order : g.order = g'.order
  players : g.players.Perm g'.players

namespace Group.Alike

variable {g g' : Group}

theorem refl (g : Group) : g.Alike g := ⟨rfl, rfl, .refl _⟩

/-- Alike groups have one place in the order. -/
theorem finalOrder_eq (h : g.Alike g') (roster : List Character) :
    g.finalOrder roster = g'.finalOrder roster := by
  have hmembers : (g.members roster).Perm (g'.members roster) := h.players.filterMap _
  have hinitiatives := hmembers.map Character.initiative
  simp only [finalOrder, ← List.sum_eq_foldr, hinitiatives.sum_eq, hinitiatives.length_eq, h.order]

end Group.Alike

/-- Groups that are alike one by one, once they are put in order. -/
def SameGroups (gs hs : List Group) : Prop :=
  ∃ moved, moved.Perm gs ∧ List.Forall₂ Group.Alike moved hs

namespace SameGroups

variable {gs gs' hs hs' : List Group}

theorem of_perm (h : gs.Perm hs) : SameGroups gs hs :=
  ⟨hs, h.symm, List.forall₂_same.mpr fun g _ => .refl g⟩

theorem append (h : SameGroups gs hs) (h' : SameGroups gs' hs') :
    SameGroups (gs ++ gs') (hs ++ hs') := by
  obtain ⟨moved, hmoved, halike⟩ := h
  obtain ⟨moved', hmoved', halike'⟩ := h'
  exact ⟨moved ++ moved', hmoved.append hmoved', List.rel_append halike halike'⟩

/-- The order on either side does not count. -/
theorem perm (h : SameGroups gs hs) (hg : gs.Perm gs') (hh : hs.Perm hs') : SameGroups gs' hs' := by
  obtain ⟨moved, hmoved, halike⟩ := h
  obtain ⟨moved', halike', hmoved'⟩ := List.perm_comp_forall₂ hh.symm halike.flip
  exact ⟨moved', (hmoved'.trans hmoved).trans hg, halike'.flip⟩

/-- Groups for the same targets are the same if those for one target are alike. -/
theorem of_targets (htargets : (gs.map Group.targetUri).Perm (hs.map Group.targetUri))
    (halike : ∀ g ∈ gs, ∀ g' ∈ hs, g.targetUri = g'.targetUri → g.Alike g') : SameGroups gs hs := by
  have hnamed : List.Forall₂ (fun t g => t = g.targetUri) (gs.map Group.targetUri) gs :=
    List.forall₂_map_left_iff.mpr (List.forall₂_same.mpr fun _ _ => rfl)
  obtain ⟨moved, hmatch, hmoved⟩ := List.perm_comp_forall₂ htargets.symm hnamed
  obtain ⟨hlength, hsame⟩ := List.forall₂_iff_zip.mp (List.forall₂_map_left_iff.mp hmatch)
  refine ⟨moved, hmoved, List.Forall₂.flip (List.forall₂_iff_zip.mpr ⟨hlength, ?_⟩)⟩
  intro g' g hpair
  obtain ⟨hg', hg⟩ := List.of_mem_zip hpair
  exact halike g (hmoved.mem_iff.mp hg) g' hg' (hsame hpair).symm

end SameGroups

/-! ### Founders -/

/-- Every group has a founder, who merges with nobody before them. -/
theorem exists_founder_of_mem_formed {earlier picks : List Pick} {entry : Group × Bool}
    (h : entry ∈ formed earlier picks) :
    ∃ front p later, picks = front ++ p :: later ∧
      (earlier ++ front).any p.mergesWith = false ∧ entry = (p.groupWith later, p.merge) := by
  induction picks generalizing earlier with
  | nil => cases h
  | cons p later ih =>
    have htail (h : entry ∈ formed (earlier ++ [p]) later) :
        ∃ front q behind, p :: later = front ++ q :: behind ∧
          (earlier ++ front).any q.mergesWith = false ∧
          entry = (q.groupWith behind, q.merge) := by
      obtain ⟨front, q, behind, hlater, hfirst, hentry⟩ := ih h
      refine ⟨p :: front, q, behind, by rw [hlater, List.cons_append], ?_, hentry⟩
      rwa [List.append_assoc, List.singleton_append] at hfirst
    rw [formed] at h
    split at h
    · exact htail h
    · rename_i hfirst
      rcases List.mem_cons.mp h with rfl | h
      · refine ⟨[], p, later, rfl, ?_, rfl⟩
        rwa [List.append_nil, ← Bool.not_eq_true]
      · exact htail h

theorem nodup_eraseDups {α : Type} [DecidableEq α] : (xs : List α) → xs.eraseDups.Nodup
  | [] => List.nodup_nil
  | x :: xs => by
    rw [List.eraseDups_cons, List.nodup_cons]
    refine ⟨?_, nodup_eraseDups _⟩
    simp
termination_by xs => xs.length
decreasing_by
  have := List.length_filter_le (fun y => !y == x) xs
  simp only [List.length_cons]
  omega

theorem perm_eraseDups {α : Type} [DecidableEq α] {xs ys : List α} (h : xs.Perm ys) :
    xs.eraseDups.Perm ys.eraseDups := by
  refine (List.perm_ext_iff_of_nodup (nodup_eraseDups xs) (nodup_eraseDups ys)).mpr ?_
  intro x
  rw [List.mem_eraseDups, List.mem_eraseDups, h.mem_iff]

theorem nodup_withNew {players : List Nat} (h : players.Nodup) (others : List Nat) :
    (withNew players others).Nodup := by
  refine h.append (nodup_eraseDups _) ?_
  intro i hold hnew
  rw [List.mem_eraseDups, List.mem_filter] at hnew
  simp [hold] at hnew

theorem mem_withNew {players others : List Nat} {i : Nat} :
    i ∈ withNew players others ↔ i ∈ players ∨ i ∈ others := by
  rw [withNew, List.mem_append, List.mem_eraseDups, List.mem_filter]
  by_cases h : i ∈ players <;> simp [h]

/-! ### Groups that may be joined -/

/-- A group that may be joined is made up of the picks that merge with its founder. -/
theorem joint_of_mem_formed {picks : List Pick} (hplayers : ∀ p ∈ picks, p.players.Nodup)
    {g : Group} (h : (g, true) ∈ formed [] picks) :
    ∃ p ∈ picks, p.merge = true ∧ g.targetUri = p.targetUri ∧ g.order = p.order ∧
      g.players.Nodup ∧
      ∀ i, i ∈ g.players ↔ ∃ q ∈ picks, p.mergesWith q = true ∧ i ∈ q.players := by
  obtain ⟨front, p, later, rfl, hfirst, hentry⟩ := exists_founder_of_mem_formed h
  obtain ⟨rfl, hmerge⟩ := Prod.mk.inj hentry
  have hp : p ∈ front ++ p :: later := List.mem_append_right _ List.mem_cons_self
  refine ⟨p, hp, hmerge.symm, rfl, rfl, nodup_withNew (hplayers p hp) _, ?_⟩
  intro i
  have hself : p.mergesWith p = true := Pick.mergesWith_iff.mpr ⟨hmerge.symm, hmerge.symm, rfl⟩
  have hfront : ∀ q ∈ front, p.mergesWith q = false := by
    simpa using hfirst
  rw [Pick.groupWith, mem_withNew, List.mem_flatMap]
  constructor
  · rintro (hi | ⟨q, hq, hi⟩)
    · exact ⟨p, hp, hself, hi⟩
    · obtain ⟨hq, hmerges⟩ := List.mem_filter.mp hq
      exact ⟨q, List.mem_append_right _ (List.mem_cons_of_mem p hq), hmerges, hi⟩
  · rintro ⟨q, hq, hmerges, hi⟩
    rcases List.mem_append.mp hq with hq | hq
    · rw [hfront q hq] at hmerges
      cases hmerges
    · rcases List.mem_cons.mp hq with rfl | hq
      · exact .inl hi
      · exact .inr ⟨q, List.mem_filter.mpr ⟨hq, hmerges⟩, hi⟩

section

variable {picks picks' : List Pick} (hperm : picks.Perm picks')
  (hplayers : ∀ p ∈ picks, p.players.Nodup)
  (horder : ∀ p ∈ picks, ∀ q ∈ picks, p.mergesWith q = true → p.order = q.order)

include hperm hplayers horder

/-- The same picks make alike groups that may be joined, whoever picks first. -/
theorem alike_of_mem_formed {g g' : Group} (h : (g, true) ∈ formed [] picks)
    (h' : (g', true) ∈ formed [] picks') (htarget : g.targetUri = g'.targetUri) : g.Alike g' := by
  have hplayers' : ∀ p ∈ picks', p.players.Nodup := fun p hp => hplayers p (hperm.mem_iff.mpr hp)
  obtain ⟨p, hp, hmerge, hto, hat, hnodup, hmem⟩ := joint_of_mem_formed hplayers h
  obtain ⟨p', hp', hmerge', hto', hat', hnodup', hmem'⟩ := joint_of_mem_formed hplayers' h'
  have hmerges : p.mergesWith p' = true :=
    Pick.mergesWith_iff.mpr ⟨hmerge, hmerge', (hto.symm.trans htarget).trans hto'⟩
  refine ⟨htarget, ?_, (List.perm_ext_iff_of_nodup hnodup hnodup').mpr ?_⟩
  · rw [hat, hat', horder p hp p' (hperm.mem_iff.mpr hp') hmerges]
  · intro i
    simp only [hmem, hmem', Pick.mergesWith_congr hmerges, hperm.mem_iff]

/-- The same picks form the same groups. -/
theorem sameGroups_formed :
    SameGroups ((formed [] picks).map Prod.fst) ((formed [] picks').map Prod.fst) := by
  have hparts (picks : List Pick) := (List.filter_append_perm (·.2) (formed [] picks)).map Prod.fst
  refine .perm (.append (.of_targets ?targets ?alike) (.of_perm ?apart))
    (List.map_append ▸ hparts picks) (List.map_append ▸ hparts picks')
  case targets =>
    rw [List.map_map, List.map_map]
    exact targets_formed [] picks ▸ targets_formed [] picks' ▸
      perm_eraseDups ((hperm.filter _).map _)
  case alike =>
    intro g hg g' hg' htarget
    have hjoint {picks : List Pick} {g : Group}
        (hg : g ∈ ((formed [] picks).filter (·.2)).map Prod.fst) : (g, true) ∈ formed [] picks := by
      obtain ⟨⟨g, joinable⟩, hentry, rfl⟩ := List.mem_map.mp hg
      obtain ⟨hformed, rfl⟩ := List.mem_filter.mp hentry
      exact hformed
    exact alike_of_mem_formed hperm hplayers horder (hjoint hg) (hjoint hg') htarget
  case apart =>
    rw [apart_formed, apart_formed]
    exact (hperm.filter _).map _

end

/-! ### Sending off -/

/-- Places in order are determined by how often each one occurs. -/
theorem map_finalOrder_eq {gs hs : List Group} {roster : List Character}
    (hperm : (gs.map (Group.finalOrder roster)).Perm (hs.map (Group.finalOrder roster)))
    (hg : gs.Pairwise fun a b => a.finalOrder roster ≤ b.finalOrder roster)
    (hh : hs.Pairwise fun a b => a.finalOrder roster ≤ b.finalOrder roster) :
    gs.map (Group.finalOrder roster) = hs.map (Group.finalOrder roster) := by
  refine hperm.eq_of_pairwise ?_ (List.pairwise_map.mpr hg) (List.pairwise_map.mpr hh)
  intro a b _ _ hab hba
  rw [Score.le_iff] at hab hba
  exact Score.ext (Int.le_antisymm hab hba)

/-- **Who picks first does not matter.** Picks that name nobody twice, and where those that merge
have one order, may be made in any order: the groups that are sent off are the same ones. One row of
groups becomes the other when groups that have the same place are moved, and each group lists its
players in another order; target, order and place of each group stay. -/
theorem Fork.sendOff_of_perm {picks picks' : List Pick} (hperm : picks.Perm picks')
    (hplayers : ∀ p ∈ picks, p.players.Nodup)
    (horder : ∀ p ∈ picks, ∀ q ∈ picks, p.mergesWith q = true → p.order = q.order)
    (roster : List Character) :
    let sent := ((picks.foldl Fork.pick {}).sendOff roster).1
    let sent' := ((picks'.foldl Fork.pick {}).sendOff roster).1
    ∃ moved : List Group, moved.Perm sent ∧
      moved.map (Group.finalOrder roster) = sent.map (Group.finalOrder roster) ∧
      List.Forall₂ (fun g g' => g.Alike g' ∧ g.finalOrder roster = g'.finalOrder roster)
        moved sent' := by
  intro sent sent'
  have hsent (picks : List Pick) : ((formed [] picks).map Prod.fst).Perm
      ((picks.foldl Fork.pick {}).sendOff roster).1 := by
    rw [← groups_foldl_pick]
    exact (Fork.sendOff_perm _ roster).symm
  obtain ⟨moved, hmoved, halike⟩ :=
    (sameGroups_formed hperm hplayers horder).perm (hsent picks) (hsent picks')
  have hplace : List.Forall₂ (fun g g' => g.Alike g' ∧ g.finalOrder roster = g'.finalOrder roster)
      moved sent' := halike.imp fun g g' h => ⟨h, h.finalOrder_eq roster⟩
  have hplaces : moved.map (Group.finalOrder roster) = sent'.map (Group.finalOrder roster) := by
    rw [← List.forall₂_eq_eq_eq, List.forall₂_map_left_iff, List.forall₂_map_right_iff]
    exact hplace.imp fun _ _ h => h.2
  refine ⟨moved, hmoved, ?_, hplace⟩
  rw [hplaces]
  refine map_finalOrder_eq ?_ (Fork.sendOff_sorted _ roster) (Fork.sendOff_sorted _ roster)
  rw [← hplaces]
  exact hmoved.map _

/-- Ada and Bo go to the inn together, and Cy goes there alone. Whether Ada or Cy and Bo come first,
these two groups are sent off. -/
theorem Fork.sendOff_of_perm_inn :
    let ada : Pick := ⟨[0], "data:inn", .clamp 10, true⟩
    let bo : Pick := ⟨[1], "data:inn", .clamp 10, true⟩
    let cy : Pick := ⟨[2], "data:inn", .clamp 10, false⟩
    let roster : List Character := [{ name := "Ada" }, { name := "Bo" }, { name := "Cy" }]
    let sent := (([ada, bo, cy].foldl Fork.pick {}).sendOff roster).1
    let sent' := (([cy, bo, ada].foldl Fork.pick {}).sendOff roster).1
    ([ada, bo, cy].Perm [cy, bo, ada] ∧ (∀ p ∈ [ada, bo, cy], p.players.Nodup) ∧
      ∀ p ∈ [ada, bo, cy], ∀ q ∈ [ada, bo, cy], p.mergesWith q = true → p.order = q.order) ∧
      sent.map Group.players = [[0, 1], [2]] ∧ sent'.map Group.players = [[2], [1, 0]] ∧
      ∃ moved : List Group, moved.Perm sent ∧
        moved.map (Group.finalOrder roster) = sent.map (Group.finalOrder roster) ∧
        List.Forall₂ (fun g g' => g.Alike g' ∧ g.finalOrder roster = g'.finalOrder roster)
          moved sent' := by
  intro ada bo cy roster sent sent'
  have hperm : [ada, bo, cy].Perm [cy, bo, ada] := List.reverse_perm [cy, bo, ada]
  have hplayers : ∀ p ∈ [ada, bo, cy], p.players.Nodup := by decide
  have horder : ∀ p ∈ [ada, bo, cy], ∀ q ∈ [ada, bo, cy],
      p.mergesWith q = true → p.order = q.order := by decide
  -- Both groups go on at the place 10, so that sorting leaves them as they are.
  have hsent : sent = [⟨[0, 1], "data:inn", .clamp 10⟩, ⟨[2], "data:inn", .clamp 10⟩] :=
    List.mergeSort_of_pairwise (by decide)
  have hsent' : sent' = [⟨[2], "data:inn", .clamp 10⟩, ⟨[1, 0], "data:inn", .clamp 10⟩] :=
    List.mergeSort_of_pairwise (by decide)
  refine ⟨⟨hperm, hplayers, horder⟩, ?_, ?_, Fork.sendOff_of_perm hperm hplayers horder roster⟩
  · rw [hsent]
    rfl
  · rw [hsent']
    rfl

end Adventure.Play
