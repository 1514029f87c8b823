import Adventure.Play.Fork
import Mathlib.Algebra.Order.BigOperators.Group.List
import Mathlib.Algebra.Order.Field.Basic
import Mathlib.Algebra.Ring.Int.Parity
import Mathlib.Data.List.Forall2
import Mathlib.Tactic.FieldSimp
import Mathlib.Tactic.Linarith

/-!
How the quickness and the size of a group decide when it goes.

A group goes by the order of its option, less the average initiative of its members on the roster,
and less a bonus for their number (`Group.exists_finalOrder_eq`). The average is rounded, but never
so that a greater one becomes a smaller number (`IsHalfEven.le_of_le`). So a group is never later
than another one with the same order that is neither quicker nor bigger
(`Group.finalOrder_le_of_average_le`), and what remains to be seen is how the average changes with
the roster and with the members.
-/

namespace Adventure

/-! ### Scores -/

theorem Score.add_le_add {a b c d : Score} (hac : a ≤ c) (hbd : b ≤ d) : a + b ≤ c + d := by
  rw [le_iff] at hac hbd
  exact clamp_mono (by omega)

theorem Score.sub_le_sub_left {a b : Score} (h : a ≤ b) (c : Score) : c - b ≤ c - a := by
  rw [le_iff] at h
  exact clamp_mono (by omega)

namespace Play

/-! ### Rounding -/

/-- `r` is a whole number nearest to `q`, and the even one if there are two. -/
structure IsHalfEven (q : ℚ) (r : ℤ) : Prop where
  near : |q - r| ≤ 1 / 2
  even : |q - r| = 1 / 2 → Even r

namespace IsHalfEven

theorem of_near {q : ℚ} {r : ℤ} (h : |q - r| < 1 / 2) : IsHalfEven q r :=
  ⟨h.le, fun htie => absurd htie h.ne⟩

theorem of_tie {q : ℚ} {r : ℤ} (h : |q - r| = 1 / 2) (heven : Even r) : IsHalfEven q r :=
  ⟨h.le, fun _ => heven⟩

/-- A whole number is rounded to itself. -/
theorem intCast (r : ℤ) : IsHalfEven r r := of_near (by norm_num)

/-- A greater number is not rounded to a smaller one. -/
theorem le_of_le {q q' : ℚ} {r r' : ℤ} (h : IsHalfEven q r) (h' : IsHalfEven q' r') (hle : q ≤ q') :
    r ≤ r' := by
  by_contra hlt
  have hnext : (r' : ℚ) + 1 ≤ r := by exact_mod_cast Int.not_le.mp hlt
  obtain ⟨hbelow, -⟩ := abs_le.mp h.near
  obtain ⟨-, habove⟩ := abs_le.mp h'.near
  -- Then `q` and `q'` are one number, halfway between `r'` and the next one, and both are even.
  have hr : r = r' + 1 := by exact_mod_cast (by linarith : (r : ℚ) = r' + 1)
  have hq : q - r = -(1 / 2) := by linarith
  have hq' : q' - r' = 1 / 2 := by linarith
  have heven : Even r := h.even (by rw [hq, abs_neg, abs_of_pos (by norm_num)])
  have heven' : Even r' := h'.even (by rw [hq', abs_of_pos (by norm_num)])
  rw [hr, Int.even_add_one] at heven
  exact heven heven'

end IsHalfEven

theorem isHalfEven_roundHalfEven (n : ℤ) {d : ℕ} (hd : 0 < d) :
    IsHalfEven (n / d) (roundHalfEven n d) := by
  have hpos : (0 : ℚ) < d := Nat.cast_pos.mpr hd
  have hsplit : (n : ℚ) / d = (n / d : ℤ) + ((n % d : ℤ) : ℚ) / d := by
    field_simp
    exact_mod_cast (Int.mul_ediv_add_emod n d).symm
  have hrest : 0 ≤ ((n % d : ℤ) : ℚ) / d :=
    div_nonneg (by exact_mod_cast Int.emod_nonneg n (by omega)) hpos.le
  have hlt : ((n % d : ℤ) : ℚ) / d < 1 := by
    rw [div_lt_one hpos]
    exact_mod_cast Int.emod_lt_of_pos n (by omega)
  have hbelow : 2 * (n % d : ℤ) < d ↔ ((n % d : ℤ) : ℚ) / d < 1 / 2 := by
    rw [div_lt_div_iff₀ hpos two_pos, one_mul, mul_comm]
    exact_mod_cast Iff.rfl
  have habove : d < 2 * (n % d : ℤ) ↔ 1 / 2 < ((n % d : ℤ) : ℚ) / d := by
    rw [div_lt_div_iff₀ two_pos hpos, one_mul, mul_comm]
    exact_mod_cast Iff.rfl
  -- What is left of the quotient lies in `[0, 1)`, and on which side of the middle decides.
  rw [roundHalfEven, hsplit]
  simp only [hbelow, habove]
  generalize ((n % d : ℤ) : ℚ) / d = x at *
  generalize n / (d : ℤ) = q
  split_ifs with hdown hup heven
  · refine .of_near ?_
    rw [add_sub_cancel_left, abs_of_nonneg hrest]
    exact hdown
  · refine .of_near ?_
    rw [abs_lt]
    push_cast
    constructor <;> linarith
  · have hmiddle : x = 1 / 2 := le_antisymm (not_lt.mp hup) (not_lt.mp hdown)
    refine .of_tie ?_ (Int.even_iff.mpr heven)
    rw [add_sub_cancel_left, hmiddle, abs_of_pos (by norm_num)]
  · have hmiddle : x = 1 / 2 := le_antisymm (not_lt.mp hup) (not_lt.mp hdown)
    refine .of_tie ?_ (Int.even_add_one.mpr (by rwa [Int.even_iff]))
    rw [Int.cast_add, Int.cast_one, add_sub_add_left_eq_sub, hmiddle]
    norm_num

/-! ### Groups -/

namespace Group

/-- The initiatives of the members. -/
def initiatives (roster : List Character) (g : Group) : List Int :=
  (g.members roster).map Character.initiative

/-- Their exact average. -/
def average (roster : List Character) (g : Group) : ℚ :=
  (g.initiatives roster).sum / (g.initiatives roster).length

/-- What the number of members takes off the order: one for every two beyond the first. -/
def sizeBonus (roster : List Character) (g : Group) : Score :=
  Score.clamp (((g.initiatives roster).length - 1) / 2 : Nat)

variable {roster roster' : List Character} {g g' : Group}

theorem length_initiatives_pos (h : g.members roster ≠ []) : 0 < (g.initiatives roster).length := by
  rw [initiatives, List.length_map]
  exact List.length_pos_of_ne_nil h

theorem exists_finalOrder_eq (h : g.members roster ≠ []) :
    ∃ r : ℤ, IsHalfEven (g.average roster) r ∧
      g.finalOrder roster = g.order - (Score.clamp r + g.sizeBonus roster) := by
  have hpos := length_initiatives_pos h
  refine ⟨_, isHalfEven_roundHalfEven (g.initiatives roster).sum hpos, ?_⟩
  exact if_neg (Nat.ne_of_gt hpos)

/-- **A group that is neither slower nor smaller than another one goes no later**, if their options
have one order. -/
theorem finalOrder_le_of_average_le (horder : g'.order = g.order) (h : g.members roster ≠ [])
    (haverage : g.average roster ≤ g'.average roster')
    (hsize : (g.initiatives roster).length ≤ (g'.initiatives roster').length) :
    g'.finalOrder roster' ≤ g.finalOrder roster := by
  have h' : g'.members roster' ≠ [] := by
    intro hnil
    have hpos := length_initiatives_pos h
    rw [initiatives, initiatives, hnil] at hsize
    exact Nat.not_lt.mpr hsize hpos
  obtain ⟨r, hr, hfinal⟩ := exists_finalOrder_eq h
  obtain ⟨r', hr', hfinal'⟩ := exists_finalOrder_eq h'
  have hbonus : g.sizeBonus roster ≤ g'.sizeBonus roster' := by
    refine Score.clamp_mono ?_
    omega
  rw [hfinal, hfinal', horder]
  refine Score.sub_le_sub_left ?_ _
  exact Score.add_le_add (Score.clamp_mono (hr.le_of_le hr' haverage)) hbonus

/-! ### Quicker groups -/

/-- A character who becomes quicker does so wherever a group lists them, and nobody else changes. -/
theorem forall₂_initiatives_set {p : Nat} {c raised : Character} (hc : roster[p]? = some c)
    (hraised : c.initiative ≤ raised.initiative) :
    List.Forall₂ (· ≤ ·) (g.initiatives roster) (g.initiatives (roster.set p raised)) := by
  rw [initiatives, initiatives, List.forall₂_map_left_iff, List.forall₂_map_right_iff]
  refine List.rel_filterMap (R := Eq) ?_ (List.forall₂_refl _)
  rintro i _ rfl
  change Option.Rel _ roster[i]? (roster.set p raised)[i]?
  rw [List.getElem?_set]
  by_cases hi : p = i
  · subst hi
    have hlt : p < roster.length := (List.getElem?_eq_some_iff.mp hc).1
    rw [if_pos rfl, if_pos hlt, hc]
    exact .some hraised
  · rw [if_neg hi]
    cases roster[i]? with
    | none => exact .none
    | some c => exact .some (le_refl c.initiative)

theorem average_le_average_set {p : Nat} {c raised : Character} (hc : roster[p]? = some c)
    (hraised : c.initiative ≤ raised.initiative) :
    g.average roster ≤ g.average (roster.set p raised) := by
  have hall := forall₂_initiatives_set (g := g) hc hraised
  rw [average, average, ← hall.length_eq]
  gcongr
  exact hall.sum_le_sum

/-! ### Bigger groups -/

theorem initiatives_add {p : Nat} {c : Character} {players : List Nat} (hc : roster[p]? = some c)
    (hplayers : players.Perm (p :: g.players)) :
    (initiatives roster { g with players }).Perm (c.initiative :: g.initiatives roster) := by
  have hmembers := (hplayers.filterMap fun i => roster[i]?).map Character.initiative
  rwa [List.filterMap_cons_some hc, List.map_cons] at hmembers

theorem average_le_average_add {p : Nat} {c : Character} {players : List Nat}
    (h : g.members roster ≠ []) (hc : roster[p]? = some c)
    (hplayers : players.Perm (p :: g.players)) (hquick : g.average roster ≤ c.initiative) :
    g.average roster ≤ average roster { g with players } := by
  have hpos : (0 : ℚ) < (g.initiatives roster).length := by exact_mod_cast length_initiatives_pos h
  have hall := initiatives_add hc hplayers
  rw [average] at hquick ⊢
  rw [average, hall.sum_eq, hall.length_eq, List.sum_cons, List.length_cons]
  rw [div_le_iff₀ hpos] at hquick
  rw [div_le_div_iff₀ hpos (by positivity), Int.cast_add, Nat.cast_succ]
  linarith

/-! ### Bounds -/

theorem le_average {low : ℤ} (h : g.members roster ≠ [])
    (hlow : ∀ i ∈ g.initiatives roster, low ≤ i) : low ≤ g.average roster := by
  have hpos : (0 : ℚ) < (g.initiatives roster).length := by exact_mod_cast length_initiatives_pos h
  have hsum := List.card_nsmul_le_sum _ _ hlow
  rw [nsmul_eq_mul, mul_comm] at hsum
  rw [average, le_div_iff₀ hpos]
  exact_mod_cast hsum

theorem average_le {high : ℤ} (h : g.members roster ≠ [])
    (hhigh : ∀ i ∈ g.initiatives roster, i ≤ high) : g.average roster ≤ high := by
  have hpos : (0 : ℚ) < (g.initiatives roster).length := by exact_mod_cast length_initiatives_pos h
  have hsum := List.sum_le_card_nsmul _ _ hhigh
  rw [nsmul_eq_mul, mul_comm] at hsum
  rw [average, div_le_iff₀ hpos]
  exact_mod_cast hsum

/-- A group goes between where it would go if all were as quick as the quickest member, and where it
would go if all were as slow as the slowest. -/
theorem finalOrder_mem_Icc {slowest quickest : Score} (h : g.members roster ≠ [])
    (hslow : ∀ i ∈ g.initiatives roster, slowest.val ≤ i)
    (hquick : ∀ i ∈ g.initiatives roster, i ≤ quickest.val) :
    g.order - (quickest + g.sizeBonus roster) ≤ g.finalOrder roster ∧
      g.finalOrder roster ≤ g.order - (slowest + g.sizeBonus roster) := by
  obtain ⟨r, hr, hfinal⟩ := exists_finalOrder_eq h
  have hlow := (IsHalfEven.intCast slowest.val).le_of_le hr (le_average h hslow)
  have hhigh := hr.le_of_le (IsHalfEven.intCast quickest.val) (average_le h hquick)
  have hbonus : g.sizeBonus roster ≤ g.sizeBonus roster := Int.le_refl _
  rw [hfinal]
  constructor
  · refine Score.sub_le_sub_left (Score.add_le_add ?_ hbonus) _
    simpa using Score.clamp_mono hhigh
  · refine Score.sub_le_sub_left (Score.add_le_add ?_ hbonus) _
    simpa using Score.clamp_mono hlow

/-- **Quick and big groups go early.** A group with a member on the roster goes no later when
someone's initiative is raised, nor when somebody comes to it who is at least as quick as its members
are on average. Its place lies between those that the initiatives of its quickest and of its slowest
member alone would give it. -/
theorem quick_and_big_go_early (hsome : g.members roster ≠ [])
    (hscores : ∀ i ∈ g.initiatives roster, ∃ s : Score, s.val = i) :
    (∀ (p : Nat) (c raised : Character), roster[p]? = some c →
        c.initiative ≤ raised.initiative →
      g.finalOrder (roster.set p raised) ≤ g.finalOrder roster) ∧
    (∀ (p : Nat) (c : Character) (players : List Nat), roster[p]? = some c →
        players.Perm (p :: g.players) → g.average roster ≤ c.initiative →
      finalOrder roster { g with players } ≤ g.finalOrder roster) ∧
    ∃ slowest quickest : Score,
      (g.initiatives roster).min? = some slowest.val ∧
      (g.initiatives roster).max? = some quickest.val ∧
      g.order - (quickest + g.sizeBonus roster) ≤ g.finalOrder roster ∧
      g.finalOrder roster ≤ g.order - (slowest + g.sizeBonus roster) := by
  refine ⟨?raised, ?added, ?bounds⟩
  case raised =>
    intro p c raised hc hraised
    refine finalOrder_le_of_average_le rfl hsome (average_le_average_set hc hraised) ?_
    exact (forall₂_initiatives_set hc hraised).length_eq.le
  case added =>
    intro p c players hc hplayers hquick
    refine finalOrder_le_of_average_le rfl hsome (average_le_average_add hsome hc hplayers hquick) ?_
    rw [(initiatives_add hc hplayers).length_eq]
    exact Nat.le_succ _
  case bounds =>
    have hne : g.initiatives roster ≠ [] := List.ne_nil_of_length_pos (length_initiatives_pos hsome)
    obtain ⟨least, hleast⟩ := Option.isSome_iff_exists.mp (List.isSome_min?_of_ne_nil hne)
    obtain ⟨greatest, hgreatest⟩ := Option.isSome_iff_exists.mp (List.isSome_max?_of_ne_nil hne)
    obtain ⟨hmin, hslow⟩ := List.min?_eq_some_iff.mp hleast
    obtain ⟨hmax, hquick⟩ := List.max?_eq_some_iff.mp hgreatest
    obtain ⟨slowest, rfl⟩ := hscores least hmin
    obtain ⟨quickest, rfl⟩ := hscores greatest hmax
    exact ⟨slowest, quickest, hleast, hgreatest, finalOrder_mem_Icc hsome hslow hquick⟩

/-- Bo and Ada, of average initiative 3.5, go by 10 - 4. They go no later once Bo is quicker, nor
together with Cy. There is nobody at the place 4. -/
theorem quick_and_big_go_early_trio :
    let runner (name : String) (dexterity perception : Score) : Character :=
      { name, stats := { dexterity, perception } }
    let cy := runner "Cy" (.clamp 4) (.clamp 4)
    let quickBo := runner "Bo" (.clamp 6) (.clamp 1)
    let roster := [runner "Ada" (.clamp 3) (.clamp 2), runner "Bo" (.clamp 1) (.clamp 1), cy]
    let pair : Group := ⟨[1, 0, 4], "data:inn", .clamp 10⟩
    pair.members roster ≠ [] ∧ (∀ i ∈ pair.initiatives roster, ∃ s : Score, s.val = i) ∧
      pair.average roster ≤ cy.initiative ∧ pair.finalOrder roster = .clamp 6 ∧
      pair.finalOrder (roster.set 1 quickBo) ≤ pair.finalOrder roster ∧
      finalOrder roster { pair with players := [1, 2, 0, 4] } ≤ pair.finalOrder roster ∧
      ∃ slowest quickest : Score, slowest.val = 2 ∧ quickest.val = 5 ∧
        .clamp 10 - (quickest + 0) ≤ pair.finalOrder roster ∧
        pair.finalOrder roster ≤ .clamp 10 - (slowest + 0) := by
  intro runner cy quickBo roster pair
  have hinitiatives : pair.initiatives roster = [2, 5] := rfl
  have hbonus : pair.sizeBonus roster = 0 := by decide
  have hsome : pair.members roster ≠ [] := List.cons_ne_nil _ _
  have hscores : ∀ i ∈ pair.initiatives roster, ∃ s : Score, s.val = i := by
    rw [hinitiatives, List.forall_mem_cons]
    exact ⟨⟨.clamp 2, rfl⟩, List.forall_mem_singleton.mpr ⟨.clamp 5, rfl⟩⟩
  have hquick : pair.average roster ≤ cy.initiative := by
    have hcy : cy.initiative = 8 := rfl
    rw [average, hinitiatives, hcy]
    norm_num
  obtain ⟨hraised, hadded, slowest, quickest, hmin, hmax, hbounds⟩ :=
    quick_and_big_go_early hsome hscores
  rw [hinitiatives] at hmin hmax
  rw [hbonus] at hbounds
  refine ⟨hsome, hscores, hquick, by decide, ?_, ?_, slowest, quickest, ?_, ?_, hbounds⟩
  · exact hraised 1 _ quickBo rfl (by decide)
  · exact hadded 2 cy [1, 2, 0, 4] rfl (by decide) hquick
  · exact (Option.some.inj hmin).symm
  · exact (Option.some.inj hmax).symm

end Group

end Play

end Adventure
