import Mathlib.Data.List.Basic
import Adventure.Proofs.Effect.Mutation

/-!
What quotation marks do in an effect line.

The search for stat changes does not know them as the ends of a name: it reads what is in quotes like
all else, and only cannot find anything across a quotation mark (`statFinds_append_quote`). The search
for traits takes a quotation mark for the start of a name if a plus sign stands before it, and any
other as plain text (`traitFinds_stray`, `traitFinds_named`). So a name is open where the text up to
there says so (`Quoting`), and not where the number of quotation marks is odd.

`granting_only_name_changes` is the result for a line that grants a trait: another name in the quotes
changes what stat changes are read in it, and of the rest at most that one name.
-/

namespace Adventure.Effect

/-! ### Stat changes -/

/-- A quotation mark ends what a stat change may be found in. -/
theorem statFind?_append_quote (cs rest : List Char) :
    statFind? (cs ++ '"' :: rest) =
      (statFind? cs).map fun found => (found.1, found.2 ++ '"' :: rest) := by
  have hletter : isAsciiLetter '"' = false := rfl
  have hblank : Text.isAsciiBlank '"' = false := rfl
  have hdigit : '"'.isDigit = false := rfl
  unfold statFind?
  simp only [Text.dropWhile_append_cons hletter, Text.takeWhile_append_cons hletter,
    Text.dropWhile_append_cons hblank, Text.takeWhile_append_cons hblank]
  cases (cs.dropWhile isAsciiLetter).dropWhile Text.isAsciiBlank with
  | nil => rfl
  | cons c behindSign =>
    simp only [List.cons_append, Text.dropWhile_append_cons hblank,
      Text.takeWhile_append_cons hblank]
    cases Sign.ofChar? c with
    | none => rfl
    | some sign =>
      generalize behindSign.dropWhile Text.isAsciiBlank = number
      have hdash : ∀ more : List Char, (number ++ '"' :: more).takeWhile (· = '-') =
          number.takeWhile (· = '-') := fun more => Text.takeWhile_append_cons (by rfl) number more
      have hlength : ((number.takeWhile (· = '-')).take 1).length ≤ number.length :=
        ((List.take_sublist ..).trans (List.takeWhile_sublist _)).length_le
      simp only [hdash, List.drop_append_of_le_length hlength, Text.takeWhile_append_cons hdigit,
        Text.dropWhile_append_cons hdigit]
      split <;> rfl

/-- **Stat changes are found on each side of a quotation mark** as if the other side were not
there. -/
theorem statFinds_append_quote (cs rest : List Char) :
    statFinds (cs ++ '"' :: rest) = statFinds cs ++ statFinds rest := by
  fun_induction statFinds cs with
  | case1 => exact isSearch_statFinds.of_none (statFind?_of_no_word rfl rest)
  | case2 c cs find behind h ih =>
    have hfind : statFind? (c :: cs ++ '"' :: rest) = some (find, behind ++ '"' :: rest) := by
      rw [statFind?_append_quote, h]
      rfl
    rw [isSearch_statFinds.of_some hfind, ih, List.cons_append]
  | case3 c cs h ih =>
    have hfind : statFind? (c :: (cs ++ '"' :: rest)) = none := by
      rw [← List.cons_append, statFind?_append_quote, h]
      rfl
    rw [List.cons_append, isSearch_statFinds.of_none hfind, ih]

/-! ### Where a trait starts -/

/-- Whether a text ends in a plus sign, perhaps with blanks behind it. -/
def EndsInPlus (cs : List Char) : Prop :=
  ∃ front blanks, cs = front ++ '+' :: blanks ∧ blanks.all Text.isAsciiBlank = true

theorem EndsInPlus.of_opensName {part cs : List Char} (h : opensName part = true)
    (hpart : part <:+ cs) : EndsInPlus cs := by
  unfold opensName at h
  split at h
  · rename_i blanks hsign
    have hsuffix : '+' :: blanks <:+ cs := by
      rw [← hsign]
      exact (List.dropWhile_suffix _).trans ((List.dropWhile_suffix _).trans hpart)
    obtain ⟨front, rfl⟩ := hsuffix
    exact ⟨front, blanks, rfl, h⟩
  · cases h

/-- A trait is found up to a quotation mark and the next one behind it, where what stands before the
first opens a name. -/
theorem traitFind?_append_quote {cs : List Char} (hcs : '"' ∉ cs) (rest : List Char) :
    traitFind? (cs ++ '"' :: rest) =
      if opensName cs then
        (closedName? rest).map fun closed => (⟨cs.takeWhile isAsciiLetter, closed.1⟩, closed.2)
      else none := by
  rw [traitFind?_append_cons rfl rfl (by decide) hcs]
  simp only [true_and]

/-! ### Traits up to a quotation mark -/

/-- Without a quotation mark there is no trait. -/
theorem traitFind?_of_no_quote {cs : List Char} (h : '"' ∉ cs) : traitFind? cs = none := by
  unfold traitFind?
  split
  · rename_i behindSign hsign
    split
    · rename_i quoted hquote
      have hsuffix : '"' :: quoted <:+ cs := by
        rw [← hquote]
        refine (List.dropWhile_suffix _).trans ((List.suffix_cons '+' behindSign).trans ?_)
        rw [← hsign]
        exact (List.dropWhile_suffix _).trans (List.dropWhile_suffix _)
      exact absurd (hsuffix.subset List.mem_cons_self) h
    · rfl
  · rfl

theorem traitFinds_of_no_quote {cs : List Char} (h : '"' ∉ cs) : traitFinds cs = [] := by
  rw [isSearch_traitFinds.eq_end fun part hpart =>
    traitFind?_of_no_quote fun hmem => h (hpart.subset hmem)]
  exact traitFinds.eq_1

/-- A quotation mark with no plus sign before it is passed over. -/
theorem traitFinds_stray {cs : List Char} (hcs : '"' ∉ cs) (hplus : ¬ EndsInPlus cs)
    (rest : List Char) : traitFinds (cs ++ '"' :: rest) = traitFinds rest := by
  rw [isSearch_traitFinds.append, isSearch_traitFinds.of_none
    (traitFind?_of_char rfl rfl (by decide) rest)]
  intro part hpart _
  rw [traitFind?_append_quote fun hmem => hcs (hpart.subset hmem),
    if_neg fun hopens => hplus (.of_opensName hopens hpart)]

/-- A quotation mark with a plus sign before it starts a name, and what belongs to the trait besides
the name does not depend on the name. -/
theorem traitFinds_named {cs : List Char} (hcs : '"' ∉ cs) (hplus : EndsInPlus cs) :
    ∃ scope, ∀ name rest, '"' ∉ name →
      traitFinds (cs ++ '"' :: (name ++ '"' :: rest)) = ⟨scope, name⟩ :: traitFinds rest := by
  induction cs with
  | nil =>
    obtain ⟨front, blanks, hnil, -⟩ := hplus
    simp at hnil
  | cons c cs ih =>
    cases hopens : opensName (c :: cs) with
    | true =>
      refine ⟨(c :: cs).takeWhile isAsciiLetter, fun name rest hname => ?_⟩
      apply isSearch_traitFinds.of_some
      rw [traitFind?_append_quote hcs, if_pos hopens, closedName?_append hname]
      rfl
    | false =>
      have hrest : EndsInPlus cs := by
        obtain ⟨front, blanks, hfront, hblanks⟩ := hplus
        cases front with
        | nil =>
          obtain ⟨rfl, rfl⟩ := List.cons.inj hfront
          exact absurd (hopens.symm.trans hblanks) (by decide)
        | cons c' front => exact ⟨front, blanks, (List.cons.inj hfront).2, hblanks⟩
      obtain ⟨scope, hscope⟩ := ih (fun hmem => hcs (List.mem_cons_of_mem c hmem)) hrest
      refine ⟨scope, fun name rest hname => ?_⟩
      have hnone : traitFind? (c :: (cs ++ '"' :: (name ++ '"' :: rest))) = none := by
        rw [← List.cons_append, traitFind?_append_quote hcs, hopens]
        rfl
      rw [List.cons_append, isSearch_traitFinds.of_none hnone, hscope name rest hname]

/-- A single quotation mark starts no name, since none ends it. -/
theorem traitFinds_unclosed {cs rest : List Char} (hcs : '"' ∉ cs) (hrest : '"' ∉ rest) :
    traitFinds (cs ++ '"' :: rest) = [] := by
  rw [isSearch_traitFinds.append, isSearch_traitFinds.of_none
    (traitFind?_of_char rfl rfl (by decide) rest), traitFinds_of_no_quote hrest]
  intro part hpart _
  rw [traitFind?_append_quote fun hmem => hcs (hpart.subset hmem),
    closedName?_of_no_quote hrest]
  exact ite_self none

/-! ### Where a text stands open -/

/-- The last part of a text: without quotation marks, or with one that starts a name. -/
inductive LastPart : Bool → List Char → Prop
  | closed {cs : List Char} (hcs : '"' ∉ cs) : LastPart false cs
  | opened {cs name : List Char} (hcs : '"' ∉ cs) (hplus : EndsInPlus cs) (hname : '"' ∉ name) :
    LastPart true (cs ++ '"' :: name)

/-- Whether a text, read from its front, ends inside a name that it opens itself. -/
inductive Quoting : Bool → List Char → Prop
  | last {inside : Bool} {cs : List Char} (hlast : LastPart inside cs) : Quoting inside cs
  | stray {inside : Bool} {cs rest : List Char} (hcs : '"' ∉ cs) (hplus : ¬ EndsInPlus cs)
    (hrest : Quoting inside rest) : Quoting inside (cs ++ '"' :: rest)
  | named {inside : Bool} {cs name rest : List Char} (hcs : '"' ∉ cs) (hplus : EndsInPlus cs)
    (hname : '"' ∉ name) (hrest : Quoting inside rest) :
    Quoting inside (cs ++ '"' :: (name ++ '"' :: rest))

namespace Quoting

/-- Every text ends inside a name or outside. -/
theorem total (cs : List Char) : ∃ inside, Quoting inside cs := by
  by_cases hquote : '"' ∈ cs
  · obtain ⟨front, rest, rfl, hfront⟩ := List.eq_append_cons_of_mem hquote
    by_cases hplus : EndsInPlus front
    · by_cases hclose : '"' ∈ rest
      · obtain ⟨name, behind, rfl, hname⟩ := List.eq_append_cons_of_mem hclose
        obtain ⟨inside, h⟩ := total behind
        exact ⟨inside, named hfront hplus hname h⟩
      · exact ⟨true, last (.opened hfront hplus hclose)⟩
    · obtain ⟨inside, h⟩ := total rest
      exact ⟨inside, stray hfront hplus h⟩
  · exact ⟨false, last (.closed hquote)⟩
termination_by cs.length
decreasing_by
  · subst_vars
    simp only [List.length_append, List.length_cons]
    omega
  · subst_vars
    simp only [List.length_append, List.length_cons]
    omega

variable {inside : Bool} {cs : List Char}

/-- The traits in front of the last part are found whatever stands behind it. -/
theorem exists_last (h : Quoting inside cs) :
    ∃ before part, LastPart inside part ∧
      ∀ rest, traitFinds (cs ++ rest) = before ++ traitFinds (part ++ rest) := by
  induction h with
  | last hlast => exact ⟨[], _, hlast, fun _ => rfl⟩
  | @stray cs more hcs hplus _ ih =>
    obtain ⟨before, part, hlast, hfinds⟩ := ih
    refine ⟨before, part, hlast, fun rest => ?_⟩
    rw [List.append_assoc, List.cons_append, traitFinds_stray hcs hplus, hfinds]
  | @named cs name more hcs hplus hname _ ih =>
    obtain ⟨before, part, hlast, hfinds⟩ := ih
    obtain ⟨scope, hscope⟩ := traitFinds_named hcs hplus
    refine ⟨⟨scope, name⟩ :: before, part, hlast, fun rest => ?_⟩
    rw [List.append_assoc, List.cons_append, List.append_assoc, List.cons_append,
      hscope _ _ hname, hfinds, List.cons_append]

/-- Behind a text that ends outside of names, a plus sign and a name in quotes are a trait. -/
theorem finds_outside (h : Quoting false cs) :
    ∃ before scope, ∀ name rest, '"' ∉ name →
      traitFinds ((cs ++ ['+']) ++ '"' :: (name ++ '"' :: rest)) =
        before ++ ⟨scope, name⟩ :: traitFinds rest := by
  obtain ⟨before, part, hlast, hfinds⟩ := h.exists_last
  cases hlast with
  | closed hpart =>
    have hsign : '"' ∉ part ++ ['+'] := by simp [hpart]
    obtain ⟨scope, hscope⟩ := traitFinds_named hsign ⟨part, [], rfl, rfl⟩
    refine ⟨before, scope, fun name rest hname => ?_⟩
    rw [List.append_assoc, hfinds, ← List.append_assoc, hscope name rest hname]

/-- Behind a text that ends inside of a name, a quotation mark ends that name. -/
theorem finds_inside (h : Quoting true cs) :
    ∃ before, ∀ rest, traitFinds ((cs ++ ['+']) ++ '"' :: rest) = before ++ traitFinds rest := by
  obtain ⟨before, part, hlast, hfinds⟩ := h.exists_last
  cases hlast with
  | @opened front name hfront hplus hname =>
    have hsign : '"' ∉ name ++ ['+'] := by simp [hname]
    obtain ⟨scope, hscope⟩ := traitFinds_named hfront hplus
    refine ⟨before ++ [⟨scope, name ++ ['+']⟩], fun rest => ?_⟩
    have hassoc : (front ++ '"' :: name) ++ (['+'] ++ '"' :: rest) =
        front ++ '"' :: ((name ++ ['+']) ++ '"' :: rest) := by simp
    rw [List.append_assoc, hfinds, hassoc, hscope _ _ hsign, List.append_assoc, List.singleton_append]

end Quoting

/-! ### Lines that grant a trait -/

/-- The line that has a plus sign and a name in quotes between two texts. -/
def grantLine (u name v : String) : String := u ++ "+\"" ++ name ++ "\"" ++ v

/-- The traits that an effect brings an owner. -/
def traitsFor (e : Effect) : TraitOwner → List String
  | .character => e.characterTraits
  | .encounter => e.encounterTraits
  | .session => e.sessionTraits

/-- Whether two effects bring each owner the same traits, but for one name. -/
def OneNameApart (name name' : String) (e e' : Effect) : Prop :=
  (∀ owner, e.traitsFor owner = e'.traitsFor owner) ∨
    ∃ owner front back, e.traitsFor owner = front ++ name :: back ∧
      e'.traitsFor owner = front ++ name' :: back ∧
      ∀ other, other ≠ owner → e.traitsFor other = e'.traitsFor other

theorem OneNameApart.length_eq {name name' : String} {e e' : Effect}
    (h : OneNameApart name name' e e') (owner : TraitOwner) :
    (e.traitsFor owner).length = (e'.traitsFor owner).length := by
  rcases h with hsame | ⟨owner', front, back, h, h', hother⟩
  · rw [hsame]
  · by_cases howner : owner = owner'
    · simp [howner, h, h']
    · rw [hother owner howner]

theorem toList_grantLine (u name v : String) :
    (grantLine u name v).toList = (u.toList ++ ['+']) ++ '"' :: (name.toList ++ '"' :: v.toList) := by
  simp [grantLine]

theorem statFinds_grantLine (u name v : String) :
    statFinds (grantLine u name v).toList =
      statFinds (u.toList ++ ['+']) ++ (statFinds name.toList ++ statFinds v.toList) := by
  rw [toList_grantLine, statFinds_append_quote, statFinds_append_quote]

/-- What the search for traits finds of a name in quotes: the name and nothing else of it, or, where
the name is not in quotes after all, nothing. -/
theorem traitFinds_grantLine {u v n n' : String} (hn : '"' ∉ n.toList) (hn' : '"' ∉ n'.toList)
    (h : Quoting false u.toList ∨ (¬ EndsInPlus n.toList ∧ ¬ EndsInPlus n'.toList) ∨
      '"' ∉ v.toList) :
    (∃ before scope after, ∀ name ∈ [n, n'],
      traitFinds (grantLine u name v).toList = before ++ ⟨scope, name.toList⟩ :: after) ∨
    traitFinds (grantLine u n v).toList = traitFinds (grantLine u n' v).toList := by
  have houtside : Quoting false u.toList → ∃ before scope after, ∀ name ∈ [n, n'],
      traitFinds (grantLine u name v).toList = before ++ ⟨scope, name.toList⟩ :: after := by
    intro hu
    obtain ⟨before, scope, hfinds⟩ := hu.finds_outside
    refine ⟨before, scope, traitFinds v.toList, fun name hname => ?_⟩
    have hquote : '"' ∉ name.toList := by
      rcases List.mem_pair.mp hname with rfl | rfl
      · exact hn
      · exact hn'
    rw [toList_grantLine, hfinds _ _ hquote]
  rcases h with hu | h
  · exact Or.inl (houtside hu)
  · obtain ⟨inside, hu⟩ := Quoting.total u.toList
    cases inside with
    | false => exact Or.inl (houtside hu)
    | true =>
      right
      obtain ⟨before, hfinds⟩ := hu.finds_inside
      rw [toList_grantLine, toList_grantLine, hfinds, hfinds]
      rcases h with ⟨hplus, hplus'⟩ | hv
      · rw [traitFinds_stray hn hplus, traitFinds_stray hn' hplus']
      · rw [traitFinds_unclosed hn hv, traitFinds_unclosed hn' hv]

theorem traitsFor_ofLine (line : String) (owner : TraitOwner) :
    (ofLine line).1.traitsFor owner = traitsOf owner (traitFinds line.toList) := by
  cases owner <;> rfl

theorem issuesOf_append {α : Type} (xs ys : List (Except Issue α)) :
    issuesOf (xs ++ ys) = issuesOf xs ++ issuesOf ys := List.filterMap_append

/-- Two lines in which the same traits are found, but for one name. -/
theorem oneNameApart_of_finds {line line' n n' : String} {before after : List TraitFind}
    {scope : List Char} (h : traitFinds line.toList = before ++ ⟨scope, n.toList⟩ :: after)
    (h' : traitFinds line'.toList = before ++ ⟨scope, n'.toList⟩ :: after) :
    OneNameApart n n' (ofLine line).1 (ofLine line').1 := by
  unfold OneNameApart
  simp only [traitsFor_ofLine, h, h', traitsOf_append]
  -- Whose trait it is does not depend on its name.
  have howner : ∀ name, (⟨scope, name⟩ : TraitFind).owner = (⟨scope, []⟩ : TraitFind).owner :=
    fun _ => rfl
  cases hscope : (⟨scope, []⟩ : TraitFind).owner with
  | error issue =>
    left
    intro owner
    simp [traitsOf, howner, hscope]
  | ok owner =>
    right
    refine ⟨owner, traitsOf owner before, traitsOf owner after, ?_, ?_, ?_⟩
    · simp [traitsOf, howner, hscope]
    · simp [traitsOf, howner, hscope]
    · intro other hother
      simp [traitsOf, howner, hscope, Ne.symm hother]

/-- Two lines in which the same traits are found, but for one name, have the same issues with
traits. -/
theorem traitIssues_of_finds {line line' n n' : List Char} {before after : List TraitFind}
    {scope : List Char} (h : traitFinds line = before ++ ⟨scope, n⟩ :: after)
    (h' : traitFinds line' = before ++ ⟨scope, n'⟩ :: after) :
    issuesOf ((traitFinds line).map TraitFind.owner) =
      issuesOf ((traitFinds line').map TraitFind.owner) := by
  rw [h, h', List.map_append, List.map_append]
  rfl

/-- A line without quotation marks has no issues but those of its stat changes. -/
theorem issues_of_no_quote {line : String} (h : '"' ∉ line.toList) :
    (ofLine line).2 = issuesOf ((statFinds line.toList).map StatFind.change) := by
  rw [ofLine, traitFinds_of_no_quote h]
  exact List.append_nil _

theorem statChanges_grantLine (u name v : String) :
    (ofLine (grantLine u name v)).1.statChanges =
      ((statFinds (u.toList ++ ['+'])).map StatFind.change).filterMap Except.toOption ++
        (ofLine name).1.statChanges ++
        ((statFinds v.toList).map StatFind.change).filterMap Except.toOption := by
  simp only [ofLine, statFinds_grantLine, List.map_append, List.filterMap_append,
    List.append_assoc]

theorem issues_grantLine (u v : String) {name : String} (hname : '"' ∉ name.toList) :
    (ofLine (grantLine u name v)).2 =
      issuesOf ((statFinds (u.toList ++ ['+'])).map StatFind.change) ++ (ofLine name).2 ++
        (issuesOf ((statFinds v.toList).map StatFind.change) ++
          issuesOf ((traitFinds (grantLine u name v).toList).map TraitFind.owner)) := by
  rw [issues_of_no_quote hname, ofLine]
  simp only [statFinds_grantLine, List.map_append, issuesOf_append, List.append_assoc]

/-- **Another name in quotes changes what stat changes are read in the name, and besides at most that
one name.** The stat changes of the line are those of the name between others that stay the same,
wherever the quotation marks around it stand. So are its issues if the name really stands in quotes,
which it does behind a text that does not end inside of a name; or else if the name, read as plain
text, starts no name itself. -/
theorem granting_only_name_changes (u v n n' : String) (hn : '"' ∉ n.toList)
    (hn' : '"' ∉ n'.toList) :
    (∃ before after, ∀ name ∈ [n, n'], (ofLine (grantLine u name v)).1.statChanges =
      before ++ (ofLine name).1.statChanges ++ after) ∧
    (Quoting false u.toList ∨ (¬ EndsInPlus n.toList ∧ ¬ EndsInPlus n'.toList) ∨
        '"' ∉ v.toList →
      (∃ before after, ∀ name ∈ [n, n'], (ofLine (grantLine u name v)).2 =
        before ++ (ofLine name).2 ++ after) ∧
      OneNameApart n n' (ofLine (grantLine u n v)).1 (ofLine (grantLine u n' v)).1) := by
  refine ⟨⟨_, _, fun name _ => statChanges_grantLine u name v⟩, fun h => ?_⟩
  have hissues : ∀ {after}, issuesOf ((traitFinds (grantLine u n v).toList).map TraitFind.owner) =
      after → issuesOf ((traitFinds (grantLine u n' v).toList).map TraitFind.owner) = after →
      ∃ before after, ∀ name ∈ [n, n'], (ofLine (grantLine u name v)).2 =
        before ++ (ofLine name).2 ++ after := by
    intro after hafter hafter'
    refine ⟨issuesOf ((statFinds (u.toList ++ ['+'])).map StatFind.change),
      issuesOf ((statFinds v.toList).map StatFind.change) ++ after, fun name hname => ?_⟩
    rcases List.mem_pair.mp hname with rfl | rfl
    · rw [issues_grantLine u v hn, hafter]
    · rw [issues_grantLine u v hn', hafter']
  rcases traitFinds_grantLine hn hn' h with ⟨before, scope, after, hfinds⟩ | hsame
  · have hfind := hfinds n List.mem_cons_self
    have hfind' := hfinds n' (List.mem_cons_of_mem n List.mem_cons_self)
    exact ⟨hissues rfl (traitIssues_of_finds hfind' hfind), oneNameApart_of_finds hfind hfind'⟩
  · refine ⟨hissues rfl (by rw [hsame]), Or.inl fun owner => ?_⟩
    rw [traitsFor_ofLine, traitsFor_ofLine, hsame]

/-- In place of a name that reads like a stat change, one that does not: that stat change goes, and
the alarm gets the other name. -/
theorem granting_only_name_changes_alarm :
    (∃ before after, ∀ name ∈ ["str+5", "Brave"],
      (ofLine (grantLine "dex-1 +\"Calm\" encounter" name " wil=2")).1.statChanges =
        before ++ (ofLine name).1.statChanges ++ after) ∧
    (∃ before after, ∀ name ∈ ["str+5", "Brave"],
      (ofLine (grantLine "dex-1 +\"Calm\" encounter" name " wil=2")).2 =
        before ++ (ofLine name).2 ++ after) ∧
    OneNameApart "str+5" "Brave" (ofLine (grantLine "dex-1 +\"Calm\" encounter" "str+5" " wil=2")).1
      (ofLine (grantLine "dex-1 +\"Calm\" encounter" "Brave" " wil=2")).1 := by
  have hquoting : Quoting false "dex-1 +\"Calm\" encounter".toList :=
    @Quoting.named false "dex-1 +".toList "Calm".toList " encounter".toList (by decide)
      ⟨"dex-1 ".toList, [], rfl, rfl⟩ (by decide) (.last (.closed (by decide)))
  obtain ⟨hchanges, hrest⟩ := granting_only_name_changes "dex-1 +\"Calm\" encounter" " wil=2"
    "str+5" "Brave" (by decide) (by decide)
  obtain ⟨hissues, htraits⟩ := hrest (Or.inl hquoting)
  exact ⟨hchanges, hissues, htraits⟩

/-- Quotation marks in pairs do not keep a name from being read: a stat change in it is made, and
behind a pair of which the second starts a name, a name that ends in a plus sign starts another
one. -/
theorem name_between_pairs_is_read :
    (∀ text ∈ ["", "\"+\"", "b\"c\""], text.toList.count '"' % 2 = 0) ∧
    (∀ name ∈ ["str+5", "Brave", "session+", "session"], '"' ∉ name.toList) ∧
    (ofLine (grantLine "" "str+5" "")).1.statChanges ≠
      (ofLine (grantLine "" "Brave" "")).1.statChanges ∧
    ¬ OneNameApart "session+" "session" (ofLine (grantLine "\"+\"" "session+" "b\"c\"")).1
      (ofLine (grantLine "\"+\"" "session" "b\"c\"")).1 := by
  have hone : (ofLine (grantLine "\"+\"" "session+" "b\"c\"")).1.traitsFor .session = ["b"] := by
    decide +kernel
  have hnone : (ofLine (grantLine "\"+\"" "session" "b\"c\"")).1.traitsFor .session = [] := by
    decide +kernel
  refine ⟨by decide, by decide, by decide +kernel, fun h => ?_⟩
  have hlength := h.length_eq .session
  rw [hone, hnone] at hlength
  cases hlength

end Adventure.Effect
