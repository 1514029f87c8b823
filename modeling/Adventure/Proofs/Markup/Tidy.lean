import Adventure.Proofs.Markup.LostGuards
import Adventure.Proofs.Markup.Marks
import Adventure.Proofs.Markup.Written
import Adventure.Proofs.Text.Cuts
import Adventure.Proofs.Text.Decimal

/-!
Whatever is read from an asset is tidy: texts, keys and values are trimmed, orders are natural
numbers, guards are not empty, references have a colon, branches have options and texts keep within
the limits (`Storyboard.Tidy`). Each part is tidy because of what the lines are that it is read
from, trimmed and without line feeds (`Line.isLine_of_mem_ofAsset`), and because of how they are cut
(`Report.tidy_of_mem`).
-/

namespace Adventure

/-! ### Tidy storyboards -/

/-- Whether a string has no blanks at its ends. -/
def IsTrimmed (s : String) : Prop := Text.trim s.toList = s.toList

instance (s : String) : Decidable (IsTrimmed s) := inferInstanceAs (Decidable (_ = _))

/-- What is trimmed stays as it is when it is trimmed again. -/
theorem IsTrimmed.trimmed_eq {s : String} (h : IsTrimmed s) : Text.trimmed s = s := by
  rw [Text.trimmed, h, String.ofList_toList]

theorem isTrimmed_trim (cs : List Char) : IsTrimmed (String.ofList (Text.trim cs)) := by
  rw [IsTrimmed, String.toList_ofList, Text.trim_trim]

/-- Whether a reference can be read: it is trimmed and has a colon. -/
def IsTarget (target : String) : Prop := IsTrimmed target ∧ ':' ∈ target.toList

instance (target : String) : Decidable (IsTarget target) := inferInstanceAs (Decidable (_ ∧ _))

structure DecisionOption.Tidy (o : DecisionOption) : Prop where
  order : 0 ≤ o.order.val ∧ o.order.val ≤ 2147483647
  text : IsTrimmed o.text
  target : IsTarget o.targetUri
  guard : ∀ g ∈ o.guard, IsTrimmed g ∧ g ≠ ""

structure BranchOption.Tidy (o : BranchOption) : Prop where
  order : 0 ≤ o.order.val ∧ o.order.val ≤ 2147483647
  target : IsTarget o.targetUri
  guard : ∀ g ∈ o.guard, IsTrimmed g ∧ g ≠ ""

/-- Whether the names of the traits of an effect hold neither quotes nor line feeds. -/
def Effect.Tidy (e : Effect) : Prop := ∀ name ∈ e.traits, '"' ∉ name.toList ∧ '\n' ∉ name.toList

/-- Whether a panel keeps within the limits, where a text has one line at least, and its options are
tidy. -/
def PanelBody.Tidy (s : Markup.Settings) : PanelBody → Prop
  | narration text effect => IsText (max 1 s.maxNarrationLines) text ∧ effect.Tidy
  | decision prompt options => IsText (max 1 s.maxPromptLines) prompt ∧ ∀ o ∈ options, o.Tidy
  | branch options => options ≠ [] ∧ ∀ o ∈ options, o.Tidy

structure Panel.Tidy (s : Markup.Settings) (p : Panel) : Prop where
  properties : ∀ e ∈ p.properties.entries, IsProperty e
  body : p.body.Tidy s

structure Storyboard.Tidy (s : Markup.Settings) (b : Storyboard) : Prop where
  properties : ∀ e ∈ b.properties.entries, IsProperty e
  panels : ∀ p ∈ b.panels, p.Tidy s

/-! ### Effects -/

namespace Effect

/-- The name of a trait stands in the text that was searched, and is cut off at the first quote. -/
theorem traitFind?_name {cs behind : List Char} {f : TraitFind}
    (h : traitFind? cs = some (f, behind)) : '"' ∉ f.name ∧ f.name ⊆ cs ∧ behind ⊆ cs := by
  unfold traitFind? at h
  split at h
  · rename_i behindSign hsign
    split at h
    · rename_i quoted hquote
      split at h
      · rename_i c rest hend
        cases h
        have hquoted : quoted <:+ cs := by
          have hstart := (List.dropWhile_suffix Text.isAsciiBlank).trans
            (List.dropWhile_suffix isAsciiLetter (l := cs))
          rw [hsign] at hstart
          have hinner := List.dropWhile_suffix Text.isAsciiBlank (l := behindSign)
          rw [hquote] at hinner
          exact (List.suffix_cons _ _).trans (hinner.trans ((List.suffix_cons _ _).trans hstart))
        refine ⟨?_, ?_, ?_⟩
        · intro hmem
          simpa using List.all_eq_true.mp List.all_takeWhile _ hmem
        · exact List.Subset.trans (List.takeWhile_sublist _).subset hquoted.subset
        · have hrest := List.dropWhile_suffix (· ≠ '"') (l := quoted)
          rw [hend] at hrest
          exact ((List.suffix_cons _ _).trans (hrest.trans hquoted)).subset
      · cases h
    · cases h
  · cases h

theorem name_of_mem_traitFinds {cs : List Char} {f : TraitFind} (h : f ∈ traitFinds cs) :
    '"' ∉ f.name ∧ f.name ⊆ cs := by
  fun_induction traitFinds cs with
  | case1 => cases h
  | case2 c rest find behind hfind ih =>
    obtain ⟨hquote, hname, hbehind⟩ := traitFind?_name hfind
    rcases List.mem_cons.mp h with rfl | h
    · exact ⟨hquote, hname⟩
    · exact ⟨(ih h).1, List.Subset.trans (ih h).2 hbehind⟩
  | case3 c rest hnone ih => exact ⟨(ih h).1, List.subset_cons_of_subset c (ih h).2⟩

/-- The effect of one line is tidy. -/
theorem tidy_ofLine {line : String} (h : '\n' ∉ line.toList) : (ofLine line).1.Tidy := by
  have hfind : ∀ owner, ∀ name ∈ traitsOf owner (traitFinds line.toList),
      '"' ∉ name.toList ∧ '\n' ∉ name.toList := by
    intro owner name hname
    obtain ⟨f, hf, howner⟩ := List.mem_filterMap.mp hname
    obtain ⟨hquote, hsubset⟩ := name_of_mem_traitFinds hf
    split at howner
    · split at howner
      · cases howner
        rw [String.toList_ofList]
        exact ⟨hquote, fun hmem => h (hsubset hmem)⟩
      · cases howner
    · cases howner
  intro name hname
  rcases List.mem_append.mp hname with hname | hname
  · rcases List.mem_append.mp hname with hname | hname
    · exact hfind _ name hname
    · exact hfind _ name hname
  · exact hfind _ name hname

end Effect

namespace Markup

variable {s : Settings} {asset : String} {lines : List Line}

/-! ### Lines -/

/-- The lines of an asset that count are trimmed and hold no line feeds. -/
theorem Line.isLine_of_mem_ofAsset {text : String} {l : Line} (h : l ∈ ofAsset text) :
    Text.IsLine l.text := by
  obtain ⟨i, raw, -, hraw, htext⟩ := exists_of_mem_counting h
  rw [htext]
  exact Text.isLine_trim (Text.not_mem_of_mem_lines (List.mem_of_getElem? hraw))

/-- Whether all lines are trimmed and hold no line feeds. -/
def AllLines (lines : List Line) : Prop := ∀ l ∈ lines, Text.IsLine l.text

/-- A property that is read from a line is one. -/
theorem isProperty_of_property? {l : Line} (hl : Text.IsLine l.text) {p : String × String}
    (h : property? l = some p) : IsProperty p := by
  rw [property?] at h
  split at h
  · cases h
  · rename_i front body hbody
    split at h
    · cases h
    · rename_i key value hvalue
      obtain ⟨_, htext, -, -⟩ := Text.splitAt?_eq_some_iff.mp hbody
      obtain ⟨_, rfl, -, hkey⟩ := Text.splitAt?_eq_some_iff.mp hvalue
      have hline := hl.2
      rw [htext] at hline
      simp only [List.mem_append, List.mem_cons, not_or] at hline
      simp only at h
      split at h
      · cases h
      · rename_i hne
        cases h
        refine ⟨?_, ?_, ?_, ?_⟩
        · rw [String.toList_ofList]
          exact Text.isLine_trim hline.2.2.1
        · rw [String.toList_ofList]
          exact hne
        · rw [String.toList_ofList]
          intro hmem
          simpa using hkey _ ((Text.isInfix_trim key).subset hmem)
        · rw [String.toList_ofList]
          exact Text.isLine_trim hline.2.2.2.2

/-! ### Texts -/

/-- Lines that are joined are a text of as many lines, and no lines are one empty line. -/
theorem isText_join {pieces : List String} (h : ∀ p ∈ pieces, Text.IsLine p.toList) :
    IsText (max 1 pieces.length) (Text.join "\n" pieces) := by
  have hlist : (Text.join "\n" pieces).toList =
      List.intercalate ['\n'] (pieces.map String.toList) := String.toList_intercalate
  rw [IsText, hlist]
  by_cases hnil : pieces = []
  · rw [hnil]
    exact ⟨Nat.le_refl _, List.forall_mem_singleton.mpr rfl⟩
  · have hnone : ∀ l ∈ pieces.map String.toList, '\n' ∉ l :=
      List.forall_mem_map.mpr fun p hp => (h p hp).2
    rw [List.splitOn_intercalate _ hnone (by simpa using hnil), List.length_map]
    exact ⟨Nat.le_max_right _ _, List.forall_mem_map.mpr fun p hp => (h p hp).1⟩

/-- What is shown of some lines keeps within the limit. -/
theorem Item.isText_textUpTo (h : AllLines lines) (limit : Nat) :
    IsText (max 1 limit) (textUpTo limit lines) := by
  have hpieces : ∀ p ∈ (lines.take limit).map Line.content, Text.IsLine p.toList := by
    refine List.forall_mem_map.mpr fun l hl => ?_
    rw [Line.content, String.toList_ofList]
    exact (h l (List.mem_of_mem_take hl)).behind (List.drop_suffix 1 _)
  obtain ⟨hlength, htrim⟩ := isText_join hpieces
  have hlimit : ((lines.take limit).map Line.content).length ≤ limit := by
    rw [List.length_map]
    exact List.length_take_le limit lines
  exact ⟨hlength.trans (by omega), htrim⟩

/-- Effect lines that are joined to one line hold no line feed. -/
theorem Item.not_mem_effectText (h : AllLines lines) : '\n' ∉ (effectText lines).toList := by
  rw [effectText, Text.join, String.toList_intercalate]
  intro hmem
  rcases Text.mem_intercalate hmem with hsep | ⟨piece, hpiece, hmem⟩
  · exact absurd hsep (by decide)
  · rw [List.map_map] at hpiece
    obtain ⟨l, hl, rfl⟩ := List.mem_map.mp hpiece
    rw [Function.comp_apply, String.toList_ofList] at hmem
    exact (h l hl).2 (List.mem_of_mem_drop ((Text.isInfix_trim _).subset hmem))

/-! ### Options -/

/-- What a target stands for in an asset can be read: where it has no colon, it gets the scheme of
storyboards of text assets. -/
theorem isTarget_resolve (asset : String) {target : String} (htrim : IsTrimmed target)
    (hne : target ≠ "") : IsTarget (Uri.resolve asset target) := by
  rw [Uri.resolve, htrim.trimmed_eq]
  split
  · rename_i hcolon
    exact ⟨htrim, List.contains_iff_mem.mp hcolon⟩
  · have hlist : s!"{Uri.dataScheme}:{asset}-{target}".toList =
        'd' :: ("ata:".toList ++ asset.toList ++ ['-'] ++ target.toList) := by
      simp [Uri.dataScheme, toString]
    rw [IsTarget, IsTrimmed, hlist]
    refine ⟨Text.trim_eq_self ?first ?last, by simp⟩
    case first =>
      intro c hc
      cases hc
      decide
    case last =>
      intro c hc
      have hlast : target.toList.getLast? = some c := by
        have htarget : target.toList ≠ [] := by simpa using hne
        rwa [← List.cons_append, List.getLast?_append_of_ne_nil _ htarget] at hc
      exact Text.isBlank_of_getLast? htrim c hlast

namespace OptionParts

/-- The order of an option line is a row of digits. -/
theorem isDigit_of_order? {line order rest : List Char} (h : order? line = some (order, rest)) :
    order ≠ [] ∧ order.all Char.isDigit = true := by
  unfold order? at h
  split at h
  · simp only at h
    split at h
    · cases h
    · rename_i hne
      cases h
      exact ⟨hne, List.all_takeWhile⟩
  · cases h

/-- Whether the order of an option is a row of digits. -/
def HasOrder (p : OptionParts) : Prop := p.order ≠ [] ∧ p.order.all Char.isDigit = true

theorem hasOrder_ofDecision? {line : List Char} {p : OptionParts} (h : ofDecision? line = some p) :
    p.HasOrder := by
  unfold ofDecision? at h
  split at h
  · rename_i order behind horder
    obtain ⟨_, -, rfl⟩ := Option.map_eq_some_iff.mp h
    exact isDigit_of_order? horder
  · cases h

theorem hasOrder_ofBranch? {line : List Char} {p : OptionParts} (h : ofBranch? line = some p) :
    p.HasOrder := by
  unfold ofBranch? at h
  split at h
  · rename_i order target horder
    cases h
    exact isDigit_of_order? horder
  · cases h

/-- An order that can be used is a natural number, and a target that can be used can be read in
every asset. -/
theorem HasOrder.of_usable? {p : OptionParts} (hp : p.HasOrder) {order : Score} {target : String}
    (h : p.usable? = some (order, target)) (asset : String) :
    0 ≤ order.val ∧ IsTarget (Uri.resolve asset target) := by
  unfold usable? at h
  split at h
  · cases h
  · rename_i score hscore
    simp only at h
    split at h
    · cases h
    · rename_i hne
      cases h
      rw [Decimal.read?_of_digits hp.1 hp.2, Option.bind_some] at hscore
      refine ⟨?_, isTarget_resolve asset (isTrimmed_trim _) (by simpa using hne)⟩
      rw [Score.ofInt?_eq_some_iff.mp hscore]
      exact Int.natCast_nonneg _

end OptionParts

/-- Whether the text of a guard is trimmed and not empty, if there is one. -/
def Bracket.Tidy (b : Bracket) : Prop := ∀ g ∈ b.guard?, IsTrimmed g ∧ g ≠ ""

theorem Bracket.tidy_of_guard?_eq_none {b : Bracket} (h : b.guard? = none) : b.Tidy := by
  intro g hg
  rw [h] at hg
  cases hg

/-- A bracket that is read is tidy. -/
theorem Bracket.tidy_read (lines : List Line) : (read lines).1.Tidy := by
  unfold read
  split
  · exact tidy_of_guard?_eq_none rfl
  · split
    · split
      · exact tidy_of_guard?_eq_none rfl
      · simp only
        split
        · exact tidy_of_guard?_eq_none rfl
        · rename_i hne
          intro g hg
          cases hg
          exact ⟨isTrimmed_trim _, by simpa using hne⟩
    · exact tidy_of_guard?_eq_none rfl

/-- An option of a decision is tidy if the bracket above it is. -/
theorem Entry.tidy_decisionOption? {e : Entry} (he : e.bracket.Tidy) {o : DecisionOption}
    (h : e.decisionOption? asset = some o) : o.Tidy := by
  unfold decisionOption? at h
  split at h
  · cases h
  · rename_i parts hparts
    obtain ⟨⟨order, target⟩, husable, rfl⟩ := Option.map_eq_some_iff.mp h
    have horder := OptionParts.hasOrder_ofDecision? hparts
    obtain ⟨hlow, htarget⟩ := horder.of_usable? husable asset
    refine ⟨⟨hlow, order.high⟩, isTrimmed_trim _, ?target, he⟩
    case target =>
      dsimp only
      exact htarget

/-- An option of a branch is tidy if the bracket above it is. -/
theorem Entry.tidy_branchOption? {e : Entry} (he : e.bracket.Tidy) {o : BranchOption}
    (h : e.branchOption? asset = some o) : o.Tidy := by
  unfold branchOption? at h
  split at h
  · cases h
  · rename_i parts hparts
    obtain ⟨⟨order, target⟩, husable, rfl⟩ := Option.map_eq_some_iff.mp h
    have horder := OptionParts.hasOrder_ofBranch? hparts
    obtain ⟨hlow, htarget⟩ := horder.of_usable? husable asset
    refine ⟨⟨hlow, order.high⟩, ?target, he⟩
    case target =>
      dsimp only
      exact htarget

/-! ### Panels -/

namespace Item

/-- Whether the brackets that are read with the options of an item are tidy, and one of the options
of a branch can be used. -/
def Tidy : Item → Prop
  | decision _ entries => ∀ e ∈ entries, e.bracket.Tidy
  | branch entries => entries.any Entry.isBranchOption = true ∧ ∀ e ∈ entries, e.bracket.Tidy
  | _ => True

theorem tidy_takeEntries (accepts : OptionShape → Bool) (lines : List Line) :
    ∀ e ∈ (takeEntries accepts lines).1, e.bracket.Tidy := by
  induction lines using takeEntries_induction accepts with
  | stop lines hstop =>
    rw [takeEntries_of_not_accepts hstop]
    exact List.forall_mem_nil _
  | more lines line rest hline hshape ha ih =>
    rw [takeEntries_of_accepts hline hshape ha, List.forall_mem_cons]
    exact ⟨Bracket.tidy_read lines, ih⟩

/-- An item that is read is tidy. -/
theorem tidy_read {l : Line} {rest : List Line} {item : Item} (h : (read l rest).1 = some item) :
    item.Tidy := by
  unfold read at h
  split at h
  · cases h
  · cases h
  · cases h
    trivial
  · cases h
    trivial
  · cases h
    trivial
  · cases h
    exact tidy_takeEntries _ _
  · cases husable : (takeEntries branchAccepts (l :: rest)).1.any Entry.isBranchOption with
    | true =>
      rw [readBranch_of_usable husable] at h
      cases h
      exact ⟨husable, tidy_takeEntries _ _⟩
    | false =>
      rw [readBranch_of_unusable husable] at h
      cases h
      trivial
  · cases h
    trivial

/-- **The panel that is made of an item is tidy.** -/
theorem tidy_body? {item : Item} (hitem : item.Tidy) (hplaced : item.PlacedOn lines)
    (hlines : AllLines lines) {body : PanelBody} (h : item.body? s asset = some body) :
    body.Tidy s := by
  cases item with
  | narration texts effects =>
    cases h
    obtain ⟨htexts, heffects⟩ := hplaced
    have hshown : AllLines texts := fun l hl => hlines l (htexts.1.subset hl)
    have hjoined : AllLines effects := fun l hl => hlines l (heffects.1.subset hl)
    exact ⟨isText_textUpTo hshown _, Effect.tidy_ofLine (not_mem_effectText hjoined)⟩
  | decision prompt entries =>
    cases h
    obtain ⟨-, hprompt, -⟩ := hplaced
    refine ⟨isText_textUpTo (fun l hl => hlines l (hprompt.1.subset hl)) _, ?_⟩
    intro o ho
    obtain ⟨e, he, hoption⟩ := List.mem_filterMap.mp ho
    exact Entry.tidy_decisionOption? (hitem e he) hoption
  | branch entries =>
    cases h
    obtain ⟨husable, hbrackets⟩ := hitem
    constructor
    -- A branch is read only where one of its options can be used.
    · obtain ⟨e, he, hoption⟩ := List.any_eq_true.mp husable
      rw [Entry.isBranchOption_eq asset] at hoption
      obtain ⟨o, ho⟩ := Option.isSome_iff_exists.mp hoption
      exact List.ne_nil_of_mem (List.mem_filterMap.mpr ⟨e, he, ho⟩)
    · intro o ho
      obtain ⟨e, he, hoption⟩ := List.mem_filterMap.mp ho
      exact Entry.tidy_branchOption? (hbrackets e he) hoption
  | _ => cases h

end Item

/-! ### Properties -/

/-- Whether all entries of a table are properties. -/
def AllProperties (t : Keyed String) : Prop := ∀ e ∈ t.entries, IsProperty e

theorem AllProperties.insert {t : Keyed String} (ht : AllProperties t) {p : String × String}
    (hp : IsProperty p) : AllProperties (t.insert p.1 p.2) := by
  intro e he
  rcases Keyed.mem_entries_insert he with rfl | he
  · exact hp
  · exact ht e he

theorem AllProperties.add {w : Waiting} (hw : AllProperties w.properties) {l : Line}
    (hl : Text.IsLine l.text) : AllProperties (w.add l).properties := by
  unfold Waiting.add
  cases hp : property? l with
  | none => exact hw
  | some p => exact hw.insert (isProperty_of_property? hl hp)

theorem allProperties_ofList {es : List (String × String)} (h : ∀ e ∈ es, IsProperty e)
    {t : Keyed String} (ht : AllProperties t) :
    AllProperties (es.foldl (fun t e => t.insert e.1 e.2) t) := by
  induction es generalizing t with
  | nil => exact ht
  | cons e es ih =>
    obtain ⟨he, hes⟩ := List.forall_mem_cons.mp h
    exact ih hes (ht.insert he)

section Items

variable {items : List Item}

/-- **Panels are tidy** if what waits for the first of them are properties. What waits for a later
one was read behind the panel before it, from lines of its own. -/
theorem tidy_of_mem_panelsOf (hlines : AllLines lines)
    (hitems : ∀ item ∈ items, item.PlacedOn lines ∧ item.Tidy) {waiting : Waiting}
    (hwaiting : AllProperties waiting.properties) :
    ∀ p ∈ (panelsOf s asset waiting items).1, p.Tidy s := by
  fun_induction panelsOf s asset waiting items with
  | case1 => exact List.forall_mem_nil _
  | case2 waiting l rest ih =>
    obtain ⟨⟨⟨hl, -⟩, -⟩, hrest⟩ := List.forall_mem_cons.mp hitems
    exact ih hrest (hwaiting.add (hlines l hl))
  | case3 waiting item rest hprop body hbody panels left hmore ih =>
    obtain ⟨⟨hplaced, hitem⟩, hrest⟩ := List.forall_mem_cons.mp hitems
    rw [hmore] at ih
    rw [List.forall_mem_cons]
    exact ⟨⟨hwaiting, Item.tidy_body? hitem hplaced hlines hbody⟩, ih hrest (List.forall_mem_nil _)⟩
  | case4 waiting item rest hprop hbody ih =>
    exact ih (List.forall_mem_cons.mp hitems).2 hwaiting

theorem allProperties_boardProperties (hlines : AllLines lines)
    (hitems : ∀ item ∈ items, item.PlacedOn lines) : AllProperties (boardProperties items) := by
  refine allProperties_ofList ?_ (List.forall_mem_nil _)
  intro e he
  obtain ⟨item, hitem, hproperty⟩ := List.mem_filterMap.mp he
  have hplaced := hitems item hitem
  cases item with
  | boardProperty l => exact isProperty_of_property? (hlines l hplaced.1) hproperty
  | _ => cases hproperty

end Items

/-! ### Reports -/

/-- **Whatever is read is tidy,** and every storyboard has the name under which it is stored. -/
theorem Report.tidy_of_mem {text : String} {e : String × Storyboard}
    (h : e ∈ (Report.ofAsset s asset text).storyboards.entries) : e.2.id = e.1 ∧ e.2.Tidy s := by
  have hlines : AllLines (Line.ofAsset text) := fun l => Line.isLine_of_mem_ofAsset
  rw [Report.entries_storyboards] at h
  obtain ⟨⟨start, items⟩, hb, rfl⟩ := List.mem_map.mp h
  have hboard := Section.mem_of_mem_kept hb
  have hplaced : ∀ item ∈ items, item.PlacedOn (Line.ofAsset text) :=
    (Section.placedOn_ofLines (List.suffix_refl _) _ hboard).2.2.1
  have hitems : ∀ item ∈ items, item.PlacedOn (Line.ofAsset text) ∧ item.Tidy := by
    intro item hitem
    obtain ⟨l, rest, -, hread⟩ := Section.exists_read_of_mem_ofLines hboard hitem
    exact ⟨hplaced item hitem, Item.tidy_read hread⟩
  exact ⟨rfl, allProperties_boardProperties hlines hplaced,
    tidy_of_mem_panelsOf hlines hitems (List.forall_mem_nil _)⟩

end Markup

end Adventure
