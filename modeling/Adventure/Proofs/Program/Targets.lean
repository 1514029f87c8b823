import Adventure.Proofs.Markup.PanelProperties
import Adventure.Proofs.Markup.Tidy
import Adventure.Proofs.Program.Lint

/-!
What the linter makes of the targets of options. A panel has the targets that are written for it, as
they stand for references in their asset (`Item.targets_of_body?`), and all of them can be read
(`Report.isSome_parse?_of_mem_targets`).

A bare target is looked up under one name: that of the asset, a hyphen and the target, from behind
the last slash on (`problem?_resolve`). This name may belong to a storyboard of another asset, and
with a slash in it to none of the same asset. Where neither can be, a bare target is told of exactly
if its own asset has no such storyboard (`bare_target_told_iff`).
-/

namespace Adventure

/-! ### Targets as they are written -/

namespace Markup

/-- The target of an option as it is written, if the option can be used. -/
def OptionParts.target? (p : OptionParts) : Option String := p.usable?.map Prod.snd

/-- The targets of the options that are made of an item, as they are written. -/
def Item.writtenTargets : Item → List String
  | decision _ entries =>
    entries.filterMap fun e => (OptionParts.ofDecision? e.line.text).bind OptionParts.target?
  | branch entries =>
    entries.filterMap fun e => (OptionParts.ofBranch? e.line.text).bind OptionParts.target?
  | _ => []

section Written

variable {s : Settings} {asset : String}

theorem Entry.targetUri_decisionOption? (asset : String) (e : Entry) :
    (e.decisionOption? asset).map DecisionOption.targetUri =
      ((OptionParts.ofDecision? e.line.text).bind OptionParts.target?).map (Uri.resolve asset) := by
  rw [decisionOption?]
  cases OptionParts.ofDecision? e.line.text with
  | none => rfl
  | some parts =>
    rw [Option.bind_some, OptionParts.target?]
    cases husable : parts.usable? with
    | none => simp only [husable, Option.map_none]
    | some option => simp only [husable, Option.map_some]

theorem Entry.targetUri_branchOption? (asset : String) (e : Entry) :
    (e.branchOption? asset).map BranchOption.targetUri =
      ((OptionParts.ofBranch? e.line.text).bind OptionParts.target?).map (Uri.resolve asset) := by
  rw [branchOption?]
  cases OptionParts.ofBranch? e.line.text with
  | none => rfl
  | some parts =>
    rw [Option.bind_some, OptionParts.target?]
    cases husable : parts.usable? with
    | none => simp only [husable, Option.map_none]
    | some option => simp only [husable, Option.map_some]

/-- **A panel has the targets that are written for it,** each as the reference that it stands for in
its asset. -/
theorem Item.targets_of_body? {item : Item} {p : Panel} (h : item.body? s asset = some p.body) :
    p.targets = item.writtenTargets.map (Uri.resolve asset) := by
  rw [Panel.targets]
  cases item with
  | narration texts effects =>
    rw [← Option.some.inj h]
    rfl
  | decision prompt entries =>
    rw [← Option.some.inj h, writtenTargets]
    simp only [List.map_filterMap, Entry.targetUri_decisionOption?]
  | branch entries =>
    rw [← Option.some.inj h, writtenTargets]
    simp only [List.map_filterMap, Entry.targetUri_branchOption?]
  | _ => cases h

/-- Only what makes a panel has targets. -/
theorem Item.makesPanel_of_mem_writtenTargets {item : Item} {target : String}
    (h : target ∈ item.writtenTargets) : item.makesPanel = true := by
  cases item with
  | narration texts effects => rfl
  | decision prompt entries => rfl
  | branch entries => rfl
  | _ => cases h

theorem OptionParts.isTrimmed_of_target? {p : OptionParts} {target : String}
    (h : p.target? = some target) : IsTrimmed target ∧ target ≠ "" := by
  obtain ⟨⟨order, target'⟩, husable, rfl⟩ := Option.map_eq_some_iff.mp h
  unfold usable? at husable
  split at husable
  · cases husable
  · simp only at husable
    split at husable
    · cases husable
    · rename_i hne
      cases husable
      exact ⟨isTrimmed_trim _, by simpa using hne⟩

/-- A target is written trimmed, and is not empty. -/
theorem Item.isTrimmed_of_mem_writtenTargets {item : Item} {target : String}
    (h : target ∈ item.writtenTargets) : IsTrimmed target ∧ target ≠ "" := by
  have hparts : ∃ parts : Option OptionParts, parts.bind OptionParts.target? = some target := by
    cases item with
    | decision prompt entries =>
      obtain ⟨e, -, he⟩ := List.mem_filterMap.mp h
      exact ⟨_, he⟩
    | branch entries =>
      obtain ⟨e, -, he⟩ := List.mem_filterMap.mp h
      exact ⟨_, he⟩
    | _ => cases h
  obtain ⟨parts, hparts⟩ := hparts
  obtain ⟨p, -, hp⟩ := Option.bind_eq_some_iff.mp hparts
  exact OptionParts.isTrimmed_of_target? hp

end Written

end Markup

/-! ### Targets can be read -/

/-- What has a colon can be read as a reference. -/
theorem IsTarget.isSome_parse? {target : String} (h : IsTarget target) :
    (Uri.parse? target).isSome = true := by
  rw [Uri.parse?, Option.isSome_map, Option.isSome_iff_ne_none]
  intro hnone
  simpa using Text.splitAt?_eq_none_iff.mp hnone ':' h.2

/-- The targets of a tidy panel can be read. -/
theorem Panel.Tidy.isTarget {s : Markup.Settings} {p : Panel} (h : p.Tidy s) :
    ∀ target ∈ p.targets, IsTarget target := by
  have hbody := h.body
  rw [Panel.targets]
  cases hp : p.body with
  | narration text effect => exact List.forall_mem_nil _
  | decision prompt options =>
    rw [hp] at hbody
    exact List.forall_mem_map.mpr fun o ho => (hbody.2 o ho).target
  | branch options =>
    rw [hp] at hbody
    exact List.forall_mem_map.mpr fun o ho => (hbody.2 o ho).target

/-- **Every target of a panel can be read as a reference.** -/
theorem Markup.Report.isSome_parse?_of_mem_targets {s : Settings} {asset text : String}
    {e : String × Storyboard} (he : e ∈ (Report.ofAsset s asset text).storyboards.entries)
    {p : Panel} (hp : p ∈ e.2.panels) {target : String} (htarget : target ∈ p.targets) :
    (Uri.parse? target).isSome = true :=
  (((tidy_of_mem he).2.panels p hp).isTarget target htarget).isSome_parse?

namespace Program.Lint

theorem decode_toUTF8 (text : String) : decode text.toUTF8 = .ok text := by
  have hvalid : text.toUTF8.IsValidUTF8 := text.isValidUTF8
  rw [decode, String.fromUTF8?, dif_pos hvalid]
  rfl

/-- **Whatever is read of an asset is tidy.** Every storyboard has the name under which it is
stored, and the targets of its options can be read as references. So whatever the linter tells of a
target of some assets, it never tells that it is no reference. -/
theorem storyboards_tidy (s : Markup.Settings) :
    (∀ asset text, ∀ e ∈ (Markup.Report.ofAsset s asset text).storyboards.entries,
      e.2.id = e.1 ∧ e.2.Tidy s ∧
        ∀ p ∈ e.2.panels, ∀ target ∈ p.targets, (Uri.parse? target).isSome = true) ∧
      ∀ files, ∀ f ∈ (Findings.ofAssets s files).library.targetFaults,
        f.problem = .noStoryboard := by
  constructor
  · intro asset text e he
    obtain ⟨hid, hboard⟩ := Markup.Report.tidy_of_mem he
    exact ⟨hid, hboard, fun p hp target =>
      Markup.Report.isSome_parse?_of_mem_targets he hp⟩
  · intro files f hf
    obtain ⟨hproblem, a, ha, -, e, he, -, p, hp, htarget⟩ := Library.mem_targetFaults_iff.mp hf
    obtain ⟨file, -, text, -, rfl⟩ :=
      mem_readAssets.mp (lastNamed_subset _ (mem_library_iff.mp ha))
    obtain ⟨u, hu⟩ := Option.isSome_iff_exists.mp
      (Markup.Report.isSome_parse?_of_mem_targets he (List.mem_of_getElem? hp) htarget)
    rw [Library.problem?, hu] at hproblem
    simp only at hproblem
    split at hproblem
    · exact (Option.some.inj hproblem).symm
    · cases hproblem

/-- A guard on two lines, with blanks inside of its brackets, and a target without a scheme in an
asset whose name starts with a blank. -/
theorem storyboards_tidy_guard :
    let report := Markup.Report.ofAsset {} " inn" ">>s\n[ str\n > 1 ]\n-1-<cellar\n"
    let option : BranchOption :=
      { targetUri := "data: inn-cellar", guard := some "str\n> 1", order := { val := 1 } }
    ∃ e ∈ report.storyboards.entries, e.2.id = "s" ∧ e.2.Tidy {} ∧
      e.2.panels.map Panel.body = [.branch [option]] ∧
      ∀ p ∈ e.2.panels, ∀ target ∈ p.targets, (Uri.parse? target).isSome = true := by
  intro report option
  have hentries : report.storyboards.entries.map (fun e => (e.1, e.2.panels.map Panel.body)) =
      [("s", [.branch [option]])] := by
    decide +kernel
  obtain ⟨e, he, hparts⟩ := List.map_eq_singleton_iff.mp hentries
  have hmem : e ∈ report.storyboards.entries := he ▸ List.mem_cons_self
  obtain ⟨hid, htidy, hreadable⟩ := (storyboards_tidy {}).1 _ _ e hmem
  exact ⟨e, hmem, hid.trans (congrArg Prod.fst hparts), htidy, congrArg Prod.snd hparts, hreadable⟩

/-! ### Bare targets -/

/-- The name under which the linter looks for the storyboard of a bare target in an asset: what
follows the last slash of the asset's name, a hyphen and the target, without blanks around it. -/
def lookedUp (asset target : String) : String :=
  Uri.boardName ⟨Uri.dataScheme, Text.trimmed s!"{asset}-{target}"⟩

section Bare

variable {asset target : String}

theorem resolve_of_bare (htrim : IsTrimmed target) (hbare : ':' ∉ target.toList) :
    Uri.resolve asset target = s!"{Uri.dataScheme}:{asset}-{target}" := by
  rw [Uri.resolve, htrim.trimmed_eq]
  exact if_neg (by simpa using hbare)

/-- A bare target stands for a reference to a storyboard of a text asset. -/
theorem parse?_resolve (htrim : IsTrimmed target) (hbare : ':' ∉ target.toList) :
    Uri.parse? (Uri.resolve asset target) =
      some ⟨Uri.dataScheme, Text.trimmed s!"{asset}-{target}"⟩ := by
  have hlist : s!"{Uri.dataScheme}:{asset}-{target}".toList =
      Uri.dataScheme.toList ++ ':' :: s!"{asset}-{target}".toList := by
    simp [toString]
  have hscheme : ∀ c ∈ Uri.dataScheme.toList, decide (c = ':') = false := by
    simp [Uri.dataScheme]
  have hcut : Text.splitAt? (· = ':')
      (Uri.dataScheme.toList ++ ':' :: s!"{asset}-{target}".toList) =
        some (Uri.dataScheme.toList, s!"{asset}-{target}".toList) :=
    Text.splitAt?_append hscheme rfl _
  have htrimmed : String.ofList (Text.trim Uri.dataScheme.toList) = Uri.dataScheme := by decide
  rw [resolve_of_bare htrim hbare, Uri.parse?, hlist, hcut, Option.map_some]
  simp only [htrimmed]
  rfl

/-- **A bare target is wrong where no storyboard has the name that is looked up.** -/
theorem problem?_resolve (htrim : IsTrimmed target) (hbare : ':' ∉ target.toList) (l : Library) :
    l.problem? (Uri.resolve asset target) = some .noStoryboard ↔
      ¬IsOffered l.assets.entries (lookedUp asset target) := by
  rw [Library.problem?, parse?_resolve htrim hbare, ← Library.offers_iff, lookedUp]
  simp [Uri.isData]

/-- A name without slashes is looked up as it is. -/
theorem lookedUp_of_plain (hasset : '/' ∉ asset.toList) (htarget : '/' ∉ target.toList)
    (hfirst : ∀ c ∈ asset.toList.head?, Text.isBlank c = false) (htrim : IsTrimmed target)
    (hne : target ≠ "") : lookedUp asset target = s!"{asset}-{target}" := by
  have hlist : s!"{asset}-{target}".toList = asset.toList ++ ['-'] ++ target.toList := by
    simp [toString]
  have htrimmed : Text.trim s!"{asset}-{target}".toList = s!"{asset}-{target}".toList := by
    rw [hlist]
    apply Text.trim_eq_self
    · intro c hc
      cases hcs : asset.toList with
      | nil =>
        rw [hcs] at hc
        cases hc
        decide
      | cons first rest =>
        rw [hcs] at hc hfirst
        exact hfirst c hc
    · intro c hc
      have htarget : target.toList ≠ [] := by simpa using hne
      rw [List.getLast?_append_of_ne_nil _ htarget] at hc
      exact Text.isBlank_of_getLast? htrim c hc
  have hslash : Text.splitAtLast? (· = '/') s!"{asset}-{target}".toList = none := by
    rw [Text.splitAtLast?_eq_none_iff, hlist]
    intro c hc
    rw [decide_eq_false_iff_not]
    rintro rfl
    simp [hasset, htarget] at hc
  rw [lookedUp, Uri.boardName, Text.trimmed, htrimmed]
  simp only [String.ofList_toList, hslash]

end Bare

/-! ### Names with hyphens -/

/-- Whether neither of two names starts with the other and a hyphen. -/
def Apart (a b : String) : Prop := ¬(a ++ "-").toList <+: b.toList ∧ ¬(b ++ "-").toList <+: a.toList

instance (a b : String) : Decidable (Apart a b) := inferInstanceAs (Decidable (_ ∧ _))

theorem Apart.refl (a : String) : Apart a a := by
  have hlong : ¬(a ++ "-").toList <+: a.toList := by
    intro h
    have hlength := h.length_le
    rw [String.toList_append, List.length_append] at hlength
    have hhyphen : "-".toList.length = 1 := rfl
    omega
  exact ⟨hlong, hlong⟩

/-- A name and a hyphen, with whatever behind, is no name that is apart from it. -/
theorem Apart.append_ne {a b : String} (h : Apart a b) (t : String) : s!"{a}-{t}" ≠ b := by
  rintro rfl
  exact h.1 ⟨t.toList, by simp [toString]⟩

/-- Names that are apart are not confused when something is put behind them. -/
theorem Apart.eq_of_append_eq {a b n t : String} (h : Apart a b) (heq : s!"{a}-{t}" = s!"{b}-{n}") :
    a = b ∧ t = n := by
  have hlist : a.toList ++ '-' :: t.toList = b.toList ++ '-' :: n.toList := by
    simpa [toString] using congrArg String.toList heq
  rw [Apart, String.toList_append, String.toList_append] at h
  rcases List.append_eq_append_iff.mp hlist with ⟨xs, hb, ht⟩ | ⟨xs, ha, hn⟩
  · cases xs with
    | nil =>
      rw [List.append_nil, String.toList_inj] at hb
      exact ⟨hb.symm, String.toList_inj.mp (List.cons.inj ht).2⟩
    | cons x xs =>
      -- What is left of the longer name starts with the hyphen behind the shorter one.
      obtain ⟨rfl, -⟩ := List.cons.inj ht
      exact absurd ⟨xs, by rw [hb]; simp⟩ h.1
  · cases xs with
    | nil =>
      rw [List.append_nil, String.toList_inj] at ha
      exact ⟨ha, String.toList_inj.mp (List.cons.inj hn).2.symm⟩
    | cons x xs =>
      obtain ⟨rfl, -⟩ := List.cons.inj hn
      exact absurd ⟨xs, by rw [ha]; simp⟩ h.2

/-- The assets of other names. -/
def others (assets : List (String × Keyed Storyboard)) (asset : String) :
    List (String × Keyed Storyboard) :=
  assets.filter (·.1 ≠ asset)

/-- A name that starts with that of an asset and a hyphen is offered by this asset, if it has the
storyboard, or by another one. -/
theorem isOffered_iff {assets : List (String × Keyed Storyboard)}
    (hnodup : (assets.map Prod.fst).Nodup) {a : String × Keyed Storyboard} (ha : a ∈ assets)
    (target : String) :
    IsOffered assets s!"{a.1}-{target}" ↔
      target ∈ a.2.keys ∨ IsOffered (others assets a.1) s!"{a.1}-{target}" := by
  constructor
  · rintro ⟨b, hb, board, hboard, hname⟩
    by_cases hasset : b.1 = a.1
    · left
      have hab : b = a := List.inj_on_of_nodup_map hnodup hb ha hasset
      subst hab
      rcases hname with hname | ⟨rfl, hname⟩
      · obtain ⟨-, rfl⟩ := (Apart.refl b.1).eq_of_append_eq hname
        exact hboard
      · exact absurd hname ((Apart.refl b.1).append_ne target)
    · exact Or.inr ⟨b, List.mem_filter.mpr ⟨hb, by simpa using hasset⟩, board, hboard, hname⟩
  · rintro (hmem | hother)
    · exact ⟨a, ha, target, hmem, Or.inl rfl⟩
    · exact hother.mono List.filter_sublist.subset

/-- Other assets offer no such name if their names are apart. -/
theorem not_isOffered_others {assets : List (String × Keyed Storyboard)} {asset : String}
    (hapart : ∀ b ∈ others assets asset, Apart asset b.1) (target : String) :
    ¬IsOffered (others assets asset) s!"{asset}-{target}" := by
  rintro ⟨b, hb, board, -, hname | ⟨rfl, hname⟩⟩
  · obtain ⟨rfl, -⟩ := (hapart b hb).eq_of_append_eq hname
    simp [others] at hb
  · exact (hapart b hb).append_ne target hname

/-! ### What is told -/

theorem nodup_readAssets (s : Markup.Settings) {files : List AssetFile}
    (h : (files.map AssetFile.name).Nodup) : ((readAssets s files).map Prod.fst).Nodup := by
  refine List.Nodup.sublist ?_ h
  induction files with
  | nil => exact List.nil_sublist _
  | cons a files ih =>
    have hrest := ih (List.nodup_cons.mp h).2
    cases hcontent : decode a.content with
    | error e =>
      have hread : readAssets s (a :: files) = readAssets s files := by
        simp [readAssets, hcontent]
      rw [hread]
      exact hrest.cons _
    | ok text =>
      have hread : readAssets s (a :: files) =
          (a.name, (Markup.Report.ofAsset s a.name text).storyboards) :: readAssets s files := by
        simp [readAssets, hcontent]
      rw [hread]
      exact hrest.cons_cons _

/-- The targets that are written for an item occur in its panel, as they stand for references. -/
theorem occursIn_of_written {s : Markup.Settings} {asset text : String}
    {b : Markup.Line × List Markup.Item}
    (hb : b ∈ Markup.Section.kept asset [] (Markup.Section.ofLines (Markup.Line.ofAsset text)))
    {before after : List Markup.Item} {item : Markup.Item} (hitems : b.2 = before ++ item :: after)
    {target : String} (htarget : target ∈ item.writtenTargets)
    {assets : List (String × Keyed Storyboard)}
    (hasset : (asset, (Markup.Report.ofAsset s asset text).storyboards) ∈ assets)
    (problem : TargetProblem) :
    TargetFault.OccursIn ⟨asset, Markup.boardName asset b.1,
      before.countP Markup.Item.makesPanel, Uri.resolve asset target, problem⟩ assets := by
  obtain ⟨p, hp, hbody, -⟩ := Markup.panelsOf_of_makesPanel s asset
    (Markup.Item.makesPanel_of_mem_writtenTargets htarget) before after
  rw [← hitems] at hp
  let board := Markup.boardOf s asset (Markup.boardName asset b.1) b.2
  have hboard : (Markup.boardName asset b.1, board) ∈
      (Markup.Report.ofAsset s asset text).storyboards.entries := by
    rw [Markup.Report.entries_storyboards]
    exact List.mem_map.mpr ⟨b, hb, rfl⟩
  have htargets : Uri.resolve asset target ∈ p.targets := by
    rw [Markup.Item.targets_of_body? hbody]
    exact List.mem_map_of_mem htarget
  refine ⟨_, hasset, rfl, _, hboard, rfl, p, hp, ?_⟩
  -- The fault is taken apart first: else the two references are compared by resolving them.
  dsimp only
  exact htargets

/-- **What is told of bare targets.** Let some assets have distinct names, and let a bare target be
written for an option of one of them. The linter tells of it, in the panel that is made of the
option's item, exactly if no storyboard of the assets has the name that is looked up. Where the
asset's name and the target hold no slash and the asset's name starts with no blank, it tells of the
target exactly if the asset has no storyboard of this name and no other asset offers the name that
is looked up; and no other asset does where their names are apart from its own. -/
theorem bare_target_told_iff (s : Markup.Settings) {files : List AssetFile}
    (hnames : (files.map AssetFile.name).Nodup) {a : AssetFile} (ha : a ∈ files) {text : String}
    (htext : decode a.content = .ok text) {b : Markup.Line × List Markup.Item}
    (hb : b ∈ Markup.Section.kept a.name [] (Markup.Section.ofLines (Markup.Line.ofAsset text)))
    {before after : List Markup.Item} {item : Markup.Item} (hitems : b.2 = before ++ item :: after)
    {target : String} (htarget : target ∈ item.writtenTargets) (hbare : ':' ∉ target.toList) :
    let assets := readAssets s files
    let boards := (Markup.Report.ofAsset s a.name text).storyboards
    let faults := (Findings.ofAssets s files).library.targetFaults
    let fault : TargetFault := ⟨a.name, Markup.boardName a.name b.1,
      before.countP Markup.Item.makesPanel, Uri.resolve a.name target, .noStoryboard⟩
    fault.OccursIn assets ∧
      (fault ∈ faults ↔ ¬IsOffered assets (lookedUp a.name target)) ∧
      ('/' ∉ a.name.toList → '/' ∉ target.toList →
        (∀ c ∈ a.name.toList.head?, Text.isBlank c = false) →
          (fault ∈ faults ↔ target ∉ boards.keys ∧
            ¬IsOffered (others assets a.name) s!"{a.name}-{target}") ∧
          ((∀ other ∈ others assets a.name, Apart a.name other.1) →
            (fault ∈ faults ↔ target ∉ boards.keys))) := by
  intro assets boards faults fault
  have hnodup : (assets.map Prod.fst).Nodup := nodup_readAssets s hnames
  have hread : (a.name, boards) ∈ assets := mem_readAssets.mpr ⟨a, ha, text, htext, rfl⟩
  obtain ⟨htrim, hne⟩ := Markup.Item.isTrimmed_of_mem_writtenTargets htarget
  have hoccurs : fault.OccursIn assets := occursIn_of_written hb hitems htarget hread _
  have hlibrary : ∀ e, e ∈ (Findings.ofAssets s files).library.assets.entries ↔ e ∈ assets := by
    intro e
    rw [mem_library_iff, lastNamed_of_nodup hnodup]
  have htold : fault ∈ faults ↔ ¬IsOffered assets (lookedUp a.name target) := by
    rw [Library.mem_targetFaults_iff, problem?_resolve htrim hbare,
      and_iff_left (hoccurs.mono fun e he => (hlibrary e).mpr he), not_iff_not]
    exact ⟨fun h => h.mono fun e he => (hlibrary e).mp he,
      fun h => h.mono fun e he => (hlibrary e).mpr he⟩
  refine ⟨hoccurs, htold, ?_⟩
  intro hasset hplain hfirst
  have hboth : fault ∈ faults ↔ target ∉ boards.keys ∧
      ¬IsOffered (others assets a.name) s!"{a.name}-{target}" := by
    rw [htold, lookedUp_of_plain hasset hplain hfirst htrim hne, ← not_or]
    exact not_congr (isOffered_iff hnodup hread target)
  refine ⟨hboth, ?_⟩
  intro hapart
  rw [hboth, and_iff_left (not_isOffered_others hapart target)]

/-- Of the doors of an inn, the one into a cellar that there is not is told of, and the one into the
hall is in order. -/
theorem bare_target_told_iff_doors :
    let text := ">>door\n-1-<cellar\n-2-<hall\n>>hall\n|Hello\n"
    let files : List AssetFile :=
      [⟨"assets/inn.txt", "inn", text.toUTF8⟩, ⟨"assets/mill.txt", "mill", hall⟩]
    let faults := (Findings.ofAssets {} files).library.targetFaults
    ⟨"inn", "door", 0, "data:inn-cellar", .noStoryboard⟩ ∈ faults ∧
      ⟨"inn", "door", 0, "data:inn-hall", .noStoryboard⟩ ∉ faults := by
  intro text files faults
  let doors : Markup.Item := .branch
    [⟨.absent, ⟨2, "-1-<cellar".toList⟩⟩, ⟨.absent, ⟨3, "-2-<hall".toList⟩⟩]
  let start : Markup.Line := ⟨1, ">>door".toList⟩
  have hkept : (start, [doors]) ∈
      Markup.Section.kept "inn" [] (Markup.Section.ofLines (Markup.Line.ofAsset text)) := by
    decide +kernel
  have hinn : ⟨"assets/inn.txt", "inn", text.toUTF8⟩ ∈ files := List.mem_cons_self
  have hplain : '/' ∉ "inn".toList := by decide
  have hfirst : ∀ c ∈ "inn".toList.head?, Text.isBlank c = false := by
    intro c hc
    obtain rfl : 'i' = c := by simpa using hc
    decide
  have hapart : ∀ other ∈ others (readAssets {} files) "inn", Apart "inn" other.1 := by
    decide +kernel
  have htext := decode_toUTF8 text
  have hcellar := @bare_target_told_iff {} files (by decide) _ hinn text htext _ hkept
    [] [] doors rfl "cellar" (by decide +kernel) (by decide)
  have hhall := @bare_target_told_iff {} files (by decide) _ hinn text htext _ hkept
    [] [] doors rfl "hall" (by decide +kernel) (by decide)
  constructor
  · have htold := (hcellar.2.2 hplain (by decide) hfirst).2 hapart
    exact htold.mpr (by decide +kernel)
  · have htold := (hhall.2.2 hplain (by decide) hfirst).2 hapart
    intro hfault
    exact htold.mp hfault (by decide +kernel)

/-- A bare target that its own asset does not have, but of which nothing is told: together with the
name of the asset it is that of a storyboard of another one. A bare target that is told of although
its asset has it: only what follows the slash is looked up. -/
theorem bare_target_misjudged :
    let text := ">>door\n-1-<old-cellar\n"
    let inns : List AssetFile :=
      [⟨"assets/inn-old.txt", "inn-old", ">>cellar\n|Hello\n".toUTF8⟩,
        ⟨"assets/inn.txt", "inn", text.toUTF8⟩]
    let cellar : TargetFault := ⟨"inn", "door", 0, "data:inn-old-cellar", .noStoryboard⟩
    let slashed := ">>loft/bed\n-1-<loft/bed\n"
    let inn : List AssetFile := [⟨"assets/inn.txt", "inn", slashed.toUTF8⟩]
    let bed : TargetFault := ⟨"inn", "loft/bed", 0, "data:inn-loft/bed", .noStoryboard⟩
    (cellar.OccursIn (readAssets {} inns) ∧
      ¬(cellar ∈ (Findings.ofAssets {} inns).library.targetFaults ↔
        "old-cellar" ∉ (Markup.Report.ofAsset {} "inn" text).storyboards.keys)) ∧
    (bed.OccursIn (readAssets {} inn) ∧
      ¬(bed ∈ (Findings.ofAssets {} inn).library.targetFaults ↔
        "loft/bed" ∉ (Markup.Report.ofAsset {} "inn" slashed).storyboards.keys)) := by
  intro text inns cellar slashed inn bed
  refine ⟨⟨by decide +kernel, ?untold⟩, ⟨by decide +kernel, ?told⟩⟩
  case untold =>
    have hproblem : (Findings.ofAssets {} inns).library.problem? cellar.target = none := by
      decide +kernel
    have hmissing : "old-cellar" ∉ (Markup.Report.ofAsset {} "inn" text).storyboards.keys := by
      decide +kernel
    rw [Library.mem_targetFaults_iff, hproblem]
    intro hagree
    cases (hagree.mpr hmissing).1
  case told =>
    have hproblem : (Findings.ofAssets {} inn).library.problem? bed.target =
        some .noStoryboard := by
      decide +kernel
    have hoccurs : bed.OccursIn (Findings.ofAssets {} inn).library.assets.entries := by
      decide +kernel
    have hpresent : "loft/bed" ∈ (Markup.Report.ofAsset {} "inn" slashed).storyboards.keys := by
      decide +kernel
    rw [Library.mem_targetFaults_iff]
    intro hagree
    exact hagree.mp ⟨hproblem, hoccurs⟩ hpresent

end Program.Lint

end Adventure
