import Adventure.Program.Lint
import Adventure.Record.Read

/-!
What the linter tells of references that lead nowhere.

No asset that can be read is missed (`mem_readAssets_iff`). What is read is put into a library under
the names of the assets, so that of several with one name only the last is kept (`mem_library_iff`).
The faults that are told are those of the options of the assets that are kept
(`mem_targetFaults_iff`). So a reference that leads to no storyboard of any asset is told of exactly
where an asset that is kept has it (`dead_target_told_iff`): of one in an asset that shares its name
with a later one nothing is told (`dead_target_untold`).
-/

namespace Adventure

/-! ### The last of each name -/

/-- Values under names without those whose name comes up again behind them. -/
def lastNamed {α : Type} : List (String × α) → List (String × α)
  | [] => []
  | e :: rest => if e.1 ∈ rest.map Prod.fst then lastNamed rest else e :: lastNamed rest

section LastNamed

variable {α : Type} {es : List (String × α)} {e : String × α}

theorem lastNamed_subset (es : List (String × α)) : lastNamed es ⊆ es := by
  induction es with
  | nil => exact List.Subset.refl []
  | cons first rest ih =>
    rw [lastNamed]
    split
    · exact List.subset_cons_of_subset first ih
    · exact List.cons_subset_cons first ih

/-- Where no name comes up twice, all are kept. -/
theorem lastNamed_of_nodup (h : (es.map Prod.fst).Nodup) : lastNamed es = es := by
  induction es with
  | nil => rfl
  | cons first rest ih =>
    rw [List.map_cons, List.nodup_cons] at h
    rw [lastNamed, if_neg h.1, ih h.2]

/-- What is in a table after a value was put into it: the value, and what was there under any other
name. -/
theorem Keyed.mem_entries_insert_iff (t : Keyed α) (key : String) (value : α) :
    e ∈ (t.insert key value).entries ↔ e = (key, value) ∨ e.1 ≠ key ∧ e ∈ t.entries := by
  have hentries : ∀ es : List (String × α), (es.map Prod.fst).Nodup →
      (e ∈ insertEntry key value es ↔ e = (key, value) ∨ e.1 ≠ key ∧ e ∈ es) := by
    intro es hes
    induction es with
    | nil => simp [insertEntry]
    | cons first rest ih =>
      rw [List.map_cons, List.nodup_cons] at hes
      rw [insertEntry]
      split
      · rename_i hfirst
        -- Behind the entry that is replaced, no other has its name.
        have hrest : e ∈ rest → e.1 ≠ key := by
          intro he heq
          exact hes.1 (hfirst.trans heq.symm ▸ List.mem_map_of_mem he)
        have hne : e = first → ¬e.1 ≠ key := by
          rintro rfl
          exact not_not_intro hfirst
        simp only [List.mem_cons]
        grind
      · rename_i hfirst
        have hne : e = first → e.1 ≠ key := by
          rintro rfl
          exact hfirst
        simp only [List.mem_cons, ih hes.2]
        grind
  exact hentries t.entries t.distinct

/-- Of values put into a table one after another, those are kept that are the last of their name. -/
theorem Keyed.mem_foldl_insert_iff (es : List (String × α)) (t : Keyed α) :
    e ∈ (es.foldl (fun t e => t.insert e.1 e.2) t).entries ↔
      e ∈ lastNamed es ∨ e ∈ t.entries ∧ e.1 ∉ es.map Prod.fst := by
  induction es generalizing t with
  | nil => simp [lastNamed]
  | cons first rest ih =>
    rw [List.foldl_cons, ih, Keyed.mem_entries_insert_iff, lastNamed, List.map_cons, List.mem_cons]
    -- If the name comes up again, the entry is out of the table by then.
    have hfirst : e = (first.1, first.2) → e.1 = first.1 := congrArg Prod.fst
    by_cases hlater : first.1 ∈ rest.map Prod.fst
    · rw [if_pos hlater]
      grind
    · rw [if_neg hlater, List.mem_cons]
      grind

end LastNamed

/-! ### Faults -/

/-- The entries, sorted, are the entries. -/
theorem Keyed.mem_sorted {α : Type} {t : Keyed α} {e : String × α} :
    e ∈ t.sorted ↔ e ∈ t.entries :=
  List.mem_mergeSort

/-- Whether a storyboard of some assets has an option with the target that a fault tells of, in the
panel that the fault tells of. -/
def TargetFault.OccursIn (f : TargetFault) (assets : List (String × Keyed Storyboard)) : Prop :=
  ∃ a ∈ assets, a.1 = f.asset ∧ ∃ b ∈ a.2.entries, b.1 = f.board ∧
    ∃ panel ∈ b.2.panels[f.panel]?, f.target ∈ panel.targets

instance (f : TargetFault) (assets : List (String × Keyed Storyboard)) :
    Decidable (f.OccursIn assets) :=
  inferInstanceAs (Decidable (∃ a ∈ assets, a.1 = f.asset ∧ ∃ b ∈ a.2.entries, b.1 = f.board ∧
    ∃ panel ∈ b.2.panels[f.panel]?, f.target ∈ panel.targets))

theorem TargetFault.OccursIn.mono {f : TargetFault} {assets more : List (String × Keyed Storyboard)}
    (h : f.OccursIn assets) (hmore : assets ⊆ more) : f.OccursIn more := by
  obtain ⟨a, ha, hplace⟩ := h
  exact ⟨a, hmore ha, hplace⟩

/-- Whether a name is that of a storyboard of some assets: that of its asset, a hyphen and its own,
or its own alone if that is the asset's. -/
def IsOffered (assets : List (String × Keyed Storyboard)) (name : String) : Prop :=
  ∃ a ∈ assets, ∃ board ∈ a.2.keys, name = s!"{a.1}-{board}" ∨ board = a.1 ∧ name = board

instance (assets : List (String × Keyed Storyboard)) (name : String) :
    Decidable (IsOffered assets name) :=
  inferInstanceAs (Decidable (∃ a ∈ assets, ∃ board ∈ a.2.keys,
    name = s!"{a.1}-{board}" ∨ board = a.1 ∧ name = board))

theorem IsOffered.mono {assets more : List (String × Keyed Storyboard)} {name : String}
    (h : IsOffered assets name) (hmore : assets ⊆ more) : IsOffered more name := by
  obtain ⟨a, ha, hname⟩ := h
  exact ⟨a, hmore ha, hname⟩

namespace Library

/-- The names that a library offers are those of its assets. -/
theorem offers_iff {l : Library} {name : String} :
    l.offers name = true ↔ IsOffered l.assets.entries name := by
  rw [offers, IsOffered]
  simp only [List.any_eq_true, Bool.or_eq_true, Bool.and_eq_true, decide_eq_true_eq]

/-- The faults of a library are the targets of its options that something is wrong with. -/
theorem mem_targetFaults_iff {l : Library} {f : TargetFault} :
    f ∈ l.targetFaults ↔ l.problem? f.target = some f.problem ∧ f.OccursIn l.assets.entries := by
  simp only [targetFaults, sorted, TargetFault.OccursIn, List.mem_flatMap, List.mem_map,
    List.mem_filterMap]
  constructor
  · rintro ⟨_, ⟨⟨asset, boards⟩, hasset, rfl⟩, ⟨board, content⟩, hboard, ⟨panel, place⟩, hpanel, target,
      htarget, hfault⟩
    obtain ⟨problem, hproblem, rfl⟩ := Option.map_eq_some_iff.mp hfault
    exact ⟨hproblem, _, Keyed.mem_sorted.mp hasset, rfl, _, Keyed.mem_sorted.mp hboard, rfl, panel,
      List.mem_zipIdx_iff_getElem?.mp hpanel, htarget⟩
  · rintro ⟨hproblem, ⟨asset, boards⟩, hasset, rfl, ⟨board, content⟩, hboard, rfl, panel, hpanel,
      htarget⟩
    refine ⟨_, ⟨⟨_, boards⟩, Keyed.mem_sorted.mpr hasset, rfl⟩, ⟨_, content⟩,
      Keyed.mem_sorted.mpr hboard, ⟨panel, f.panel⟩, List.mem_zipIdx_iff_getElem?.mpr hpanel, f.target,
      htarget, ?_⟩
    rw [hproblem]
    rfl

end Library

namespace Program.Lint

/-! ### What is read -/

/-- Every file in a directory and below that is an asset is among those that are read. -/
theorem mem_assetFiles_iff {path : String} {files : List (List String × ByteArray)} {a : AssetFile} :
    a ∈ assetFiles path (.directory files) ↔
      ∃ e ∈ files, isAsset (e.1.getLastD "") = true ∧
        a = ⟨e.1.foldl inDirectory path, assetName (e.1.getLastD ""), e.2⟩ := by
  simp only [assetFiles, List.mem_map, List.mem_mergeSort, List.mem_filter]
  constructor
  · rintro ⟨e, ⟨he, hasset⟩, rfl⟩
    exact ⟨e, he, hasset, rfl⟩
  · rintro ⟨e, he, hasset, rfl⟩
    exact ⟨e, ⟨he, hasset⟩, rfl⟩

/-- The assets that can be read, each with its storyboards. -/
def readAssets (s : Markup.Settings) (files : List AssetFile) : List (String × Keyed Storyboard) :=
  files.filterMap fun a =>
    match decode a.content with
    | .ok text => some (a.name, (Markup.Report.ofAsset s a.name text).storyboards)
    | .error _ => none

/-- What is read are the storyboards of the files that hold text. -/
theorem mem_readAssets {s : Markup.Settings} {files : List AssetFile}
    {a : String × Keyed Storyboard} :
    a ∈ readAssets s files ↔ ∃ file ∈ files, ∃ text, decode file.content = .ok text ∧
      a = (file.name, (Markup.Report.ofAsset s file.name text).storyboards) := by
  rw [readAssets, List.mem_filterMap]
  constructor
  · rintro ⟨file, hfile, ha⟩
    split at ha
    · rename_i text htext
      cases ha
      exact ⟨file, hfile, text, htext, rfl⟩
    · cases ha
  · rintro ⟨file, hfile, text, htext, rfl⟩
    refine ⟨file, hfile, ?_⟩
    rw [htext]

/-- No file is missed: of a directory every asset in it and below is read, if it holds text. -/
theorem mem_readAssets_iff {s : Markup.Settings} {path : String}
    {files : List (List String × ByteArray)} {a : String × Keyed Storyboard} :
    a ∈ readAssets s (assetFiles path (.directory files)) ↔
      ∃ e ∈ files, isAsset (e.1.getLastD "") = true ∧ ∃ text, decode e.2 = .ok text ∧
        a.1 = assetName (e.1.getLastD "") ∧ a.2 = (Markup.Report.ofAsset s a.1 text).storyboards := by
  rw [mem_readAssets]
  constructor
  · rintro ⟨file, hfile, text, htext, rfl⟩
    obtain ⟨e, he, hasset, rfl⟩ := mem_assetFiles_iff.mp hfile
    exact ⟨e, he, hasset, text, htext, rfl, rfl⟩
  · obtain ⟨name, boards⟩ := a
    rintro ⟨e, he, hasset, text, htext, rfl, hboards⟩
    exact ⟨_, mem_assetFiles_iff.mpr ⟨e, he, hasset, rfl⟩, text, htext, by rw [← hboards]⟩

theorem assets_foldl_add (s : Markup.Settings) (files : List AssetFile) (f : Findings) :
    (files.foldl (Findings.add s) f).library.assets =
      (readAssets s files).foldl (fun t e => t.insert e.1 e.2) f.library.assets := by
  induction files generalizing f with
  | nil => rfl
  | cons a files ih =>
    rw [List.foldl_cons, ih]
    cases hcontent : decode a.content with
    | error e => simp [Findings.add, readAssets, hcontent]
    | ok text => simp [Findings.add, readAssets, hcontent]

/-- Of several assets with one name, the last is in the library. -/
theorem mem_library_iff {s : Markup.Settings} {files : List AssetFile}
    {a : String × Keyed Storyboard} :
    a ∈ (Findings.ofAssets s files).library.assets.entries ↔ a ∈ lastNamed (readAssets s files) := by
  rw [Findings.ofAssets, assets_foldl_add, Keyed.mem_foldl_insert_iff]
  constructor
  · rintro (h | ⟨h, -⟩)
    · exact h
    · cases h
  · exact Or.inl

/-! ### Dead targets -/

/-- Whether a reference is one to a storyboard of a text asset, but to none of those that some assets
hold: neither by the names of asset and storyboard nor by the one name of both. -/
def IsDead (assets : List (String × Keyed Storyboard)) (target : String) : Prop :=
  ∃ u ∈ Uri.parse? target, u.isData = true ∧ ∀ a ∈ assets, ∀ board ∈ a.2.keys,
    u.boardName ≠ s!"{a.1}-{board}" ∧ ¬(board = a.1 ∧ u.boardName = board)

instance (assets : List (String × Keyed Storyboard)) (target : String) :
    Decidable (IsDead assets target) :=
  inferInstanceAs (Decidable (∃ u ∈ Uri.parse? target, u.isData = true ∧
    ∀ a ∈ assets, ∀ board ∈ a.2.keys,
      u.boardName ≠ s!"{a.1}-{board}" ∧ ¬(board = a.1 ∧ u.boardName = board)))

theorem problem?_of_isDead {assets : List (String × Keyed Storyboard)} {target : String}
    (h : IsDead assets target) {l : Library} (hl : l.assets.entries ⊆ assets) :
    l.problem? target = some .noStoryboard := by
  obtain ⟨u, hu, hdata, hdead⟩ := h
  have hoffers : l.offers u.boardName = false := by
    rw [← Bool.not_eq_true, Library.offers_iff]
    rintro ⟨a, ha, board, hboard, hname⟩
    obtain ⟨hboth, hone⟩ := hdead a (hl ha) board hboard
    rcases hname with hname | hname
    · exact hboth hname
    · exact hone hname
  rw [Library.problem?, Option.mem_def.mp hu]
  simp [hdata, hoffers]

/-- What the linter does when its arguments are in order. -/
theorem run_eq [Record.Formats] {look : Look} {path : String} {args : List String} {o : Options}
    {found : Found} (hpath : path ≠ "--help" ∧ path ≠ "-h")
    (hoptions : Options.read look {} args = .ok o) (hfound : look path = .ok found) :
    run look (path :: args) =
      let findings := Findings.ofAssets o.settings (assetFiles path found)
      .printed (if findings.errors.isEmpty then 0 else 1) (findings.lines o.summary) := by
  rw [run, if_neg (by simp [hpath.1, hpath.2]), hoptions]
  simp only [hfound]

/-- Every fault of a target is an error that is printed. -/
theorem Findings.told_of_mem_targetFaults {findings : Findings} {f : TargetFault}
    (hf : f ∈ findings.library.targetFaults) (summary : Bool) :
    findings.errors.isEmpty = false ∧ s!"ERROR: {f.message}" ∈ findings.lines summary := by
  have herror : f.message ∈ findings.errors := List.mem_append_right _ (List.mem_map_of_mem hf)
  refine ⟨List.isEmpty_eq_false_iff.mpr (List.ne_nil_of_mem herror), ?_⟩
  rw [Findings.lines]
  exact List.mem_append_left _ (List.mem_append_right _ (List.mem_map.mpr ⟨_, herror, rfl⟩))

/-! ### Two assets of one name -/

/-- Files with one inn each in two directories. -/
def twoInns (north south : ByteArray) : Files :=
  Files.ofPaths [("assets/north/inn.txt", north), ("assets/south/inn.txt", south)]

/-- What stands in the directory with two inns. -/
def innsFound (north south : ByteArray) : Found :=
  .directory [(["north", "inn.txt"], north), (["south", "inn.txt"], south)]

theorem look_twoInns (north south : ByteArray) :
    (twoInns north south).look "assets" = .ok (innsFound north south) := by
  with_unfolding_all rfl

theorem assetFiles_innsFound (north south : ByteArray) :
    assetFiles "assets" (innsFound north south) =
      [⟨"assets/north/inn.txt", "inn", north⟩, ⟨"assets/south/inn.txt", "inn", south⟩] := by
  have hasset : isAsset "inn.txt" = true := by decide +kernel
  have hname : assetName "inn.txt" = "inn" := by decide +kernel
  have hnorth : ["north", "inn.txt"].foldl inDirectory "assets" = "assets/north/inn.txt" := by
    decide +kernel
  have hsouth : ["south", "inn.txt"].foldl inDirectory "assets" = "assets/south/inn.txt" := by
    decide +kernel
  have horder : ¬["south", "inn.txt"] < ["north", "inn.txt"] := by decide
  simp only [assetFiles, innsFound, List.filter_cons, List.getLastD, hasset, List.filter_nil, if_true,
    List.getLast]
  rw [List.mergeSort_of_pairwise]
  · simp only [List.map_cons, List.map_nil, List.getLast, hname, hnorth, hsouth]
  · rw [List.pairwise_pair]
    simpa only [Bool.not_eq_true', decide_eq_false_iff_not] using horder

/-- An inn whose door leads nowhere. -/
def hall : ByteArray := ">>door\n|Hello\n".toUTF8

/-- An inn whose door leads into a cellar. -/
def stairs : ByteArray := ">>door\n-1-<cellar\n".toUTF8

/-- The door of an inn leads into a cellar that the inn does not have. -/
def cellarFault : TargetFault := ⟨"inn", "door", 0, "data:inn-cellar", .noStoryboard⟩

/-! ### What is told -/

/-- Of a reference that leads to no storyboard of any asset that can be read, the linter tells
exactly where the last asset of a name has it; whatever it tells of is printed as an error, and the
linter fails. Where no two assets have one name, it tells of every such reference. -/
theorem dead_target_told_iff [Record.Formats] {look : Look} {path : String} {args : List String}
    {o : Options} {found : Found} {f : TargetFault} (hpath : path ≠ "--help" ∧ path ≠ "-h")
    (hoptions : Options.read look {} args = .ok o) (hfound : look path = .ok found)
    (hdead : IsDead (readAssets o.settings (assetFiles path found)) f.target) :
    let assets := readAssets o.settings (assetFiles path found)
    let faults := (Findings.ofAssets o.settings (assetFiles path found)).library.targetFaults
    (f ∈ faults ↔ f.problem = .noStoryboard ∧ f.OccursIn (lastNamed assets)) ∧
      (f ∈ faults → ∃ lines,
        run look (path :: args) = .printed 1 lines ∧ s!"ERROR: {f.message}" ∈ lines) ∧
      ((assets.map Prod.fst).Nodup → f.OccursIn assets → f.OccursIn (lastNamed assets)) := by
  intro assets faults
  have hlibrary : (Findings.ofAssets o.settings (assetFiles path found)).library.assets.entries ⊆
      lastNamed assets := fun _ => mem_library_iff.mp
  have hproblem := problem?_of_isDead hdead (List.Subset.trans hlibrary (lastNamed_subset assets))
  refine ⟨?told, ?printed, ?distinct⟩
  case told =>
    rw [Library.mem_targetFaults_iff, hproblem, Option.some.injEq]
    constructor
    · rintro ⟨hnone, hoccurs⟩
      exact ⟨hnone.symm, hoccurs.mono hlibrary⟩
    · rintro ⟨hnone, hoccurs⟩
      exact ⟨hnone.symm, hoccurs.mono fun _ => mem_library_iff.mpr⟩
  case printed =>
    intro hf
    obtain ⟨herrors, hline⟩ := Findings.told_of_mem_targetFaults hf o.summary
    refine ⟨_, ?_, hline⟩
    rw [run_eq hpath hoptions hfound]
    simp only [herrors, Bool.false_eq_true, if_false]
  case distinct =>
    intro hnodup hoccurs
    rwa [lastNamed_of_nodup hnodup]

theorem dead_target_told_iff_inns :
    ∃ lines, run (twoInns hall stairs).look ["assets"] = .printed 1 lines ∧
      "ERROR: inn/door panel 0: target 'data:inn-cellar' does not match any storyboard" ∈ lines := by
  have hassets := assetFiles_innsFound hall stairs
  have hoptions : Options.read (twoInns hall stairs).look {} [] = .ok {} := rfl
  obtain ⟨htold, hprinted, -⟩ := dead_target_told_iff (f := cellarFault) (by decide) hoptions
    (look_twoInns _ _) (by rw [hassets]; decide +kernel)
  rw [hassets] at htold hprinted
  obtain ⟨lines, hrun, hline⟩ := hprinted (htold.mpr (by decide +kernel))
  have htext : s!"ERROR: {cellarFault.message}" =
      "ERROR: inn/door panel 0: target 'data:inn-cellar' does not match any storyboard" := by
    decide +kernel
  exact ⟨lines, hrun, htext ▸ hline⟩

/-- An inn that leads into a cellar there is not, but of that nothing is told: another inn comes
behind it. -/
theorem dead_target_untold :
    let files := twoInns stairs hall
    ∃ found, files.look "assets" = .ok found ∧
      IsDead (readAssets {} (assetFiles "assets" found)) cellarFault.target ∧
      cellarFault.OccursIn (readAssets {} (assetFiles "assets" found)) ∧
      run files.look ["assets"] = .printed 0 [
        "  Loaded: assets/north/inn.txt (1 storyboards)",
        "  Loaded: assets/south/inn.txt (1 storyboards)",
        "", "=== Storyboard Lint Report ===", "", "All checks passed!", "",
        "Summary: 1 assets, 0 errors, 0 warnings"] := by
  have hassets := assetFiles_innsFound stairs hall
  refine ⟨_, look_twoInns _ _, ?dead, ?occurs, ?run⟩
  case dead =>
    rw [hassets]
    decide +kernel
  case occurs =>
    rw [hassets]
    decide +kernel
  case run =>
    rw [run_eq (by decide) rfl (look_twoInns _ _), hassets]
    generalize hfindings : Findings.ofAssets _ _ = findings
    have hnone : ∀ a ∈ findings.library.assets.entries, ∀ b ∈ a.2.entries, ∀ panel ∈ b.2.panels,
        panel.targets = [] := by
      rw [← hfindings]
      decide +kernel
    have hfaults : findings.library.targetFaults = [] := by
      rw [List.eq_nil_iff_forall_not_mem]
      intro f hf
      obtain ⟨-, a, ha, -, b, hb, -, panel, hpanel, htarget⟩ := Library.mem_targetFaults_iff.mp hf
      rw [hnone a ha b hb panel (List.mem_of_getElem? hpanel)] at htarget
      cases htarget
    simp only [Findings.lines, Findings.errors, hfaults]
    rw [← hfindings]
    decide +kernel

end Program.Lint

end Adventure
