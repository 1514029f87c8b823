import Adventure.Proofs.Markup.OptionLine
import Adventure.Proofs.Program.Lint

/-!
What the linter and the players make of the references in an asset that is read alone.

The linter looks for the storyboard of a reference among the names that the asset offers. The players
take the name of the asset off the front and look for a storyboard of the name that is left. The two
agree on every reference but one (`local_target_told_iff`): a storyboard with the name of its asset
is offered under that name alone, and this leads players nowhere (`asset_name_leads_nowhere`).
-/

namespace Adventure

/-- What is left of a string behind its start. -/
theorem Text.map_after?_eq_some_iff {start s rest : String} :
    (Text.after? start.toList s.toList).map String.ofList = some rest ↔ s = start ++ rest := by
  rw [Option.map_eq_some_iff, String.ext_iff, String.toList_append]
  constructor
  · rintro ⟨cs, hcs, rfl⟩
    rw [Text.after?_eq_some_iff.mp hcs, String.toList_ofList]
  · intro hs
    exact ⟨rest.toList, Text.after?_eq_some_iff.mpr hs, String.ofList_toList⟩

/-- The name that players look for is what stands behind the name of the asset and a hyphen. -/
theorem Uri.localName?_eq_some_iff {asset target name : String} {u : Uri}
    (hu : parse? target = some u) (hdata : u.isData = true) :
    localName? asset target = some name ↔ u.boardName = s!"{asset}-{name}" := by
  rw [localName?, hu]
  simp only [hdata, if_true]
  exact Text.map_after?_eq_some_iff

namespace Library

/-- The library of an asset that is read alone. -/
def single (asset : String) (boards : Keyed Storyboard) : Library :=
  ⟨(∅ : Keyed _).insert asset boards⟩

theorem offers_single_iff {asset name : String} {boards : Keyed Storyboard} :
    (single asset boards).offers name = true ↔
      (∃ board ∈ boards.keys, name = s!"{asset}-{board}") ∨ name = asset ∧ asset ∈ boards.keys := by
  have hentries : (single asset boards).assets.entries = [(asset, boards)] := rfl
  rw [offers_iff, hentries]
  constructor
  · rintro ⟨a, ha, board, hboard, hname⟩
    cases List.mem_singleton.mp ha
    rcases hname with hname | ⟨rfl, rfl⟩
    · exact Or.inl ⟨board, hboard, hname⟩
    · exact Or.inr ⟨rfl, hboard⟩
  · rintro (⟨board, hboard, hname⟩ | ⟨rfl, hboard⟩)
    · exact ⟨_, List.mem_singleton_self _, board, hboard, Or.inl hname⟩
    · exact ⟨_, List.mem_singleton_self _, name, hboard, Or.inr ⟨rfl, rfl⟩⟩

end Library

namespace Program.Lint

/-- **Linter and players agree on all references but one.** Let an asset be read alone, and let a
reference of one of its options be one to a storyboard of a text asset. The linter tells that there
is no such storyboard exactly if players find no storyboard of the asset under the name that is left
to them, unless the reference gives the name of the asset alone and the asset has a storyboard of this
name: then the linter tells nothing, and no name is left to the players. -/
theorem local_target_told_iff (s : Markup.Settings) (asset text : String) :
    let boards := (Markup.Report.ofAsset s asset text).storyboards
    let library := Library.single asset boards
    ∀ f : TargetFault, f.problem = .noStoryboard → f.OccursIn library.assets.entries →
      ∀ u ∈ Uri.parse? f.target, u.isData = true →
        (f ∈ library.targetFaults ↔
          (¬∃ name ∈ boards.keys, Uri.localName? asset f.target = some name) ∧
            ¬(u.boardName = asset ∧ asset ∈ boards.keys)) ∧
        (u.boardName = asset → Uri.localName? asset f.target = none) := by
  intro boards library f hproblem hoccurs u hu hdata
  have hlocal : ∀ name,
      Uri.localName? asset f.target = some name ↔ u.boardName = s!"{asset}-{name}" :=
    fun name => Uri.localName?_eq_some_iff hu hdata
  constructor
  · have htold : library.problem? f.target = some .noStoryboard ↔
        ¬library.offers u.boardName = true := by
      rw [Library.problem?, Option.mem_def.mp hu]
      simp [hdata]
    rw [Library.mem_targetFaults_iff, and_iff_left hoccurs, hproblem, htold,
      Library.offers_single_iff, not_or]
    simp only [hlocal]
  · intro hname
    rw [Option.eq_none_iff_forall_not_mem]
    intro name hmem
    -- The name of the asset would be longer than itself.
    have hlength : u.boardName.length = (asset ++ "-" ++ name).length :=
      congrArg String.length ((hlocal name).mp hmem)
    have hhyphen : "-".length = 1 := rfl
    rw [String.length_append, String.length_append, hname] at hlength
    omega

/-- A tavern with two doors: the one into its cellar is in order, the one into an attic is told of. -/
theorem local_target_told_iff_tavern :
    let text := ">>\n-1-<cellar\n-2-<data:attics/tavern_night-attic\n>>cellar\n"
    let library := Library.single "tavern_night"
      (Markup.Report.ofAsset {} "tavern_night" text).storyboards
    let fault := fun target =>
      (⟨"tavern_night", "tavern_night", 0, target, .noStoryboard⟩ : TargetFault)
    fault "data:tavern_night-cellar" ∉ library.targetFaults ∧
      fault "data:attics/tavern_night-attic" ∈ library.targetFaults := by
  intro text library fault
  constructor
  · have htold := (local_target_told_iff {} "tavern_night" text (fault "data:tavern_night-cellar")
      rfl (by decide +kernel) ⟨"data", "tavern_night-cellar"⟩ (by decide +kernel) rfl).1
    rw [htold]
    decide +kernel
  · have htold := (local_target_told_iff {} "tavern_night" text
      (fault "data:attics/tavern_night-attic") rfl (by decide +kernel)
      ⟨"data", "attics/tavern_night-attic"⟩ (by decide +kernel) rfl).1
    rw [htold]
    decide +kernel

/-- A reference by the name of the asset alone leads players nowhere, but nothing is told of it: the
asset has a storyboard of this name. -/
theorem asset_name_leads_nowhere :
    let text := ">>\n-1-<data:tavern_night\n"
    let boards := (Markup.Report.ofAsset {} "tavern_night" text).storyboards
    let library := Library.single "tavern_night" boards
    let fault : TargetFault :=
      ⟨"tavern_night", "tavern_night", 0, "data:tavern_night", .noStoryboard⟩
    fault.OccursIn library.assets.entries ∧
      Uri.parse? fault.target = some ⟨"data", "tavern_night"⟩ ∧
      ¬(fault ∈ library.targetFaults ↔
        ¬∃ name ∈ boards.keys, Uri.localName? "tavern_night" fault.target = some name) := by
  intro text boards library fault
  have hoccurs : fault.OccursIn library.assets.entries := by decide +kernel
  have hproblem : library.problem? fault.target = none := by decide +kernel
  have hnone : ¬∃ name ∈ boards.keys, Uri.localName? "tavern_night" fault.target = some name := by
    decide +kernel
  refine ⟨hoccurs, by decide +kernel, ?_⟩
  rw [Library.mem_targetFaults_iff, hproblem]
  intro hagree
  cases (hagree.mpr hnone).1

end Program.Lint

end Adventure
