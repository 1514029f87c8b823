import Adventure.Storyboard
import Adventure.Text.Decimal
import Adventure.Uri

/-!
Libraries: the storyboards of several assets, and whether their references lead anywhere.

Only references to storyboards of text assets can be judged. Such a reference is good if it names a
storyboard together with its asset, or a storyboard that has the name of its asset.
-/

namespace Adventure

/-- The storyboards of several assets, by the name of the asset and then by their own. -/
structure Library where
  assets : Keyed (Keyed Storyboard) := ∅

/-- What is wrong with a reference. -/
inductive TargetProblem where
  | notReference
  | noStoryboard
deriving DecidableEq, Repr

/-- A reference that is wrong, with its place. -/
structure TargetFault where
  asset : String
  board : String
  panel : Nat
  target : String
  problem : TargetProblem
deriving DecidableEq, Repr

/-- What an author is told. -/
def TargetFault.message (f : TargetFault) : String :=
  let problem := match f.problem with
    | .notReference => "is not a URI"
    | .noStoryboard => "does not match any storyboard"
  s!"{f.asset}/{f.board} panel {Decimal.ofNat f.panel}: target '{f.target}' {problem}"

namespace Library

/-- The assets in alphabetical order, each with its storyboards in alphabetical order. -/
def sorted (l : Library) : List (String × List (String × Storyboard)) :=
  l.assets.sorted.map fun (asset, boards) => (asset, boards.sorted)

/-- Whether a storyboard goes by a name: that of its asset, a hyphen and its own, or its own alone
if that is the asset's. -/
def offers (l : Library) (name : String) : Bool :=
  l.assets.entries.any fun (asset, boards) =>
    boards.keys.any fun board => name = s!"{asset}-{board}" || (board = asset && name = board)

/-- What is wrong with a reference, if anything is. -/
def problem? (l : Library) (target : String) : Option TargetProblem :=
  match Uri.parse? target with
  | none => some .notReference
  | some u => if u.isData && !l.offers u.boardName then some .noStoryboard else none

/-- The references that are wrong, in the order of assets, storyboards, panels and options. -/
def targetFaults (l : Library) : List TargetFault :=
  l.sorted.flatMap fun (asset, boards) =>
    boards.flatMap fun (board, content) =>
      content.panels.zipIdx.flatMap fun (panel, place) =>
        panel.targets.filterMap fun target =>
          (l.problem? target).map fun problem => ⟨asset, board, place, target, problem⟩

end Library

end Adventure
