import Adventure.Text.Blank
import Adventure.Text.Pieces

/-!
References to storyboards, written `scheme:path`. Storyboards that come from a text asset have the
scheme `data`.
-/

namespace Adventure

/-- A reference to a storyboard. -/
structure Uri where
  scheme : String
  path : String
deriving DecidableEq, Repr

namespace Uri

/-- The scheme of storyboards that come from text assets. -/
def dataScheme : String := "data"

/-- The reference that a target stands for in an asset. A target with a colon is one already; a bare
name is a storyboard of the same asset. -/
def resolve (asset target : String) : String :=
  let target := Text.trimmed target
  if target.toList.contains ':' then target else s!"{dataScheme}:{asset}-{target}"

/-- Reads a reference. There is none without a colon. -/
def parse? (s : String) : Option Uri :=
  (Text.splitAt? (· = ':') s.toList).map fun (scheme, path) =>
    ⟨String.ofList (Text.trim scheme), String.ofList (Text.trim path)⟩

/-- Whether the storyboard comes from a text asset. -/
def isData (u : Uri) : Bool := u.scheme = dataScheme

/-- The name of the storyboard: what follows the last slash of the path. -/
def boardName (u : Uri) : String :=
  match Text.splitAtLast? (· = '/') u.path.toList with
  | some (_, name) => String.ofList name
  | none => u.path

/-- The place of the asset: what stands before the last slash of the path. -/
def assetPath? (u : Uri) : Option String :=
  (Text.splitAtLast? (· = '/') u.path.toList).map fun (place, _) => String.ofList place

/-- The name that a reference has in an asset, if it is to a storyboard that the asset itself could
hold. -/
def localName? (asset reference : String) : Option String :=
  match parse? reference with
  | none => none
  | some u =>
    if u.isData then (Text.after? s!"{asset}-".toList u.boardName.toList).map String.ofList
    else none

/-- A reference as it is written. -/
def display (u : Uri) : String := s!"{u.scheme}:{u.path}"

end Uri

end Adventure
