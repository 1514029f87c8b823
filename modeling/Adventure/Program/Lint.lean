import Adventure.Library
import Adventure.Markup.Report
import Adventure.Program.Files
import Adventure.Program.Result
import Adventure.Record.Schema

/-!
The linter: reads one asset, or all assets in a directory and below, and reports the warnings about
them and the references that lead nowhere.

Every file whose name ends in `.txt` is an asset with the rest of its name. If two have one name,
references are judged by the later one alone, in the order of their paths.
-/

namespace Adventure.Program.Lint

/-- How the program is called. -/
def usage : String :=
  "Usage: storyboard_linter <asset_or_dir> [--config <parser.ron>] [--summary]"

/-- What stands before and after the last point of a file name, unless it is the first character. -/
def stemAndExtension? (name : String) : Option (String × String) :=
  match Text.splitAtLast? (· = '.') name.toList with
  | none => none
  | some (stem, extension) =>
    if stem.isEmpty then none else some (String.ofList stem, String.ofList extension)

/-- The name of the asset in a file. -/
def assetName (fileName : String) : String :=
  match stemAndExtension? fileName with
  | some (stem, _) => stem
  | none => fileName

/-- Whether a file in a directory is an asset. -/
def isAsset (fileName : String) : Bool :=
  match stemAndExtension? fileName with
  | some (_, extension) => extension = "txt"
  | none => false

/-- A file that is read as an asset. -/
structure AssetFile where
  path : String
  name : String
  content : ByteArray

/-- The path of a name in a directory. -/
def inDirectory (directory name : String) : String :=
  if directory.endsWith "/" then directory ++ name else s!"{directory}/{name}"

/-- The last step of the path of a file. -/
def fileName (path : String) : String := (steps path).getLastD ""

/-- The assets at a path, sorted by the names in their paths. -/
def assetFiles (path : String) : Found → List AssetFile
  | .file content => [⟨path, assetName (fileName path), content⟩]
  | .directory files =>
    let assets := files.filter fun (names, _) => isAsset (names.getLastD "")
    let sorted := assets.mergeSort fun a b => !decide (b.1 < a.1)
    sorted.map fun (names, content) =>
      ⟨names.foldl inDirectory path, assetName (names.getLastD ""), content⟩

/-- What is found out about assets. -/
structure Findings where
  /-- The paths of the assets that were read, each with the number of its storyboards. -/
  loaded : List (String × Nat) := []
  library : Library := {}
  warnings : List Markup.Warning := []
  /-- What went wrong with files that could not be read. -/
  unreadable : List String := []

namespace Findings

/-- The findings together with those about a further asset. -/
def add (s : Markup.Settings) (f : Findings) (a : AssetFile) : Findings :=
  match decode a.content with
  | .error e => { f with unreadable := f.unreadable ++ [s!"Failed to read {a.path}: {e.message}"] }
  | .ok text =>
    let report := Markup.Report.ofAsset s a.name text
    { f with
      loaded := f.loaded ++ [(a.path, report.storyboards.size)]
      library := ⟨f.library.assets.insert a.name report.storyboards⟩
      warnings := f.warnings ++ report.warnings }

/-- The findings about some assets. -/
def ofAssets (s : Markup.Settings) (files : List AssetFile) : Findings := files.foldl (add s) {}

/-- Everything that counts as an error. -/
def errors (f : Findings) : List String :=
  f.unreadable ++ f.library.targetFaults.map TargetFault.message

/-- The storyboards of a library, each with the kinds of its panels. -/
def summary (l : Library) : List String :=
  l.sorted.flatMap fun (asset, boards) =>
    asset :: boards.map fun (name, board) =>
      let kinds := Text.commas (board.panels.map fun p => p.kind.word)
      s!"  >>{name} [{kinds}]"

/-- The lines of the report. -/
def lines (f : Findings) (withSummary : Bool) : List String :=
  let clean := f.errors.isEmpty && f.warnings.isEmpty
  f.loaded.map (fun (path, n) => s!"  Loaded: {path} ({Decimal.ofNat n} storyboards)") ++
    ["", "=== Storyboard Lint Report ===", ""] ++
    (if withSummary then summary f.library ++ [""] else []) ++
    (if clean then ["All checks passed!"] else []) ++
    f.warnings.map (fun w => s!"WARNING: {w.display}") ++
    f.errors.map (fun e => s!"ERROR: {e}") ++
    ["", s!"Summary: {Decimal.ofNat f.library.assets.size} assets, " ++
      s!"{Decimal.ofNat f.errors.length} errors, {Decimal.ofNat f.warnings.length} warnings"]

end Findings

variable [Record.Formats]

/-- The settings in a file. -/
def settingsAt (look : Look) (path : String) : Except String Markup.Settings :=
  match look.text path with
  | .error e => .error s!"ERROR: Failed to load parser config: IO error: {e.message}"
  | .ok text =>
    match Markup.Settings.ofRon? text with
    | some s => .ok s
    | none => .error "ERROR: Failed to load parser config: RON deserialization error"

/-- What is asked for besides a path. -/
structure Options where
  settings : Markup.Settings := {}
  summary : Bool := false
deriving DecidableEq, Repr

/-- Reads the arguments behind the path. Files with settings are read as they come up. -/
def Options.read (look : Look) (o : Options) : List String → Except String Options
  | [] => .ok o
  | "--config" :: path :: rest => do
    Options.read look { o with settings := ← settingsAt look path } rest
  | "--summary" :: rest => Options.read look { o with summary := true } rest
  | other :: _ => .error s!"Unknown argument: {other}"

/-- Runs the linter. -/
def run (look : Look) : List String → Result
  | [] => .printed 0 [usage]
  | path :: rest =>
    if path = "--help" || path = "-h" then .printed 0 [usage]
    else
      match Options.read look {} rest with
      | .error reason => .failed 1 reason
      | .ok options =>
        match look path with
        | .error _ => .failed 1 s!"ERROR: Path '{path}' does not exist"
        | .ok found =>
          let findings := Findings.ofAssets options.settings (assetFiles path found)
          .printed (if findings.errors.isEmpty then 0 else 1) (findings.lines options.summary)

end Adventure.Program.Lint
