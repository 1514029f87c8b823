import Adventure.Text.Pieces

/-!
Files as the programs look at them: what stands at a path, and a set of files that are looked up by
path.

A path is looked up step by step from the directory that the files are in. Outside of it there are
directories above, but nothing in them can be seen.
-/

namespace Adventure.Program

/-- Why there is no text at a path. -/
inductive FileFault where
  | missing
  | isDirectory
  | notDirectory
  | nameTooLong
  | notText
deriving DecidableEq, Repr

/-- How a fault is reported. -/
def FileFault.message : FileFault → String
  | missing => "No such file or directory (os error 2)"
  | isDirectory => "Is a directory (os error 21)"
  | notDirectory => "Not a directory (os error 20)"
  | nameTooLong => "File name too long (os error 36)"
  | notText => "stream did not contain valid UTF-8"

/-- What stands at a path. -/
inductive Found where
  | file (content : ByteArray)
  /-- A directory, given by all files below it, each with the names that lead to it. -/
  | directory (files : List (List String × ByteArray))

/-- How a path is looked up. -/
abbrev Look := String → Except FileFault Found

/-- The text that some bytes stand for. -/
def decode (content : ByteArray) : Except FileFault String :=
  match String.fromUTF8? content with
  | some s => .ok s
  | none => .error .notText

/-- The text of what was found. -/
def Found.text : Found → Except FileFault String
  | file content => decode content
  | directory _ => .error .isDirectory

/-- The text at a path. -/
def Look.text (look : Look) (path : String) : Except FileFault String := do (← look path).text

/-- The steps of a path, which stand between its slashes. -/
def steps (path : String) : List String :=
  (go path.toList).map String.ofList
where
  /-- The pieces between slashes. -/
  go : List Char → List (List Char)
    | [] => [[]]
    | c :: cs =>
      if c = '/' then [] :: go cs
      else match go cs with
        | [] => [[c]]
        | first :: rest => (c :: first) :: rest

/-- The most bytes that one name may have. -/
def maxNameBytes : Nat := 255

/-- The most bytes that a path may have. -/
def maxPathBytes : Nat := 4095

/-- A place: the names that lead to it from the directory, or nothing for all that is outside. -/
abbrev Place := Option (List String)

/-- The directory above a place. -/
def Place.above : Place → Place
  | some (name :: names) => some (name :: names).dropLast
  | _ => none

/-- Files, each with the names that lead to it from one directory. -/
structure Files where
  files : List (List String × ByteArray) := []

namespace Files

/-- The files with some paths and contents. A step that stays where it is leads to no name. -/
def ofPaths (files : List (String × ByteArray)) : Files :=
  ⟨files.map fun (path, content) =>
    ((steps path).filter fun step => step ≠ "" && step ≠ ".", content)⟩

/-- The files below a place, each with the names that lead to it from there. -/
def below (fs : Files) (place : List String) : List (List String × ByteArray) :=
  fs.files.filterMap fun (names, content) =>
    if place.isPrefixOf names && place.length < names.length then
      some (names.drop place.length, content)
    else none

/-- What stands at a place. The directory itself is there even without any file in it, and nothing
can be seen of those outside. -/
def at? (fs : Files) : Place → Option Found
  | none => some (.directory [])
  | some names =>
    match fs.files.find? fun (other, _) => other = names with
    | some (_, content) => some (.file content)
    | none =>
      let inside := fs.below names
      if names.isEmpty || !inside.isEmpty then some (.directory inside) else none

/-- Where some steps lead from a place. -/
def walk (fs : Files) (place : Place) : List String → Except FileFault Place
  | [] => .ok place
  | step :: rest =>
    match fs.at? place with
    | none => .error .missing
    | some (.file _) => .error .notDirectory
    | some (.directory _) =>
      if step = "" || step = "." then fs.walk place rest
      else if step = ".." then fs.walk place.above rest
      else if maxNameBytes < step.utf8ByteSize then .error .nameTooLong
      else
        match place with
        | none => .error .missing
        | some names => fs.walk (some (names ++ [step])) rest

/-- Looks a path up. One that starts with a slash starts outside. -/
def look (fs : Files) : Look := fun path =>
  if path = "" then .error .missing
  else if maxPathBytes < path.utf8ByteSize then .error .nameTooLong
  else
    match fs.walk (if path.startsWith "/" then none else some []) (steps path) with
    | .error e => .error e
    | .ok place =>
      match fs.at? place with
      | some found => .ok found
      | none => .error .missing

end Files

end Adventure.Program
