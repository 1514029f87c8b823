import Adventure.GameData
import Adventure.Markup.Settings
import Adventure.Record.Format

/-!
Game data, settings and lists of players as they are read from records.

A field that is missing holds the value that it has by default. All reading is done by what reads
the format; here is said which fields there are, what each is read as, and what its default is.
-/

namespace Adventure

open Record

namespace StatBlock

/-- Reads the stats that stand in fields, into a block that holds the others. -/
def readInto? (F : Format) (fields : List (String × F.Value)) (b : StatBlock) :
    List Stat → Option StatBlock
  | [] => some b
  | s :: rest => do readInto? F fields (b.set s (← F.field? fields s.fieldName 0 F.score?)) rest

/-- Reads the stats of a character. -/
def read? (F : Format) (v : F.Value) : Option StatBlock := do
  readInto? F (← F.fields? "StatBlock" (Stat.all.map Stat.fieldName) v) {} Stat.all

end StatBlock

/-- Reads death thresholds. -/
def Thresholds.read? (F : Format) (v : F.Value) : Option Thresholds := do
  let fields ← F.fields? "Thresholds" ["physical", "mental", "debt"] v
  return {
    physical := ← F.field? fields "physical" 0 F.score?
    mental := ← F.field? fields "mental" 0 F.score?
    debt := ← F.field? fields "debt" 0 F.score? }

/-- Reads a character. The name is taken as it is. -/
def Character.read? (F : Format) (v : F.Value) : Option Character := do
  let fields ← F.fields? "CharacterState" ["name", "title", "stats", "traits", "thresholds"] v
  return {
    name := ← F.field? fields "name" "" F.text?
    title := ← F.field? fields "title" "" F.text?
    stats := ← F.field? fields "stats" {} (StatBlock.read? F)
    traits := ← F.field? fields "traits" [] (F.list? F.text?)
    thresholds := ← F.field? fields "thresholds" {} (Thresholds.read? F) }

namespace GameData

/-- Reads game data. -/
def read? (F : Format) (v : F.Value) : Option GameData := do
  let fields ← F.fields? "GameData" ["characters", "encounter_traits", "session_traits"] v
  return {
    characters := ← F.field? fields "characters" [] (F.list? (Character.read? F))
    encounterTraits := ← F.field? fields "encounter_traits" [] (F.list? F.text?)
    sessionTraits := ← F.field? fields "session_traits" [] (F.list? F.text?) }

/-- Reads game data from a text in JSON. -/
def ofJson? [Formats] (s : String) : Option GameData :=
  (Formats.json.parse? s).bind (read? Formats.json)

/-- Reads game data from a text in RON. -/
def ofRon? [Formats] (s : String) : Option GameData :=
  (Formats.ron.parse? s).bind (read? Formats.ron)

end GameData

namespace Markup.Settings

/-- Reads settings. -/
def read? (F : Format) (v : F.Value) : Option Settings := do
  let fields ←
    F.fields? "ParserConfig" ["max_narration_lines", "max_prompt_lines", "validate_conditions"] v
  let default : Settings := {}
  return {
    maxNarrationLines :=
      ← F.field? fields "max_narration_lines" default.maxNarrationLines F.count?
    maxPromptLines := ← F.field? fields "max_prompt_lines" default.maxPromptLines F.count?
    validateConditions :=
      ← F.field? fields "validate_conditions" default.validateConditions F.bool? }

/-- Reads settings from a text in RON. -/
def ofRon? [Formats] (s : String) : Option Settings :=
  (Formats.ron.parse? s).bind (read? Formats.ron)

end Markup.Settings

/-- Reads a list of players, given by their places on the roster, from a text in JSON. -/
def Record.playersOfJson? [Formats] (s : String) : Option (List Nat) :=
  (Formats.json.parse? s).bind (Formats.json.list? Formats.json.count?)

end Adventure
