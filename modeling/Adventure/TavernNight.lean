import Adventure.Markup.Report
import Adventure.Play.Session

/-!
A short adventure to play: three characters spend a night at a tavern, split up over a job that a
stranger offers them, and meet again.
-/

namespace Adventure.TavernNight

/-- The name of the asset. -/
def assetName : String := "tavern_night"

/-- The asset. -/
def assetText : String := "# The Crooked Lantern: a short night at the tavern.
# The first storyboard has no name, so it is named after the asset.
>>
^&music=tavern_calm
&backdrop=backdrops/lantern_common_room.png
|Rain hammers the shutters of the Crooked Lantern.
|\x7bplayer\x7d shake off the cold and find a table by the hearth.

|A hooded stranger slides a tankard across the table.
:encounter+\"Stranger Met\"

?The stranger leans in. \"I need someone for a delicate job.\"
-10-Accept the job-<job
[character has trait \"Sneaky\"]
-5-Pick the stranger's pocket-<pickpocket
-20-Ignore them and order another round-<drinks

>>job
|\x7bplayer\x7d agree to meet the stranger at the docks at midnight.
:money+20 session+\"Docks Job\"

&can-split-party=false
[party strength > 12]
-10-<docks_brawl
-20-<docks_quiet

>>pickpocket
|\x7bplayer\x7d lift a heavy purse and a folded letter.
:money+35 dex+1 +\"Thief\"

>>drinks
|\x7bplayer\x7d drink until the rain stops.
:money-8 wil-1
:session+\"Hungover\"

>>docks_brawl
&interrupt=true
|Three thugs wait at the docks. \x7bplayer\x7d make short work of them.
:tuf-2 +\"Brawler\"

>>docks_quiet
|The docks are silent. The stranger never shows.
"

/-- A member of the party. Scores that are not given are middling. -/
def adventurer (name : String) (strength dexterity perception : Score) (traits : List String) :
    Character :=
  let five := Score.clamp 5
  { Character.named name with
    stats := {
      strength
      toughness := five
      dexterity
      perception
      magic := five
      knowledge := five
      charisma := five
      willpower := five
      lethality := five
      money := Score.clamp 10 }
    traits
    thresholds := { debt := Score.clamp (-20) } }

/-- The party. -/
def party : GameData :=
  { characters := [
      adventurer "Mira Vale" (.clamp 4) (.clamp 6) (.clamp 3) ["Sneaky"],
      adventurer "Brann Holt" (.clamp 7) (.clamp 2) (.clamp 2) ["Loud"],
      adventurer "Tessaly Quinn" (.clamp 3) (.clamp 3) (.clamp 5) []] }

/-- A line under which a part of the output begins or ends. -/
def rule : String := "========================================"

/-- A score filled up on the left. -/
def column (width : Nat) (s : Score) : String := Text.padLeft width (Decimal.ofInt s.val)

/-- A row of the table at the end. -/
def row (c : Character) : String :=
  s!"{Text.padRight 14 c.name} STR {column 2 (c.stat .strength)}" ++
    s!"  TUF {column 2 (c.stat .toughness)}  DEX {column 2 (c.stat .dexterity)}" ++
    s!"  WIL {column 2 (c.stat .willpower)}  MONEY {column 3 (c.stat .money)}" ++
    s!"  [{Text.commas c.traits}]"

/-- The most storyboards that the night may take. It takes far fewer. -/
def maxRounds : Nat := 1000

/-- The lines that tell of the whole night. -/
def transcript : List String :=
  let report := Markup.Report.ofAsset {} assetName assetText
  let everyone := List.range party.characters.length
  let (data, told) :=
    Play.playSession assetName report.storyboards maxRounds [⟨assetName, everyone⟩] party
  report.warnings.map (fun w => s!"WARNING: {w.display}") ++
    [rule, "   THE CROOKED LANTERN", "   A Tavern Night in Storyboards", rule, ""] ++
    told ++
    [rule, "   FIN", rule, ""] ++
    data.characters.map row ++
    [s!"Session: {Text.commas data.sessionTraits}"]

end Adventure.TavernNight
