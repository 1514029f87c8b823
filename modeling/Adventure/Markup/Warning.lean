import Adventure.Condition.Error
import Adventure.Effect.Line
import Adventure.Text.Pieces

/-!
Warnings about an asset. What a warning is about is left out; the rest of the asset is read.
-/

namespace Adventure.Markup

/-- What is wrong. -/
inductive Fault where
  | duplicateStoryboard (name : String)
  | outsideStoryboard (line : String)
  | invalidProperty (line : String)
  | unusedPanelProperties
  | invalidStat (word : String)
  | invalidStatValue (text : String)
  | unknownTraitScope (scope : String)
  | tooManyNarrationLines (limit : Nat)
  | tooManyPromptLines (limit : Nat)
  | emptyDecision
  | malformedDecision (line : String)
  | malformedBranch (line : String)
  | orphanOption (line : String)
  | danglingCondition
  | unclosedCondition
  | invalidCondition (condition : String) (error : Condition.Error)
  | unrecognizedLine (line : String)
deriving DecidableEq, Repr

namespace Fault

/-- The fault of a part of an effect line. -/
def ofIssue : Effect.Issue → Fault
  | .unknownStat word => invalidStat word
  | .unknownTraitScope scope => unknownTraitScope scope
  | .invalidValue text => invalidStatValue text

/-- What an author is told. -/
def message : Fault → String
  | duplicateStoryboard name =>
    s!"extra storyboard label \"{name}\"; each storyboard name may only appear once per asset"
  | outsideStoryboard line => s!"line \"{line}\" is not inside any storyboard"
  | invalidProperty line =>
    s!"invalid property \"{line}\"; must be of format " ++ "\x7bkey\x7d=\x7bvalue\x7d"
  | unusedPanelProperties =>
    "panel properties at the end of the storyboard are not attached to any panel"
  | invalidStat word => s!"invalid stat \"{word}\""
  | invalidStatValue text => s!"invalid stat value in \"{text}\""
  | unknownTraitScope scope =>
    s!"unknown trait scope \"{scope}\"; expected encounter, session or nothing"
  | tooManyNarrationLines limit =>
    s!"too many narration lines; maximum narration lines = {Decimal.ofNat limit}"
  | tooManyPromptLines limit =>
    s!"too many prompt lines; maximum prompt lines = {Decimal.ofNat limit}"
  | emptyDecision => "decision panel has no options"
  | malformedDecision line =>
    s!"malformed decision option \"{line}\"; expected -order-text-<target"
  | malformedBranch line => s!"malformed branch option \"{line}\"; expected -order-<target"
  | orphanOption line =>
    s!"option \"{line}\" does not belong to any decision or branch panel"
  | danglingCondition => "condition is not followed by an option line"
  | unclosedCondition => "condition is never closed with ']'"
  | invalidCondition condition error => s!"invalid condition \"{condition}\": {error.message}"
  | unrecognizedLine line => s!"unrecognized line \"{line}\""

end Fault

/-- A fault, the asset it is in and the numbers of the lines it is about. -/
structure Warning where
  asset : String
  lines : List Nat
  fault : Fault
deriving DecidableEq, Repr

/-- A warning with its place. -/
def Warning.display (w : Warning) : String :=
  let place := match w.lines with
    | [] => ""
    | [n] => s!" line {Decimal.ofNat n}"
    | ns => s!" lines {Text.commas (ns.map Decimal.ofNat)}"
  s!"storyboard asset \"{w.asset}\"{place}: {w.fault.message}"

end Adventure.Markup
