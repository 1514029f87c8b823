/-!
What an author may set about reading assets.
-/

namespace Adventure.Markup

/-- Limits and switches. -/
structure Settings where
  /-- The most lines that one narration may have. -/
  maxNarrationLines : Nat := 3
  /-- The most lines that one prompt may have. -/
  maxPromptLines : Nat := 2
  /-- Whether guards are checked when an asset is read. -/
  validateConditions : Bool := true
deriving DecidableEq, Repr

instance : Inhabited Settings := ⟨{}⟩

end Adventure.Markup
