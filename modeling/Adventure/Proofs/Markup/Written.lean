import Adventure.Condition.Script
import Adventure.Markup.Settings
import Adventure.Proofs.Effect.Mutation
import Adventure.Proofs.Text.Lines
import Adventure.Proofs.Text.Trim
import Adventure.Storyboard
import Mathlib.Data.List.Chain
import Mathlib.Data.List.Infix

/-!
Storyboards as they are written: `written` is the asset that has them, and a storyboard is
`WellFormed` if markup can express it. That what is written is read back is shown in two further
modules, first for its lines and then for what they mean.
-/

namespace Adventure

/-! ### What can be written -/

/-- Whether a text is a property: a key and a value, each a trimmed line, of which the key is not
empty and holds no equals sign. -/
structure IsProperty (p : String × String) : Prop where
  key : Text.IsLine p.1.toList
  key_ne : p.1.toList ≠ []
  no_equals : '=' ∉ p.1.toList
  value : Text.IsLine p.2.toList

/-- Whether a text has at most `limit` lines, all trimmed. The empty text has one. -/
def IsText (limit : Nat) (text : String) : Prop :=
  (text.toList.splitOn '\n').length ≤ limit ∧
    ∀ line ∈ text.toList.splitOn '\n', Text.trim line = line

/-- Whether a guard is one trimmed line, not empty, and can be parsed. -/
structure IsGuard (guard : String) : Prop where
  line : Text.IsLine guard.toList
  ne : guard.toList ≠ []
  parses : ∃ t, Condition.parse guard = .ok t

/-- Whether a text is a full reference: one trimmed line with a colon in it. -/
def IsReference (target : String) : Prop := Text.IsLine target.toList ∧ ':' ∈ target.toList

/-- The mark before the target of an option. -/
def arrow : List Char := ['-', '<']

structure DecisionOption.WellFormed (o : DecisionOption) : Prop where
  order : 0 ≤ o.order.val
  text : Text.IsLine o.text.toList
  no_arrow : ¬arrow <:+: o.text.toList
  target : IsReference o.targetUri
  guard : ∀ g ∈ o.guard, IsGuard g

structure BranchOption.WellFormed (o : BranchOption) : Prop where
  order : 0 ≤ o.order.val
  target : IsReference o.targetUri
  no_arrow : ¬arrow <:+: o.targetUri.toList
  guard : ∀ g ∈ o.guard, IsGuard g

/-- Whether the names of the traits of an effect can stand in quotes: they hold no quote, no line
feed and no sign. -/
def Effect.WellFormed (e : Effect) : Prop :=
  ∀ name ∈ e.traits, ∀ c ∈ name.toList, c ≠ '"' ∧ c ≠ '\n' ∧ c ≠ '+' ∧ c ≠ '-' ∧ c ≠ '='

/-- Whether a panel keeps within the limits and has at least one option if it has any to offer. -/
def PanelBody.WellFormed (s : Markup.Settings) : PanelBody → Prop
  | narration text effect => IsText s.maxNarrationLines text ∧ effect.WellFormed
  | decision prompt options =>
    IsText s.maxPromptLines prompt ∧ options ≠ [] ∧ ∀ o ∈ options, o.WellFormed
  | branch options => options ≠ [] ∧ ∀ o ∈ options, o.WellFormed

structure Panel.WellFormed (s : Markup.Settings) (p : Panel) : Prop where
  properties : ∀ e ∈ p.properties.entries, IsProperty e
  body : p.body.WellFormed s

/-- Whether a panel may stand behind another one. The options of two branches can be told apart only
by properties in between. -/
def Panel.MayFollow (before p : Panel) : Prop :=
  before.kind = .branch → p.kind = .branch → p.properties.entries ≠ []

structure Storyboard.WellFormed (s : Markup.Settings) (b : Storyboard) : Prop where
  name : Text.IsLine b.id.toList
  name_ne : b.id.toList ≠ []
  properties : ∀ e ∈ b.properties.entries, IsProperty e
  panels : ∀ p ∈ b.panels, p.WellFormed s
  parted : b.panels.IsChain Panel.MayFollow

/-! ### Deciding it -/

instance (p : String × String) : Decidable (IsProperty p) :=
  decidable_of_iff (Text.IsLine p.1.toList ∧ p.1.toList ≠ [] ∧ '=' ∉ p.1.toList ∧
      Text.IsLine p.2.toList)
    ⟨fun h => ⟨h.1, h.2.1, h.2.2.1, h.2.2.2⟩, fun h => ⟨h.key, h.key_ne, h.no_equals, h.value⟩⟩

instance (limit : Nat) (text : String) : Decidable (IsText limit text) :=
  inferInstanceAs (Decidable (_ ∧ _))

theorem parses_iff {guard : String} :
    (∃ t, Condition.parse guard = .ok t) ↔ (Condition.parse guard).isOk = true := by
  cases Condition.parse guard with
  | ok t => simp [Except.isOk, Except.toBool]
  | error e => simp [Except.isOk, Except.toBool]

instance (guard : String) : Decidable (IsGuard guard) :=
  decidable_of_iff (Text.IsLine guard.toList ∧ guard.toList ≠ [] ∧
      (Condition.parse guard).isOk = true)
    ⟨fun h => ⟨h.1, h.2.1, parses_iff.mpr h.2.2⟩, fun h => ⟨h.line, h.ne, parses_iff.mp h.parses⟩⟩

instance (target : String) : Decidable (IsReference target) := inferInstanceAs (Decidable (_ ∧ _))

instance (o : DecisionOption) : Decidable o.WellFormed :=
  decidable_of_iff (0 ≤ o.order.val ∧ Text.IsLine o.text.toList ∧ ¬arrow <:+: o.text.toList ∧
      IsReference o.targetUri ∧ ∀ g ∈ o.guard, IsGuard g)
    ⟨fun h => ⟨h.1, h.2.1, h.2.2.1, h.2.2.2.1, h.2.2.2.2⟩,
      fun h => ⟨h.order, h.text, h.no_arrow, h.target, h.guard⟩⟩

instance (o : BranchOption) : Decidable o.WellFormed :=
  decidable_of_iff (0 ≤ o.order.val ∧ IsReference o.targetUri ∧ ¬arrow <:+: o.targetUri.toList ∧
      ∀ g ∈ o.guard, IsGuard g)
    ⟨fun h => ⟨h.1, h.2.1, h.2.2.1, h.2.2.2⟩, fun h => ⟨h.order, h.target, h.no_arrow, h.guard⟩⟩

instance (e : Effect) : Decidable e.WellFormed :=
  have (name : String) : Decidable
      (∀ c ∈ name.toList, c ≠ '"' ∧ c ≠ '\n' ∧ c ≠ '+' ∧ c ≠ '-' ∧ c ≠ '=') :=
    List.decidableBAll _ _
  List.decidableBAll _ _

instance (s : Markup.Settings) : (body : PanelBody) → Decidable (body.WellFormed s)
  | .narration _ _ => inferInstanceAs (Decidable (_ ∧ _))
  | .decision _ _ => inferInstanceAs (Decidable (_ ∧ _ ∧ _))
  | .branch _ => inferInstanceAs (Decidable (_ ∧ _))

instance (s : Markup.Settings) (p : Panel) : Decidable (p.WellFormed s) :=
  decidable_of_iff ((∀ e ∈ p.properties.entries, IsProperty e) ∧ p.body.WellFormed s)
    ⟨fun h => ⟨h.1, h.2⟩, fun h => ⟨h.properties, h.body⟩⟩

instance : DecidableRel Panel.MayFollow := fun _ _ => inferInstanceAs (Decidable (_ → _ → _))

instance (s : Markup.Settings) (b : Storyboard) : Decidable (b.WellFormed s) :=
  decidable_of_iff (Text.IsLine b.id.toList ∧ b.id.toList ≠ [] ∧
      (∀ e ∈ b.properties.entries, IsProperty e) ∧ (∀ p ∈ b.panels, p.WellFormed s) ∧
      b.panels.IsChain Panel.MayFollow)
    ⟨fun h => ⟨h.1, h.2.1, h.2.2.1, h.2.2.2.1, h.2.2.2.2⟩,
      fun h => ⟨h.name, h.name_ne, h.properties, h.panels, h.parted⟩⟩

/-! ### How it is written -/

namespace Markup

/-- What is left open about how storyboards are written: how many blank lines stand behind a panel,
which may depend on the panels still to come, and whether a narration that changes nothing has an
effect line. -/
structure Layout where
  gap : List Panel → Nat
  bareEffects : Bool

/-- Whether the lines of two narrations are kept apart. -/
def Layout.Separates (layout : Layout) : Prop :=
  (∀ p ps, 0 < layout.gap (p :: ps)) ∨ layout.bareEffects = true

/-- A property of a panel. -/
def propertyLine (p : String × String) : List Char := '&' :: (p.1.toList ++ '=' :: p.2.toList)

/-- The lines of a text, with a mark before each. -/
def textLines (mark : Char) (text : String) : List (List Char) :=
  (text.toList.splitOn '\n').map (mark :: ·)

/-- The line of an effect, if it has one. -/
def effectLines (layout : Layout) (e : Effect) : List (List Char) :=
  if e.isEmpty && !layout.bareEffects then [] else [':' :: Effect.Mutation.line e.mutations]

/-- An option line with its guard, if it has one, on the line above. -/
def guardedLines (guard : Option String) (line : List Char) : List (List Char) :=
  guard.toList.map (fun g => '[' :: (g.toList ++ [']'])) ++ [line]

/-- An option of a decision. -/
def decisionLine (o : DecisionOption) : List Char :=
  '-' :: (Decimal.signed o.order.val ++
    '-' :: (o.text.toList ++ '-' :: '<' :: o.targetUri.toList))

/-- An option of a branch. -/
def branchLine (o : BranchOption) : List Char :=
  '-' :: (Decimal.signed o.order.val ++ '-' :: '<' :: o.targetUri.toList)

/-- What a panel shows or asks. -/
def bodyLines (layout : Layout) : PanelBody → List (List Char)
  | .narration text effect => textLines '|' text ++ effectLines layout effect
  | .decision prompt options =>
    textLines '?' prompt ++ options.flatMap fun o => guardedLines o.guard (decisionLine o)
  | .branch options => options.flatMap fun o => guardedLines o.guard (branchLine o)

/-- A panel: its properties, and what it shows or asks. -/
def panelLines (layout : Layout) (p : Panel) : List (List Char) :=
  p.properties.entries.map propertyLine ++ bodyLines layout p.body

/-- Panels one after another, with blank lines behind each. -/
def panelsLines (layout : Layout) : List Panel → List (List Char)
  | [] => []
  | p :: ps =>
    panelLines layout p ++ (List.replicate (layout.gap ps) [] ++ panelsLines layout ps)

/-- What stands before the panels of a storyboard: its name and its properties. -/
def headLines (b : Storyboard) : List (List Char) :=
  ('>' :: '>' :: b.id.toList) :: b.properties.entries.map fun p => '^' :: propertyLine p

/-- A storyboard: its name, its properties and its panels. -/
def boardLines (layout : Layout) (b : Storyboard) : List (List Char) :=
  headLines b ++ panelsLines layout b.panels

/-- The asset that has some storyboards. -/
def written (layout : Layout) (boards : List Storyboard) : String :=
  String.ofList (Text.unlines (boards.flatMap (boardLines layout)))

end Markup

end Adventure
