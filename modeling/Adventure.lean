import Adventure.Main
import Adventure.Preview
import Adventure.Proofs.Condition.Acceptance
import Adventure.Proofs.Condition.Grammar
import Adventure.Proofs.Condition.Written
import Adventure.Proofs.Markup.Guards
import Adventure.Proofs.Markup.Boundary
import Adventure.Proofs.Play.Deaths
import Adventure.Proofs.Play.Footprint
import Adventure.Proofs.Play.Grouping
import Adventure.Proofs.Play.Parting
import Adventure.Proofs.Play.Rounds
import Adventure.Proofs.Program.Lint
import Adventure.Proofs.Text.Lines
import Adventure.Proofs.Markup.Renumber
import Adventure.Proofs.Markup.Lines
import Adventure.Proofs.Markup.Isolation
import Adventure.Proofs.Markup.Numbers
import Adventure.Proofs.Markup.LostGuards
import Adventure.Proofs.Markup.Kept
import Adventure.Proofs.Effect.Mutation
import Adventure.Proofs.Markup.Written
import Adventure.Proofs.Markup.OptionLine
import Adventure.Proofs.Markup.ReadBack
import Adventure.Proofs.Markup.Layout
import Adventure.Proofs.Markup.RoundTrip
import Adventure.Proofs.Program.LocalTargets
import Adventure.Proofs.Markup.Drafts
import Adventure.Proofs.Markup.Marks
import Adventure.Proofs.Markup.Places
import Adventure.Proofs.Condition.Folding
import Adventure.Proofs.Condition.Grouped
import Adventure.Proofs.Effect.Quotes
import Adventure.Proofs.Effect.Spelling
import Adventure.Proofs.Condition.InvalidCharacter
import Adventure.Proofs.Condition.Conservation
import Adventure.Proofs.Condition.ScopeCheck
import Adventure.Proofs.Condition.Mentioned
import Adventure.Proofs.Condition.ImplicitScope
import Adventure.Proofs.Condition.Growth
import Adventure.Proofs.Condition.SoleCharacter
import Adventure.Proofs.Condition.Dual
import Adventure.Proofs.Condition.Rewording
import Adventure.Proofs.Condition.Exchange
import Adventure.Proofs.Play.Wording
import Adventure.Proofs.Markup.PanelProperties
import Adventure.Proofs.Markup.Insertion
import Adventure.Proofs.Text.Cuts
import Adventure.Proofs.Markup.Tidy
import Adventure.Proofs.Program.Targets
import Adventure.Proofs.Play.Options
import Adventure.Proofs.Play.Pace
import Adventure.Proofs.Play.PartyName
import Adventure.Proofs.Play.PickOrder
import Adventure.Proofs.Markup.LookAhead
import Adventure.Proofs.Markup.Progress
import Adventure.Proofs.Program.Shell
import Adventure.Proofs.Record.GameData
