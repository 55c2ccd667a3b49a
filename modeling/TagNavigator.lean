import TagNavigator.Pattern.Source
import TagNavigator.Search.Lines
import TagNavigator.Search.LineAddress
import TagNavigator.Tag.Command
import TagNavigator.Tag.Error
import TagNavigator.Files.World
import TagNavigator.Preview
import TagNavigator.EditorCommand
import TagNavigator.Tag.Lookup
import TagNavigator.Tag.Completion
import TagNavigator.History.Scripted
import TagNavigator.Session.Commands
import TagNavigator.Config
import TagNavigator.CommandLine.Run
import TagNavigator.Main
import TagNavigator.Proofs.Tag.WrittenCommand
import TagNavigator.Proofs.Tag.FirstMatch
import TagNavigator.Proofs.History.Refinement
import TagNavigator.Proofs.Session.AllOrNothing
import TagNavigator.Proofs.History.Bounds
import TagNavigator.Proofs.Search.Extreme
import TagNavigator.Proofs.Pattern.Brackets
import TagNavigator.Proofs.Pattern.Denotes
import TagNavigator.Proofs.Pattern.Meaning
import TagNavigator.Proofs.Session.RoundTrip
import TagNavigator.Proofs.History.Refusal
import TagNavigator.Proofs.Workspace.Soundness
import TagNavigator.Proofs.Session.Attainable
import TagNavigator.Proofs.Session.Independence
import TagNavigator.Proofs.Session.Unsaved
import TagNavigator.Proofs.Tag.Records
import TagNavigator.Proofs.Tag.Agreement
import TagNavigator.Proofs.CommandLine.Output
import TagNavigator.Proofs.History.Recall
import TagNavigator.Proofs.Session.Provenance
import TagNavigator.Proofs.Workspace.Succession
import TagNavigator.Proofs.Session.SavedPositions
import TagNavigator.Proofs.Pattern.Spelling
import TagNavigator.Proofs.Tag.CommandSpelling
import TagNavigator.Proofs.Search.Next
import TagNavigator.Proofs.Config.Persistence
import TagNavigator.Proofs.Pattern.Compiling
import TagNavigator.Proofs.Tag.CommandEnd
import TagNavigator.Proofs.Tag.ExtensionFields
import TagNavigator.Proofs.Tag.Fallback
import TagNavigator.Proofs.Session.Boundaries
import TagNavigator.Proofs.Session.Guess
import TagNavigator.Proofs.Tag.Escaping
import TagNavigator.Proofs.Tag.Capping
import TagNavigator.Proofs.Tag.Grammar
import TagNavigator.Proofs.Tag.Significant
import TagNavigator.Proofs.Session.RefusedSwitch
import TagNavigator.Proofs.History.Stepping
import TagNavigator.Proofs.Preview
import TagNavigator.Proofs.Session.Loading
import TagNavigator.Proofs.Tag.Candidates
import TagNavigator.Proofs.Tag.Elsewhere
import TagNavigator.Proofs.Session.LineCommand
import TagNavigator.Proofs.Text.Sanitizing
