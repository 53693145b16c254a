import EntityScaffold.Job.World
import EntityScaffold.Main
import EntityScaffold.Proofs.Run.DryRun
import EntityScaffold.Proofs.Run.Repetition
import EntityScaffold.Proofs.Schema.Extraction
import EntityScaffold.Proofs.Text.LetterCase
import EntityScaffold.Proofs.Schema.LineReading
import EntityScaffold.Proofs.Schema.Sequence
import EntityScaffold.Proofs.Run.Extraction
import EntityScaffold.Proofs.Template.Views
import EntityScaffold.Proofs.Schema.Statements
import EntityScaffold.Proofs.Schema.TrailingComments
import EntityScaffold.Proofs.Schema.CommentedBlock
import EntityScaffold.Proofs.Schema.Layout
import EntityScaffold.Proofs.Schema.Canonical
import EntityScaffold.Proofs.SharedFile.Imports
import EntityScaffold.Proofs.Run.Imports
import EntityScaffold.Proofs.Job.Unattended
import EntityScaffold.Proofs.Run.Unattended
import EntityScaffold.Proofs.CommandLine.Program
import EntityScaffold.Proofs.CommandLine.Status
import EntityScaffold.Proofs.Run.Rendering
import EntityScaffold.Proofs.SharedFile.Again
import EntityScaffold.Proofs.CommandLine.Prompts
import EntityScaffold.Proofs.CommandLine.SettingsFailure
import EntityScaffold.Proofs.Settings.Stability
import EntityScaffold.Proofs.Run.Addresses
import EntityScaffold.Proofs.SharedFile.Appending
import EntityScaffold.Proofs.SharedFile.Document
import EntityScaffold.Proofs.SharedFile.Anchor
import EntityScaffold.Proofs.SharedFile.Presence
import EntityScaffold.Proofs.Run.Writing
import EntityScaffold.Proofs.Run.Rewriting
import EntityScaffold.Proofs.RequestChecks
import EntityScaffold.Proofs.Payload.Expectations
import EntityScaffold.Proofs.Payload.Gathering
import EntityScaffold.Proofs.Run.Documentation
import EntityScaffold.Proofs.Artifact.Distinctness
import EntityScaffold.Proofs.Naming.Plural
import EntityScaffold.Proofs.Run.KeptTemplates
