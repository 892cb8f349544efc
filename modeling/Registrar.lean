import Registrar.CommandLine.Arguments
import Registrar.CommandLine.Grammar
import Registrar.CommandLine.Run
import Registrar.Config.Basic
import Registrar.Config.Discovery
import Registrar.Config.Document
import Registrar.Dialogue.Answer
import Registrar.Dialogue.Styled
import Registrar.Dialogue.Talk
import Registrar.Disk.Basic
import Registrar.Disk.Change
import Registrar.Disk.Folder
import Registrar.Failure
import Registrar.Glob
import Registrar.Json.Quoted
import Registrar.Json.Reader
import Registrar.Json.Value
import Registrar.Letter.Blank
import Registrar.Letter.Case
import Registrar.Letter.Kind
import Registrar.Letter.Range
import Registrar.Letter.Shown
import Registrar.Letter.Word
import Registrar.Main
import Registrar.Naming
import Registrar.Path.Basic
import Registrar.Path.Normal
import Registrar.Pattern.Basic
import Registrar.Pattern.Cursor
import Registrar.Pattern.Reach
import Registrar.Pattern.Reader
import Registrar.Preferences.Basic
import Registrar.Preferences.Document
import Registrar.Preferences.Store
import Registrar.Proofs.Disk.Again
import Registrar.Proofs.Disk.Change
import Registrar.Proofs.Disk.Normal
import Registrar.Proofs.Disk.Shape
import Registrar.Proofs.Disk.Walk
import Registrar.Proofs.Naming
import Registrar.Proofs.Naming.Guessed
import Registrar.Proofs.Path.Joined
import Registrar.Proofs.Pattern.Echo
import Registrar.Proofs.Pattern.Ends
import Registrar.Proofs.Pattern.Found
import Registrar.Proofs.Pattern.Preferred
import Registrar.Proofs.Pattern.Reached
import Registrar.Proofs.Pattern.Scan
import Registrar.Proofs.Pattern.Settled
import Registrar.Proofs.Preferences.Committed
import Registrar.Proofs.Preferences.Latest
import Registrar.Proofs.Preferences.Recent
import Registrar.Proofs.Preferences.Unsaved
import Registrar.Proofs.Registry.Admission
import Registrar.Proofs.Registry.Anchored
import Registrar.Proofs.Registry.Blocks
import Registrar.Proofs.Registry.Called
import Registrar.Proofs.Registry.Closing
import Registrar.Proofs.Registry.Continued
import Registrar.Proofs.Registry.Deletion
import Registrar.Proofs.Registry.Edited
import Registrar.Proofs.Registry.Ending
import Registrar.Proofs.Registry.Entries
import Registrar.Proofs.Registry.Exported
import Registrar.Proofs.Registry.Finding
import Registrar.Proofs.Registry.Forwarding
import Registrar.Proofs.Registry.Fragment
import Registrar.Proofs.Registry.Generated
import Registrar.Proofs.Registry.Growth
import Registrar.Proofs.Registry.Identifier
import Registrar.Proofs.Registry.Imported
import Registrar.Proofs.Registry.Inside
import Registrar.Proofs.Registry.Interposed
import Registrar.Proofs.Registry.Joined
import Registrar.Proofs.Registry.Lacking
import Registrar.Proofs.Registry.Layout
import Registrar.Proofs.Registry.Lined
import Registrar.Proofs.Registry.Listed
import Registrar.Proofs.Registry.Lookup
import Registrar.Proofs.Registry.Phrase
import Registrar.Proofs.Registry.Placed
import Registrar.Proofs.Registry.Pruned
import Registrar.Proofs.Registry.Purged
import Registrar.Proofs.Registry.Reading
import Registrar.Proofs.Registry.Recognised
import Registrar.Proofs.Registry.Remainder
import Registrar.Proofs.Registry.Removals
import Registrar.Proofs.Registry.Roster
import Registrar.Proofs.Registry.Siblings
import Registrar.Proofs.Registry.Statement
import Registrar.Proofs.Registry.Taken
import Registrar.Proofs.Registry.Template
import Registrar.Proofs.Registry.Usable
import Registrar.Proofs.Registry.Used
import Registrar.Proofs.Registry.Without
import Registrar.Proofs.Registry.Zoned
import Registrar.Proofs.Session.Choice
import Registrar.Proofs.Session.Heard
import Registrar.Proofs.Session.Kinship
import Registrar.Proofs.Session.Search
import Registrar.Proofs.Session.Shown
import Registrar.Proofs.Session.Taking
import Registrar.Proofs.Sorted
import Registrar.Proofs.Specifier
import Registrar.Proofs.Specifier.Decoded
import Registrar.Proofs.Specifier.Leading
import Registrar.Proofs.Specifier.Return
import Registrar.Proofs.Specifier.Rooted
import Registrar.Proofs.Text.Block
import Registrar.Proofs.Text.Braces
import Registrar.Proofs.Text.Grown
import Registrar.Proofs.Text.Insertion
import Registrar.Proofs.Text.Search
import Registrar.Proofs.Text.Simultaneous
import Registrar.Proofs.Text.Splicing
import Registrar.Proofs.Text.Word
import Registrar.Proofs.Workflow.Cleanup
import Registrar.Proofs.Workflow.Creating
import Registrar.Proofs.Workflow.Deleting
import Registrar.Proofs.Workflow.Halfway
import Registrar.Proofs.Workflow.Offering
import Registrar.Proofs.Workflow.Prompted
import Registrar.Proofs.Workflow.Quiet
import Registrar.Proofs.Workflow.Safety
import Registrar.Proofs.Workflow.Saving
import Registrar.Proofs.Workflow.SelfUse
import Registrar.Proofs.Workflow.Target
import Registrar.Proofs.Workflow.Twins
import Registrar.Proofs.Workflow.TwoPhase
import Registrar.Proofs.Workflow.Unstaged
import Registrar.Proofs.Workspace.Agreement
import Registrar.Proofs.Workspace.Coverage
import Registrar.Proofs.Workspace.InTurn
import Registrar.Proofs.Workspace.Inserted
import Registrar.Proofs.Workspace.Kept
import Registrar.Proofs.Workspace.Mention
import Registrar.Proofs.Workspace.Nested
import Registrar.Proofs.Workspace.Nesting
import Registrar.Proofs.Workspace.Provided
import Registrar.Proofs.Workspace.ReadBack
import Registrar.Proofs.Workspace.Readded
import Registrar.Proofs.Workspace.Repeated
import Registrar.Proofs.Workspace.Seen
import Registrar.Proofs.Workspace.Sources
import Registrar.Proofs.Workspace.Validated
import Registrar.Proofs.Workspace.Visible
import Registrar.Registry.Addition
import Registrar.Registry.Anchor
import Registrar.Registry.Recognition
import Registrar.Registry.Removal
import Registrar.Registry.Source
import Registrar.Registry.Usage
import Registrar.Registry.Zones
import Registrar.Session.Asking
import Registrar.Session.Basic
import Registrar.Session.RegistryChoice
import Registrar.Sorted
import Registrar.Specifier
import Registrar.Text.Basic
import Registrar.Text.Line
import Registrar.Text.Search
import Registrar.Text.Splice
import Registrar.Toml.Number
import Registrar.Toml.Reader
import Registrar.Toml.Value
import Registrar.Workflow.Basic
import Registrar.Workflow.Creation
import Registrar.Workflow.Membership
import Registrar.Workflow.Memory
import Registrar.Workflow.Survey
import Registrar.Workflow.Use
import Registrar.Workspace.Basic
import Registrar.Workspace.Change
import Registrar.Workspace.Finding
import Registrar.Workspace.Nesting
import Registrar.Workspace.Reference
import Registrar.Workspace.Resolution
import Registrar.Workspace.Validation
