import Templating.EventQueue
import Templating.Expansion
import Templating.Library
import Templating.Main
import Templating.Project.World
import Templating.Proofs.Path.Canonical
import Templating.Proofs.Path.Location
import Templating.Proofs.Path.Join
import Templating.Proofs.Path.Containment
import Templating.Proofs.Scan.Hits
import Templating.Proofs.Text.Spelling
import Templating.Proofs.Scan.Keys
import Templating.Proofs.Scan.Grammar
import Templating.Proofs.Scan.Recognition
import Templating.Proofs.Scan.Search
import Templating.Proofs.Scan.LoneKeys
import Templating.Proofs.Scan.Sequence
import Templating.Proofs.Scan.Layouts
import Templating.Proofs.Machine.Links
import Templating.Proofs.Machine.Outcome
import Templating.Proofs.Control.Basic
import Templating.Proofs.Control.Expansion
import Templating.Proofs.Control.Layers
import Templating.Proofs.Control.Withheld
import Templating.Proofs.Control.Slots
import Templating.Proofs.Control.Stack
import Templating.Proofs.Control.Lockstep
import Templating.Proofs.Document.Runs
import Templating.Proofs.Machine.Phases
import Templating.Proofs.Control.Events
import Templating.Proofs.Document.Course
import Templating.Proofs.Control.Substitution
import Templating.Proofs.Control.Weight
import Templating.Proofs.Document.Termination
import Templating.Proofs.Document.Loading
import Templating.Proofs.Document.Values
import Templating.Proofs.Document.OtherValues
import Templating.Proofs.Document.Answers
import Templating.Proofs.Document.Reports
import Templating.Proofs.Document.Wrapping
import Templating.Proofs.Project.Actions
import Templating.Proofs.Text.Lowering
import Templating.Proofs.Text.AsciiCase
import Templating.Proofs.Project.DefaultLayout
import Templating.Proofs.Project.ConfigData
import Templating.Proofs.Project.AcceptedKeys
import Templating.Proofs.Path.Places
import Templating.Proofs.Files.Sound
import Templating.Proofs.Files.Access
import Templating.Proofs.Files.Changes
import Templating.Proofs.Files.Laid
import Templating.Proofs.Control.Rooted
import Templating.Proofs.Project.Outputs
import Templating.Proofs.Control.Muted
import Templating.Proofs.Document.Alike
import Templating.Proofs.Project.Reading
import Templating.Proofs.Project.BuildFile
import Templating.Proofs.Project.BuildFiles
import Templating.Proofs.Project.Loaded
import Templating.Proofs.Project.BuildExact
import Templating.Proofs.Document.Delivery
import Templating.Proofs.Scan.Pieces
import Templating.Proofs.Machine.Cursor
import Templating.Proofs.Document.Passage
import Templating.Proofs.Files.Touches
import Templating.Proofs.Project.Frame
import Templating.Proofs.Project.BuildFrame
import Templating.Proofs.Project.Start
import Templating.Proofs.Scan.Arguments
import Templating.Proofs.Scan.KeyOrder
import Templating.Proofs.Document.Registrations
import Templating.Proofs.Document.Builtin
import Templating.Proofs.Project.RenderRun
import Templating.Proofs.Config.Watching
import Templating.Proofs.Project.Validation
import Templating.Proofs.Project.EventLines
import Templating.Proofs.Document.Messages
import Templating.Proofs.Project.BuildReads
import Templating.Proofs.Project.BuildLog
import Templating.Proofs.Project.RenderBuild
