import LineShell.Main
import LineShell.Proofs.Words.Unambiguity
import LineShell.Proofs.Words.Quoting
import LineShell.Proofs.Execution.Transparency
import LineShell.Proofs.Interpreter.Containment
import LineShell.Proofs.Command
import LineShell.Proofs.Environment.ChangeDir
import LineShell.Proofs.Execution.Effect
import LineShell.Proofs.Interpreter.Record
import LineShell.Proofs.Interpreter.Course
import LineShell.Proofs.Lookup
import LineShell.Proofs.Execution.Terminal
import LineShell.Proofs.Execution.Description
import LineShell.Proofs.Host.Walk
import LineShell.Proofs.Host.Directories
import LineShell.Proofs.Execution.WorkDir
import LineShell.Proofs.Interpreter.WorkDir
import LineShell.Proofs.Host.Confinement
import LineShell.Proofs.Host.Release
import LineShell.Proofs.Execution.Notes
import LineShell.Proofs.Interpreter.Streams
import LineShell.Proofs.Host.Inscription
import LineShell.Proofs.Execution.Inscription
import LineShell.Proofs.Interpreter.Evaluations
import LineShell.Proofs.Interpreter.Content
import LineShell.Proofs.Interpreter.Parallel
import LineShell.Proofs.Interpreter.Lines
import LineShell.Proofs.Program.Fallback
import LineShell.Proofs.Program.Survival
import LineShell.Proofs.Text.Lines
import LineShell.Proofs.Text.Decoding
import LineShell.Proofs.Dictionary
import LineShell.Proofs.Config.RoundTrip
import LineShell.Proofs.Environment.Visibility
import LineShell.Proofs.Environment.Presets
import LineShell.Proofs.Execution.Visibility
import LineShell.Proofs.Execution.Draining
import LineShell.Proofs.Host.Retention
import LineShell.Proofs.Interpreter.Received
import LineShell.Proofs.Interpreter.Prompted
import LineShell.Proofs.Interpreter.Children
import LineShell.Proofs.Config.Assignments
import LineShell.Proofs.Config.Offences
import LineShell.Proofs.Config.Presets
import LineShell.Proofs.Host.Revision
import LineShell.Proofs.Interpreter.Footprint
import LineShell.Proofs.Host.Overlay
import LineShell.Proofs.Host.Sharing
import LineShell.Proofs.Execution.Sharing
import LineShell.Proofs.Host.Resolution
import LineShell.Proofs.Host.Printing
import LineShell.Proofs.Execution.Moves
import LineShell.Proofs.Execution.Echo
import LineShell.Proofs.Environment.Composition
import LineShell.Proofs.Text.Replacement
import LineShell.Proofs.Interpreter.Reading
import LineShell.Proofs.Interpreter.Configured
import LineShell.Proofs.Environment.History
import LineShell.Proofs.Lookup.SearchPath
import LineShell.Proofs.Words.Composition
import LineShell.Proofs.Words.Conservation
