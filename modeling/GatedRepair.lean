import GatedRepair.Backend
import GatedRepair.Collection
import GatedRepair.Command
import GatedRepair.CommandLine.Run
import GatedRepair.Config
import GatedRepair.Defect
import GatedRepair.Diagnostic
import GatedRepair.Edit
import GatedRepair.Files.Disk
import GatedRepair.Files.Tree
import GatedRepair.Fix.Consensus
import GatedRepair.Fix.Proposal
import GatedRepair.History
import GatedRepair.Json.Document
import GatedRepair.Json.Reader
import GatedRepair.Ledger
import GatedRepair.Machine.LineEdit.Reader
import GatedRepair.Machine.LineEdit.Run
import GatedRepair.Machine.LinePattern
import GatedRepair.Machine.Program.Basic
import GatedRepair.Machine.Program.Bytes
import GatedRepair.Machine.Program.Content
import GatedRepair.Machine.Program.Format
import GatedRepair.Machine.Program.Machine
import GatedRepair.Machine.Program.Place
import GatedRepair.Machine.Run
import GatedRepair.Machine.Shell.Arithmetic
import GatedRepair.Machine.Shell.Builtin
import GatedRepair.Machine.Shell.Call
import GatedRepair.Machine.Shell.Condition
import GatedRepair.Machine.Shell.Expansion
import GatedRepair.Machine.Shell.Process
import GatedRepair.Machine.Shell.Reader
import GatedRepair.Machine.Shell.Session
import GatedRepair.Machine.Shell.Token
import GatedRepair.Main
import GatedRepair.Number
import GatedRepair.Pattern.Basic
import GatedRepair.Pattern.Search
import GatedRepair.Priority
import GatedRepair.Proofs.Backend.Patience
import GatedRepair.Proofs.Collection.Silence
import GatedRepair.Proofs.Collection.Spelling
import GatedRepair.Proofs.Defect.Identity
import GatedRepair.Proofs.Diagnostic.Checked
import GatedRepair.Proofs.Diagnostic.Coded
import GatedRepair.Proofs.Diagnostic.Printed
import GatedRepair.Proofs.Diagnostic.Segments
import GatedRepair.Proofs.Diagnostic.Summary
import GatedRepair.Proofs.Edit.Contained
import GatedRepair.Proofs.Edit.Echo
import GatedRepair.Proofs.Edit.Gate
import GatedRepair.Proofs.Edit.PutBack
import GatedRepair.Proofs.Edit.Splicing
import GatedRepair.Proofs.Edit.Transaction
import GatedRepair.Proofs.Files.Atomic
import GatedRepair.Proofs.Files.Change
import GatedRepair.Proofs.Files.Contained
import GatedRepair.Proofs.Files.LastName
import GatedRepair.Proofs.Files.Shape
import GatedRepair.Proofs.Files.Steady
import GatedRepair.Proofs.Files.Walk
import GatedRepair.Proofs.Files.Within
import GatedRepair.Proofs.Fix.Announced
import GatedRepair.Proofs.Fix.Answer
import GatedRepair.Proofs.Fix.Consensus
import GatedRepair.Proofs.Fix.Extraction
import GatedRepair.Proofs.Fix.Label
import GatedRepair.Proofs.Fix.LongestRun
import GatedRepair.Proofs.Fix.Window
import GatedRepair.Proofs.Json.Decoding
import GatedRepair.Proofs.Json.Scanning
import GatedRepair.Proofs.Ledger.Merge
import GatedRepair.Proofs.Ledger.Merged
import GatedRepair.Proofs.Ledger.Separate
import GatedRepair.Proofs.Ledger.Sound
import GatedRepair.Proofs.Number.Nearest
import GatedRepair.Proofs.Number.Shortest
import GatedRepair.Proofs.Pattern.Language
import GatedRepair.Proofs.Pattern.Preferred
import GatedRepair.Proofs.Priority
import GatedRepair.Proofs.Repair.Account
import GatedRepair.Proofs.Repair.BreakOff
import GatedRepair.Proofs.Repair.Course
import GatedRepair.Proofs.Repair.Gate
import GatedRepair.Proofs.Repair.Lifecycle
import GatedRepair.Proofs.Repair.Queue
import GatedRepair.Proofs.Repair.Reopening
import GatedRepair.Proofs.Repair.Turns
import GatedRepair.Proofs.Report.Figures
import GatedRepair.Proofs.Report.Statistics
import GatedRepair.Proofs.State.Aside
import GatedRepair.Proofs.State.Frame
import GatedRepair.Proofs.State.Ignored
import GatedRepair.Proofs.State.Loading
import GatedRepair.Proofs.State.Records
import GatedRepair.Proofs.State.Reload
import GatedRepair.Proofs.Text.Lines
import GatedRepair.Proofs.Text.Part
import GatedRepair.Proofs.Time.Reading
import GatedRepair.Repair
import GatedRepair.Report
import GatedRepair.State
import GatedRepair.Text.Character
import GatedRepair.Text.Lines
import GatedRepair.Time
import GatedRepair.Toml.Reader
import GatedRepair.Toml.Value
import GatedRepair.Verification
