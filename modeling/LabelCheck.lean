import LabelCheck.Block.Builder
import LabelCheck.Config
import LabelCheck.Decimal.Shortest
import LabelCheck.Procedure
import LabelCheck.Scope.Forest
import LabelCheck.Text.Escape
import LabelCheck.Validation
import LabelCheck.Document.Procedure
import LabelCheck.Document.Settings
import LabelCheck.Toml.Text
import LabelCheck.Toml.Moment
import LabelCheck.Toml.Parse
import LabelCheck.Load
import LabelCheck.CommandLine.Check
import LabelCheck.CommandLine.Run
import LabelCheck.Main
import LabelCheck.Lexical
import LabelCheck.Scope.Chain
import LabelCheck.Validation.Lexical
import LabelCheck.Proofs.Address
import LabelCheck.Proofs.Resolution
import LabelCheck.Proofs.Diagnostics
import LabelCheck.Proofs.FreshCopy
import LabelCheck.Proofs.History
import LabelCheck.Proofs.Renaming
import LabelCheck.Proofs.Ownership
import LabelCheck.Proofs.Fields
import LabelCheck.Proofs.Meaning
import LabelCheck.Proofs.Grammar
import LabelCheck.Proofs.Spelling
import LabelCheck.Proofs.RoundTrip
import LabelCheck.Proofs.HeadLines
import LabelCheck.Proofs.CheckCommand
import LabelCheck.Validation.Events
import LabelCheck.Proofs.Faultless
import LabelCheck.Proofs.Nesting
import LabelCheck.Proofs.Grouping
import LabelCheck.Proofs.TestRun
import LabelCheck.Proofs.Editing
import LabelCheck.Proofs.Place
import LabelCheck.Proofs.Renumbering
import LabelCheck.Proofs.Wrapping
import LabelCheck.Proofs.Insertion
import LabelCheck.Proofs.Capture
import LabelCheck.Proofs.Policy
import LabelCheck.Proofs.SourceOrder
import LabelCheck.Proofs.Relaxing
import LabelCheck.Proofs.Outline
import LabelCheck.Proofs.Requests
import LabelCheck.Proofs.Listing
import LabelCheck.Proofs.Verdict
import LabelCheck.Proofs.ResolutionReport
import LabelCheck.Proofs.TransferUpdate
import LabelCheck.Proofs.Settling
import LabelCheck.Proofs.Subtree
