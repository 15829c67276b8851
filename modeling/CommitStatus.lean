import CommitStatus.Build.Writer
import CommitStatus.Log.Relay
import CommitStatus.Main
import CommitStatus.Source.Writer
import CommitStatus.Proofs.Build.Reading
import CommitStatus.Proofs.Client.Pool
import CommitStatus.Proofs.CommandLine.Agreement
import CommitStatus.Proofs.Json.Lines
import CommitStatus.Proofs.Json.Reading
import CommitStatus.Proofs.Report.Addressing
import CommitStatus.Proofs.Report.Handling
import CommitStatus.Proofs.Report.Interleaving
import CommitStatus.Proofs.Report.Isolation
import CommitStatus.Proofs.Report.Progress
import CommitStatus.Proofs.Report.Runs
import CommitStatus.Proofs.Report.Steps
import CommitStatus.Proofs.Text.Utf8
import CommitStatus.Proofs.Web.Accounting
import CommitStatus.Proofs.Web.Answers
import CommitStatus.Proofs.Web.Completion
import CommitStatus.Proofs.Web.Credentials
import CommitStatus.Proofs.Web.Submission
import CommitStatus.Proofs.Text.LowerCase
import CommitStatus.Proofs.Url.Reading
import CommitStatus.Proofs.CommandLine.Traces
import CommitStatus.Proofs.Web.Verdicts
import CommitStatus.Proofs.Web.DryRun
import CommitStatus.Proofs.Report.Admission
import CommitStatus.Proofs.CommandLine.Admission
import CommitStatus.Proofs.Decimal.Integer
import CommitStatus.Proofs.Report.Keys
import CommitStatus.Proofs.Checked
import CommitStatus.Proofs.Json.Writing
import CommitStatus.Proofs.Json.Measured
import CommitStatus.Proofs.Build.Writing
import CommitStatus.Proofs.Source.Spelling
import CommitStatus.Proofs.Source.File
import CommitStatus.Proofs.Source.Strays
import CommitStatus.Proofs.Url.Joining
import CommitStatus.Proofs.CommandLine.Counts
import CommitStatus.Proofs.Json.Extension
import CommitStatus.Proofs.Build.Extension
import CommitStatus.Proofs.Url.Grammar
import CommitStatus.Proofs.Url.Builds
import CommitStatus.Proofs.Report.Wording
import CommitStatus.Proofs.CommandLine.Wording
import CommitStatus.Proofs.Build.Revision
import CommitStatus.Proofs.Source.Language
import CommitStatus.Proofs.Source.Matching
import CommitStatus.Markers.Store
import CommitStatus.Proofs.Markers.Sharing
import CommitStatus.Proofs.Client.Recency
import CommitStatus.Proofs.Client.Posting
import CommitStatus.Proofs.Report.Identity
