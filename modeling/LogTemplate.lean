import LogTemplate.Main
import LogTemplate.Proofs.Report.Csv
import LogTemplate.Proofs.Regex.Outcomes
import LogTemplate.Proofs.Regex.Reading
import LogTemplate.Proofs.Regex.Assembly
import LogTemplate.Proofs.Anchoring
import LogTemplate.Proofs.Capturing
import LogTemplate.Proofs.Regex.Joint
import LogTemplate.Proofs.Registration
import LogTemplate.Proofs.Bundled
import LogTemplate.Pattern.Kept
import LogTemplate.Proofs.History
import LogTemplate.Proofs.Balance
import LogTemplate.Proofs.Lines
import LogTemplate.Proofs.MatchRun
import LogTemplate.Proofs.Pattern.Probes
import LogTemplate.Proofs.Tracing
import LogTemplate.Proofs.Pattern.Agreement
import LogTemplate.Proofs.Reporting
import LogTemplate.Proofs.BundledTraces
import LogTemplate.Proofs.Template.Munch
import LogTemplate.Proofs.Template.Literal
import LogTemplate.Proofs.Counting
import LogTemplate.Proofs.CompileFaults
import LogTemplate.Proofs.Resolving
import LogTemplate.Proofs.Marker.WellNested
import LogTemplate.Proofs.Batches
import LogTemplate.Proofs.RunEvents
import LogTemplate.Proofs.Extending
import LogTemplate.Proofs.CommandLine.Arguments
import LogTemplate.Proofs.Files.Path
import LogTemplate.Proofs.Files.Tree
import LogTemplate.Proofs.Available
import LogTemplate.Proofs.Json.Scalars
import LogTemplate.Proofs.Json.Roundtrip
import LogTemplate.Proofs.Pattern.Names
import LogTemplate.Proofs.Report.Failures
import LogTemplate.Proofs.Json.Encoding
import LogTemplate.Proofs.Text.Distinct
import LogTemplate.Proofs.Directives
import LogTemplate.Proofs.Assigning
import LogTemplate.Proofs.Record
import LogTemplate.Proofs.Json.Members
import LogTemplate.Proofs.FileForm
import LogTemplate.Proofs.Regex.EmptyGroup
import LogTemplate.Proofs.Pattern.Numbering
import LogTemplate.Proofs.Marker.Positions
import LogTemplate.Proofs.Marker.Stripping
import LogTemplate.Proofs.Template.Factoring
