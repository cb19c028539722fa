import AgentTestbench.Foundation.Text
import AgentTestbench.Foundation.Number
import AgentTestbench.Foundation.AssociationList
import AgentTestbench.Json.Value
import AgentTestbench.Json.Encode
import AgentTestbench.Json.Canonical
import AgentTestbench.Json.Limits
import AgentTestbench.Json.Path
import AgentTestbench.Json.Within
import AgentTestbench.Policy.Rules
import AgentTestbench.Error
import AgentTestbench.Policy.Validate
import AgentTestbench.Policy.Valid
import AgentTestbench.Policy.Revalidate
import AgentTestbench.Evaluator
import AgentTestbench.Authoring
import AgentTestbench.Synthetic.Generate
import AgentTestbench.Synthetic.Complete
import AgentTestbench.Suite.Evaluate
import AgentTestbench.Suite.Revalidate
import AgentTestbench.Inspection
import AgentTestbench.Triage
import AgentTestbench.Suite.Report
import AgentTestbench.Preflight
import AgentTestbench.Coverage
import AgentTestbench.Probes
import AgentTestbench.Foundation.Sha256
import AgentTestbench.Json.Digest
import AgentTestbench.CorpusReceipt
import AgentTestbench.Replay
import AgentTestbench.Foundation.FirstSeen
import AgentTestbench.Foundation.Orders
import AgentTestbench.Precedence.Evaluation
import AgentTestbench.Precedence.Check
import AgentTestbench.Precedence.Contract
import AgentTestbench.Json.Equality
import AgentTestbench.Policy.RoundTrip
import AgentTestbench.Precedence.Difference
import AgentTestbench.Semantics
import AgentTestbench.Suite.Alike
import AgentTestbench.Binding
import AgentTestbench.Compare
import AgentTestbench.Curation
import AgentTestbench.Synthetic.Menu
import AgentTestbench.Synthetic.Sound
import AgentTestbench.Foundation.Utf8
import AgentTestbench.Json.Decode
import AgentTestbench.Json.Stream
import AgentTestbench.Json.Numeral
import AgentTestbench.Json.RoundTrip
import AgentTestbench.Precedence.Runs
import AgentTestbench.Precedence.Analysis
import AgentTestbench.Precedence.Builtin
import AgentTestbench.Precedence.SwapPath
import AgentTestbench.Probes.Targeted
import AgentTestbench.Explain
import AgentTestbench.Foundation.Raising
import AgentTestbench.WriteJson
import AgentTestbench.Foundation.GreedyCover
import AgentTestbench.Reduction
import AgentTestbench.Authoring.Order
import AgentTestbench.Synthetic.Order
import AgentTestbench.Json.Room
import AgentTestbench.Reachable
import AgentTestbench.Inspection.Diff
import AgentTestbench.Curation.Shard
import AgentTestbench.Curation.Merge
import AgentTestbench.Curation.Deduplicate
import AgentTestbench.Authoring.Duplicates
import AgentTestbench.Coverage.Accounting
import AgentTestbench.Synthetic.PathLaws
import AgentTestbench.Curation.Select
import AgentTestbench.Curation.Outcomes
import AgentTestbench.Curation.Import
import AgentTestbench.Curation.Gates
import AgentTestbench.Curation.Regroup
import AgentTestbench.Json.Accepted
import AgentTestbench.Cli.Exports
import AgentTestbench.Reordering
import AgentTestbench.Cli.Sessions
