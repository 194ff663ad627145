import SliceControl.Admission.Defaulting
import SliceControl.Admission.Review
import SliceControl.Admission.Verdict
import SliceControl.Agenda
import SliceControl.Api
import SliceControl.Api.Endpoint
import SliceControl.Api.Message
import SliceControl.Cluster
import SliceControl.Command
import SliceControl.Command.Arguments
import SliceControl.Command.Client
import SliceControl.Command.Files
import SliceControl.Command.Invocation
import SliceControl.Config
import SliceControl.Config.Document
import SliceControl.ControlLoop
import SliceControl.Double
import SliceControl.Job
import SliceControl.Json
import SliceControl.Json.Decode
import SliceControl.Json.Reader
import SliceControl.Json.Token
import SliceControl.Json.Writer
import SliceControl.Label
import SliceControl.Main
import SliceControl.Manifest
import SliceControl.Node
import SliceControl.Pass
import SliceControl.Placement
import SliceControl.PodTemplate
import SliceControl.PodTemplate.Codec
import SliceControl.Procedure
import SliceControl.Proofs.Admission.Acceptance
import SliceControl.Proofs.Admission.Agreement
import SliceControl.Proofs.Admission.Health
import SliceControl.Proofs.Admission.Losses
import SliceControl.Proofs.Admission.Patch
import SliceControl.Proofs.Admission.Preview
import SliceControl.Proofs.Admission.Reinvocation
import SliceControl.Proofs.Cluster.Channel
import SliceControl.Proofs.Cluster.Publication
import SliceControl.Proofs.Cluster.Refusal
import SliceControl.Proofs.Double
import SliceControl.Proofs.Interleaving.Mirror
import SliceControl.Proofs.Interleaving.Overtaken
import SliceControl.Proofs.Interleaving.Tracking
import SliceControl.Proofs.Json.Fate
import SliceControl.Proofs.Pass.Calm
import SliceControl.Proofs.Pass.Commuting
import SliceControl.Proofs.Pass.Convergence
import SliceControl.Proofs.Pass.Faults
import SliceControl.Proofs.Pass.Identity
import SliceControl.Proofs.Placement.Division
import SliceControl.Proofs.PodTemplate.Fate
import SliceControl.Proofs.Reconcile.Partitions
import SliceControl.Proofs.Reconcile.Requeue
import SliceControl.Proofs.Reconcile.Situation
import SliceControl.Proofs.Reconcile.Unmapped
import SliceControl.Proofs.Reconcile.Verdict
import SliceControl.Proofs.Reconcile.Writes
import SliceControl.Proofs.Resource.Codec
import SliceControl.Proofs.Resource.RoundTrip
import SliceControl.Proofs.Retry
import SliceControl.Proofs.Slice.Aging
import SliceControl.Proofs.Slice.Arrival
import SliceControl.Proofs.Slice.Codec
import SliceControl.Proofs.Slice.Name
import SliceControl.Proofs.Store.Consistency
import SliceControl.Proofs.Store.Index
import SliceControl.Proofs.Store.Lifetime
import SliceControl.Proofs.Time.Calendar
import SliceControl.Proofs.Time.Stamp
import SliceControl.Proofs.Topology.Grammar
import SliceControl.Proofs.WorkQueue.Accounting
import SliceControl.Proofs.WorkQueue.Awake
import SliceControl.Proofs.WorkQueue.Callers
import SliceControl.Proofs.WorkQueue.Exclusion
import SliceControl.Proofs.Workload.Codec
import SliceControl.Reconcile
import SliceControl.Reconcile.Wanted
import SliceControl.Report
import SliceControl.Report.Table
import SliceControl.Resource
import SliceControl.Retry
import SliceControl.Slice
import SliceControl.Slice.Condition
import SliceControl.Slice.Name
import SliceControl.Slice.State
import SliceControl.Slice.View
import SliceControl.SortedMap
import SliceControl.Store
import SliceControl.Store.Request
import SliceControl.Text.Base64
import SliceControl.Text.Blank
import SliceControl.Text.Numeral
import SliceControl.Text.Percent
import SliceControl.Text.Pieces
import SliceControl.Text.Sha256
import SliceControl.Text.UpperCase
import SliceControl.Time
import SliceControl.Time.Calendar
import SliceControl.Time.Stamp
import SliceControl.Topology
import SliceControl.Topology.Accelerator
import SliceControl.Uid
import SliceControl.WorkQueue
import SliceControl.WorkQueue.Dispatch
import SliceControl.WorkQueue.Timed
import SliceControl.Workload
import SliceControl.Yaml
import SliceControl.Yaml.Reader
import SliceControl.Yaml.Scanner
import SliceControl.Yaml.Schema
