import BareMetal.Backoff
import BareMetal.Boot.Document
import BareMetal.Cluster.Api
import BareMetal.Cluster.Definition
import BareMetal.Cluster.Known
import BareMetal.Cluster.Metadata
import BareMetal.Cluster.Node
import BareMetal.Cluster.Secret
import BareMetal.Cluster.Service
import BareMetal.Credentials
import BareMetal.Device.Api
import BareMetal.Device.Basic
import BareMetal.Device.Failure
import BareMetal.Device.Service
import BareMetal.Device.Topology
import BareMetal.Dict
import BareMetal.Event
import BareMetal.Event.Recorder
import BareMetal.Failure
import BareMetal.Http.Exchange
import BareMetal.Http.Target
import BareMetal.Instance.Basic
import BareMetal.Instance.Definition
import BareMetal.Instance.Health
import BareMetal.Instance.Pass
import BareMetal.Instance.Requests
import BareMetal.Instance.Store
import BareMetal.Instance.World
import BareMetal.Json.Basic
import BareMetal.Json.Decode
import BareMetal.Json.Draft
import BareMetal.Json.Form
import BareMetal.Json.Merge
import BareMetal.Logging
import BareMetal.Main
import BareMetal.Names
import BareMetal.Networking
import BareMetal.Number.Binary
import BareMetal.Number.Decimal
import BareMetal.Number.Power
import BareMetal.Number.Shortest
import BareMetal.Operator.Agenda
import BareMetal.Operator.CommandLine
import BareMetal.Operator.Controllers
import BareMetal.Operator.Manifest
import BareMetal.Operator.Operation
import BareMetal.Operator.Options
import BareMetal.Operator.Startup
import BareMetal.Pool.Basic
import BareMetal.Pool.Definition
import BareMetal.Pool.Locks
import BareMetal.Pool.Membership
import BareMetal.Pool.Pass
import BareMetal.Pool.Requests
import BareMetal.Pool.Sizing
import BareMetal.Pool.Synthesis
import BareMetal.Pool.World
import BareMetal.Program
import BareMetal.Proofs.Boot.Rewriting
import BareMetal.Proofs.Device.Deletion
import BareMetal.Proofs.Device.Destination
import BareMetal.Proofs.Device.Planning
import BareMetal.Proofs.Device.Resumption
import BareMetal.Proofs.Instance.Conduct
import BareMetal.Proofs.Instance.Devices
import BareMetal.Proofs.Instance.Life
import BareMetal.Proofs.Instance.Pass
import BareMetal.Proofs.Instance.Record
import BareMetal.Proofs.Instance.Reinstalls
import BareMetal.Proofs.Instance.Release
import BareMetal.Proofs.Instance.Remediation
import BareMetal.Proofs.Instance.Removal
import BareMetal.Proofs.Instance.Site
import BareMetal.Proofs.Instance.Visit
import BareMetal.Proofs.Json.Merge
import BareMetal.Proofs.Logic
import BareMetal.Proofs.Script
import BareMetal.Proofs.Pool.Script
import BareMetal.Proofs.Instance.Script
import BareMetal.Proofs.Pool.Bookkeeping
import BareMetal.Proofs.Pool.Conduct
import BareMetal.Proofs.Pool.Convergence
import BareMetal.Proofs.Pool.Growth
import BareMetal.Proofs.Pool.Leftovers
import BareMetal.Proofs.Pool.Locks
import BareMetal.Proofs.Pool.Outcome
import BareMetal.Proofs.Pool.Removal
import BareMetal.Proofs.Pool.Site
import BareMetal.Proofs.Pool.Sizing
import BareMetal.Proofs.Pool.Surroundings
import BareMetal.Proofs.Pool.Turns
import BareMetal.Proofs.Pool.Validity
import BareMetal.Proofs.Run
import BareMetal.Proofs.Told
import BareMetal.Proofs.Yaml.Paths
import BareMetal.Proofs.Yaml.Reading
import BareMetal.Rehearsal.Report
import BareMetal.Rehearsal.Run
import BareMetal.Rehearsal.Scene
import BareMetal.Retry
import BareMetal.Settings
import BareMetal.Text.Base64
import BareMetal.Text.Blank
import BareMetal.Text.Percent
import BareMetal.Text.Quoted
import BareMetal.Text.Unprinted
import BareMetal.Time.Span
import BareMetal.Time.Stamp
import BareMetal.Trace
import BareMetal.Yaml.Block
import BareMetal.Yaml.Node
import BareMetal.Yaml.Scalar
import BareMetal.Yaml.Token
import BareMetal.Yaml.Value
import BareMetal.Proofs.Yaml.Written
import BareMetal.Proofs.Boot.RoundTrip
import BareMetal.Proofs.Json.Records
import BareMetal.Proofs.Instance.Changes
import BareMetal.Proofs.Filing
import BareMetal.Proofs.Device.Listing
import BareMetal.Proofs.Instance.Finalizers
import BareMetal.Proofs.Json.Canonical
import BareMetal.Proofs.Json.Forms
import BareMetal.Proofs.Codecs
import BareMetal.Proofs.Pool.Offspring
import BareMetal.Proofs.Pool.Wakes
import BareMetal.Proofs.Device.Reconfiguration
import BareMetal.Proofs.Device.Misconfiguration
import BareMetal.Proofs.Time.Components
import BareMetal.Proofs.Streaks
import BareMetal.Proofs.Device.Attachments
import BareMetal.Proofs.Instance.Deadline
import BareMetal.Proofs.Pool.Histories
import BareMetal.Proofs.Pool.Selection
import BareMetal.Proofs.Retrying
import BareMetal.Proofs.RetryWaits
import BareMetal.Proofs.Http.Authority
import BareMetal.Proofs.Pool.Registration
import BareMetal.Proofs.Pool.Consistency
