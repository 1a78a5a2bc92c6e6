import Cadi.Library.Dict
import Cadi.Library.Checked
import Cadi.Library.Graph
import Cadi.Library.Runs
import Cadi.Library.Paired
import Cadi.Library.Elements
import Cadi.Library.Binary64
import Cadi.Entities
import Cadi.Core.Stores
import Cadi.Core.Evidence
import Cadi.Core.Operations
import Cadi.Core.Compatibility
import Cadi.Core.PublicOperation
import Cadi.Invariants.Grounded
import Cadi.Refinement.Effects
import Cadi.Refinement.Operations
import Cadi.Invariants.Persistence
import Cadi.Invariants.GroundedSteps
import Cadi.Invariants.Lifecycles
import Cadi.Invariants.Ledger
import Cadi.Oracle.Checks
import Cadi.Oracle.Holds
import Cadi.Oracle.Authority
import Cadi.Oracle.Numbering
import Cadi.Oracle.Lineage
import Cadi.Oracle.Records
import Cadi.Oracle.Preservation
import Cadi.Oracle.Decides
import Cadi.Histories.Reachable
import Cadi.Histories.Unchecked
import Cadi.Histories.Succession
import Cadi.Histories.Fencing
import Cadi.Lineage.Compatible
import Cadi.Lineage.Recursion
import Cadi.Lineage.Experiments
import Cadi.Library.Numerals
import Cadi.Library.JsonStrings
import Cadi.Library.Json
import Cadi.Library.JsonReading
import Cadi.Lineage.Taint
import Cadi.Lineage.PhaseOrder
import Cadi.Evidence.Sufficiency
import Cadi.Evidence.Gates
import Cadi.Evidence.Outside
import Cadi.Library.Time
import Cadi.Simulator.Events
import Cadi.Simulator.Engine
import Cadi.Simulator.Conservation
import Cadi.Simulator.Runs
import Cadi.Simulator.Host
import Cadi.Simulator.Resources
import Cadi.Simulator.Notices
import Cadi.Simulator.Replication
import Cadi.Simulator.Handlers
import Cadi.Simulator.ResourceRuns
import Cadi.Simulator.Pending
import Cadi.Simulator.Service
import Cadi.Simulator.ServiceFrame
import Cadi.Simulator.ServiceSteps
import Cadi.Simulator.ServiceRuns
import Cadi.Serialization.Values
import Cadi.Serialization.Decoding
import Cadi.Serialization.Normal
import Cadi.Serialization.Annotations
import Cadi.Serialization.Records
import Cadi.Serialization.Relisting
import Cadi.Serialization.Snapshot
import Cadi.Serialization.Restore
import Cadi.Serialization.Lines
import Cadi.Serialization.EventLog
import Cadi.Serialization.Stores
import Cadi.Serialization.RoundTrip
import Cadi.Serialization.Accepted
import Cadi.Serialization.Queries
import Cadi.Serialization.Continuing
import Cadi.Serialization.EventReplay
import Cadi.Serialization.Operations
import Cadi.Serialization.Replay
import Cadi.Serialization.Journal
import Cadi.Serialization.Recovery
import Cadi.Oracle.Converse
import Cadi.Serialization.Limits
import Cadi.Serialization.OperationTexts
import Cadi.Correctness.Records
import Cadi.Correctness.Summary
import Cadi.Correctness.Pairing
import Cadi.Correctness.Balance
import Cadi.Correctness.Cohorts
import Cadi.Library.Bytes
import Cadi.Library.JsonSorting
import Cadi.Library.JsonProper
import Cadi.Library.JsonCuts
import Cadi.Library.Lines
import Cadi.Library.JsonLines
import Cadi.Prototype.Transport
import Cadi.Prototype.Framing
import Cadi.Prototype.Authority
import Cadi.Prototype.AuthorityRuns
import Cadi.Prototype.AuthorityExact
import Cadi.Library.Extent
import Cadi.Retention.Protocol
import Cadi.Retention.Program
import Cadi.Retention.Engine
import Cadi.Retention.Cache
import Cadi.Retention.Steps
import Cadi.Retention.Serving
import Cadi.Retention.Admissions
import Cadi.Retention.Enforcement
import Cadi.Retention.Passes
import Cadi.Retention.Heads
import Cadi.Retention.Instants
import Cadi.Retention.Loop
import Cadi.Retention.Runs
import Cadi.Retention.Completion
import Cadi.Retention.Tracking
import Cadi.Retention.Reference
import Cadi.Retention.WorkingSet
import Cadi.Retention.Opportunities
import Cadi.Prototype.Receiving
import Cadi.Prototype.Delivery
import Cadi.Simulator.Splitting
import Cadi.Library.Traces
import Cadi.Retention.Journal
import Cadi.Retention.Priority
import Cadi.Retention.Residencies
import Cadi.Retention.ByteTime
import Cadi.Simulator.Standing
import Cadi.Simulator.Redelivery
import Cadi.Library.Combinations
import Cadi.Costs.Polynomial
import Cadi.Costs.Powers
import Cadi.Costs.Columns
import Cadi.Library.Slots
import Cadi.Policies.Observation
import Cadi.Experiments.Routing
import Cadi.Experiments.Scheduling
import Cadi.Library.Keys
import Cadi.Policies.Placement
import Cadi.Policies.Rankings
import Cadi.Library.LeastSquares
import Cadi.Calibration.Reference
import Cadi.Calibration.Split
import Cadi.Calibration.Fit
import Cadi.Calibration.Adequacy
import Cadi.Library.Agreement
import Cadi.Library.Csv
import Cadi.Calibration.Projection
import Cadi.Calibration.Corpus
import Cadi.Library.JsonDumps
import Cadi.Library.Digest
import Cadi.Library.Percentiles
import Cadi.Experiments.Bootstrap
import Cadi.Experiments.Complements
import Cadi.Library.Documents
import Cadi.Experiments.Fields
import Cadi.Experiments.Synthetic
import Cadi.Experiments.Generation
import Cadi.Library.Numbering
import Cadi.Experiments.Trace
import Cadi.Experiments.Augmentation
import Cadi.Experiments.Overlay
import Cadi.Experiments.Sessions
import Cadi.Experiments.Annotating
import Cadi.Library.Interpolation
import Cadi.Costs.Curves
import Cadi.Experiments.Normalized
import Cadi.Library.Tries
import Cadi.Experiments.Mooncake
import Cadi.Experiments.PrefixSharing
import Cadi.Correctness.Documents
import Cadi.Correctness.Reading
import Cadi.Correctness.Canonical
import Cadi.Adapter.Raising
import Cadi.Adapter.Recording
import Cadi.Adapter.Fencing
import Cadi.Adapter.Deliveries
