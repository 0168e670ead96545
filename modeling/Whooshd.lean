import Whooshd.Abandonment
import Whooshd.Adapters.Children
import Whooshd.Adapters.MlxLoading
import Whooshd.Adapters.Supervision
import Whooshd.Admission
import Whooshd.AdmissionAccounting
import Whooshd.Advertised
import Whooshd.Attestation.Canonical
import Whooshd.Attestation.Encoding
import Whooshd.Attestation.Identity
import Whooshd.Attestation.Material
import Whooshd.Backend.Concurrency
import Whooshd.Backend.ForwardBody
import Whooshd.Backend.Policy
import Whooshd.Backend.Streaming
import Whooshd.Batching
import Whooshd.Broker
import Whooshd.Bypass
import Whooshd.Calibration
import Whooshd.CancelAccounting
import Whooshd.Capacity
import Whooshd.CapacityGates
import Whooshd.Context
import Whooshd.Continuous.Batching
import Whooshd.Continuous.Calls
import Whooshd.Continuous.Ending
import Whooshd.Continuous.Finishing
import Whooshd.Continuous.Progress
import Whooshd.Continuous.Recycling
import Whooshd.Continuous.Scheduler
import Whooshd.Continuous.Seating
import Whooshd.Continuous.SlotClaims
import Whooshd.Continuous.StreamOrder
import Whooshd.Continuous.Streaming
import Whooshd.Continuous.Validation
import Whooshd.CostGrowth
import Whooshd.Deadline
import Whooshd.Execution
import Whooshd.External.Agreement
import Whooshd.External.Containing
import Whooshd.External.Escapes
import Whooshd.External.Inventory
import Whooshd.External.Resolver
import Whooshd.External.RouteLoading
import Whooshd.External.Routes
import Whooshd.FifoOrder
import Whooshd.Headroom
import Whooshd.LateResult
import Whooshd.Ledger
import Whooshd.Library.Coerce
import Whooshd.Library.Cut
import Whooshd.Library.Dict
import Whooshd.Library.Disk
import Whooshd.Library.FileTree
import Whooshd.Library.HashChain
import Whooshd.Library.History
import Whooshd.Library.Json
import Whooshd.Library.JsonAscii
import Whooshd.Library.JsonRead
import Whooshd.Library.Machine
import Whooshd.Library.Pairing
import Whooshd.Library.Path
import Whooshd.Library.Recency
import Whooshd.Library.Regex
import Whooshd.Library.RingBuffer
import Whooshd.Library.Sequences
import Whooshd.Library.Sql
import Whooshd.Library.StableSort
import Whooshd.Library.Text
import Whooshd.LiveBatch
import Whooshd.LogSafety.Patterns
import Whooshd.LogSafety.Record
import Whooshd.LogSafety.Resanitise
import Whooshd.LogSafety.SafeText
import Whooshd.LogSafety.SettledText
import Whooshd.LogSafety.SettledUrl
import Whooshd.LogSafety.SettledValue
import Whooshd.LogSafety.Sizes
import Whooshd.LogSafety.Url
import Whooshd.LogSafety.UrlText
import Whooshd.LogSafety.Values
import Whooshd.ModelIdentity
import Whooshd.ModelList
import Whooshd.OutputCap
import Whooshd.Ownership
import Whooshd.Pressure
import Whooshd.ProfileCache
import Whooshd.PromptChars
import Whooshd.Protocol
import Whooshd.Queue
import Whooshd.QueueAccounting
import Whooshd.QueueBound
import Whooshd.Refinement
import Whooshd.Registry
import Whooshd.Release
import Whooshd.Routing
import Whooshd.Runtime
import Whooshd.Scheduler
import Whooshd.Selection
import Whooshd.Slots
import Whooshd.Store.Atomicity
import Whooshd.Store.Bootstrap
import Whooshd.Store.Candidates
import Whooshd.Store.Compatibility
import Whooshd.Store.Containment
import Whooshd.Store.Contracts
import Whooshd.Store.DerivedIds
import Whooshd.Store.Inspection
import Whooshd.Store.Interleaving
import Whooshd.Store.Inventory
import Whooshd.Store.Malformed
import Whooshd.Store.Managed
import Whooshd.Store.Registration
import Whooshd.Terminal
import Whooshd.ThreadWake.Analysis
import Whooshd.ThreadWake.AnalysisRuns
import Whooshd.ThreadWake.CandidateRows
import Whooshd.ThreadWake.CandidateStorage
import Whooshd.ThreadWake.ChainHash
import Whooshd.ThreadWake.Compiler
import Whooshd.ThreadWake.Continuation
import Whooshd.ThreadWake.Execution
import Whooshd.ThreadWake.Flush
import Whooshd.ThreadWake.Index
import Whooshd.ThreadWake.Isolation
import Whooshd.ThreadWake.Keys
import Whooshd.ThreadWake.KvLifecycle
import Whooshd.ThreadWake.Limits
import Whooshd.ThreadWake.Manager
import Whooshd.ThreadWake.Metadata
import Whooshd.ThreadWake.Metering
import Whooshd.ThreadWake.Moves
import Whooshd.ThreadWake.Policy
import Whooshd.ThreadWake.PrefixProof
import Whooshd.ThreadWake.Readiness
import Whooshd.ThreadWake.Recency
import Whooshd.ThreadWake.SnapshotIdentity
import Whooshd.ThreadWake.Tokenizer
import Whooshd.ThreadWake.Transparency
import Whooshd.TokenStep.Backend
import Whooshd.TokenStep.Mirror
import Whooshd.TokenStep.Own
import Whooshd.TokenStep.Results
import Whooshd.TokenStep.Schedule
import Whooshd.TokenStep.Turns
