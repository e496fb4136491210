import Srcmv.Machine.Actions
import Srcmv.Machine.Errors
import Srcmv.Machine.Interruption
import Srcmv.Machine.Process
import Srcmv.Machine.Program
import Srcmv.Machine.Reading
import Srcmv.Machine.Steps
import Srcmv.Model.Cli.Commands
import Srcmv.Model.Cli.Commit
import Srcmv.Model.Cli.Diff
import Srcmv.Model.Cli.Outline
import Srcmv.Model.Cli.Preview
import Srcmv.Model.Cli.Responses
import Srcmv.Model.Cli.Samples
import Srcmv.Model.Cli.Select
import Srcmv.Model.Cli.Store
import Srcmv.Model.Core.Domain
import Srcmv.Model.Core.LineIndex
import Srcmv.Model.Core.LineMetrics
import Srcmv.Model.Core.PlanHash
import Srcmv.Model.Core.Planner
import Srcmv.Model.Core.Reference
import Srcmv.Model.Core.Snapshot
import Srcmv.Model.Fs.Classifier
import Srcmv.Model.Fs.Commit
import Srcmv.Model.Fs.Control
import Srcmv.Model.Fs.Decoding
import Srcmv.Model.Fs.Execution
import Srcmv.Model.Fs.Journal
import Srcmv.Model.Fs.Lookup
import Srcmv.Model.Fs.Publication
import Srcmv.Model.Fs.Records
import Srcmv.Model.Fs.Recovery
import Srcmv.Model.Fs.Serde
import Srcmv.Model.Fs.Targets
import Srcmv.Model.Fs.Workspace
import Srcmv.Model.Fs.World
import Srcmv.Model.Lsp.Bodies
import Srcmv.Model.Lsp.Conversation
import Srcmv.Model.Lsp.Correlation
import Srcmv.Model.Lsp.Framing
import Srcmv.Model.Lsp.Lifecycle
import Srcmv.Model.Lsp.Position
import Srcmv.Model.Lsp.Process
import Srcmv.Model.Lsp.Session
import Srcmv.Model.Lsp.Symbols
import Srcmv.Model.Lsp.Transport
import Srcmv.Model.Protocol.Digests
import Srcmv.Model.Protocol.Documented
import Srcmv.Model.Protocol.Request
import Srcmv.Model.Protocol.Responses
import Srcmv.Model.Protocol.Selection
import Srcmv.Model.Protocol.Terminal
import Srcmv.Proofs.Cli.CommitLine
import Srcmv.Proofs.Cli.Lines
import Srcmv.Proofs.Cli.Locked
import Srcmv.Proofs.Cli.PlannedStore
import Srcmv.Proofs.Cli.Tracking
import Srcmv.Proofs.Core.Creations
import Srcmv.Proofs.Core.Edits
import Srcmv.Proofs.Core.Index
import Srcmv.Proofs.Core.Metrics
import Srcmv.Proofs.Core.Payloads
import Srcmv.Proofs.Core.PlanMeaning
import Srcmv.Proofs.Core.PlanRecord
import Srcmv.Proofs.Core.PlannedOutputs
import Srcmv.Proofs.Core.Presentation
import Srcmv.Proofs.Core.Projection
import Srcmv.Proofs.Core.Recipes
import Srcmv.Proofs.Core.Resolution
import Srcmv.Proofs.Core.Succeeding
import Srcmv.Proofs.Core.Sweep
import Srcmv.Proofs.Core.Terminators
import Srcmv.Proofs.Core.Touched
import Srcmv.Proofs.Fs.Acceptance
import Srcmv.Proofs.Fs.Acquisition
import Srcmv.Proofs.Fs.Actions
import Srcmv.Proofs.Fs.Candidates
import Srcmv.Proofs.Fs.ChainScan
import Srcmv.Proofs.Fs.Charges
import Srcmv.Proofs.Fs.Classifying
import Srcmv.Proofs.Fs.Cleanup
import Srcmv.Proofs.Fs.Committing
import Srcmv.Proofs.Fs.CompletedContents
import Srcmv.Proofs.Fs.CrashInPublication
import Srcmv.Proofs.Fs.Creating
import Srcmv.Proofs.Fs.Directory
import Srcmv.Proofs.Fs.Envelope
import Srcmv.Proofs.Fs.Executing
import Srcmv.Proofs.Fs.Finishing
import Srcmv.Proofs.Fs.Footprint
import Srcmv.Proofs.Fs.Frames
import Srcmv.Proofs.Fs.Gate
import Srcmv.Proofs.Fs.History
import Srcmv.Proofs.Fs.Inspection
import Srcmv.Proofs.Fs.Layouts
import Srcmv.Proofs.Fs.Loading
import Srcmv.Proofs.Fs.ManifestBuilding
import Srcmv.Proofs.Fs.Manifests
import Srcmv.Proofs.Fs.Moving
import Srcmv.Proofs.Fs.Names
import Srcmv.Proofs.Fs.Outcomes
import Srcmv.Proofs.Fs.Phases
import Srcmv.Proofs.Fs.Places
import Srcmv.Proofs.Fs.PlannedJob
import Srcmv.Proofs.Fs.Preparing
import Srcmv.Proofs.Fs.Reaching
import Srcmv.Proofs.Fs.Recording
import Srcmv.Proofs.Fs.Recovering
import Srcmv.Proofs.Fs.Removal
import Srcmv.Proofs.Fs.Reporting
import Srcmv.Proofs.Fs.Resting
import Srcmv.Proofs.Fs.Resuming
import Srcmv.Proofs.Fs.RollingBack
import Srcmv.Proofs.Fs.Scanning
import Srcmv.Proofs.Fs.Sizes
import Srcmv.Proofs.Fs.Staging
import Srcmv.Proofs.Fs.Stopping
import Srcmv.Proofs.Fs.Trees
import Srcmv.Proofs.Fs.Undoing
import Srcmv.Proofs.Fs.Watching
import Srcmv.Proofs.Lsp.Candidates
import Srcmv.Proofs.Lsp.Conversing
import Srcmv.Proofs.Lsp.Conversions
import Srcmv.Proofs.Lsp.Extents
import Srcmv.Proofs.Lsp.Frames
import Srcmv.Proofs.Lsp.Headers
import Srcmv.Proofs.Lsp.PhysicalLines
import Srcmv.Proofs.Lsp.Ranges
import Srcmv.Proofs.Lsp.Receiving
import Srcmv.Proofs.Protocol.Digests
import Srcmv.Proofs.Protocol.RequestPaths
import Srcmv.Proofs.Protocol.Requests
import Srcmv.Soundness.Aliases
import Srcmv.Soundness.Atomicity
import Srcmv.Soundness.Buffering
import Srcmv.Soundness.CandidateOrder
import Srcmv.Soundness.Cleanup
import Srcmv.Soundness.CommitReport
import Srcmv.Soundness.CommitResult
import Srcmv.Soundness.Completion
import Srcmv.Soundness.Composition
import Srcmv.Soundness.CopyReady
import Srcmv.Soundness.Correlation
import Srcmv.Soundness.DeclarationLines
import Srcmv.Soundness.DiffBudget
import Srcmv.Soundness.DigestText
import Srcmv.Soundness.Envelopes
import Srcmv.Soundness.ExactAcceptance
import Srcmv.Soundness.Flattening
import Srcmv.Soundness.Framing
import Srcmv.Soundness.HeaderGrammar
import Srcmv.Soundness.History
import Srcmv.Soundness.Hunk
import Srcmv.Soundness.InsertionGroups
import Srcmv.Soundness.Isolation
import Srcmv.Soundness.JournalAgreement
import Srcmv.Soundness.JournalLimits
import Srcmv.Soundness.LineCounting
import Srcmv.Soundness.LineSplitting
import Srcmv.Soundness.LongLines
import Srcmv.Soundness.ManifestBuilding
import Srcmv.Soundness.Nesting
import Srcmv.Soundness.OneTransaction
import Srcmv.Soundness.Outline
import Srcmv.Soundness.OutputSummary
import Srcmv.Soundness.Permissions
import Srcmv.Soundness.PlanRecord
import Srcmv.Soundness.PositionQueries
import Srcmv.Soundness.Positions
import Srcmv.Soundness.Presentation
import Srcmv.Soundness.Publication
import Srcmv.Soundness.RecoveryLimit
import Srcmv.Soundness.Refusals
import Srcmv.Soundness.RequestLanguage
import Srcmv.Soundness.ResponseProjection
import Srcmv.Soundness.ResponseSizes
import Srcmv.Soundness.Rollback
import Srcmv.Soundness.Samples
import Srcmv.Soundness.Sessions
import Srcmv.Soundness.Supervision
import Srcmv.Soundness.UserPositions
import Srcmv.Soundness.Visibility
import Srcmv.Soundness.WorkLimit
import Srcmv.ToMathlib.Base64
import Srcmv.ToMathlib.Cbor
import Srcmv.ToMathlib.CompactJson
import Srcmv.ToMathlib.Emission
import Srcmv.ToMathlib.Except
import Srcmv.ToMathlib.ExceptState
import Srcmv.ToMathlib.Incremental
import Srcmv.ToMathlib.Json
import Srcmv.ToMathlib.JsonContent
import Srcmv.ToMathlib.JsonText
import Srcmv.ToMathlib.OrderedMap
import Srcmv.ToMathlib.Runs
import Srcmv.ToMathlib.Serde
import Srcmv.ToMathlib.Sha256
import Srcmv.ToMathlib.Utf8
