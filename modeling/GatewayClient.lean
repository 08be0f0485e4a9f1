import GatewayClient.Client.Login
import GatewayClient.Client.Lookup
import GatewayClient.Json.Reader
import GatewayClient.Log.Filter
import GatewayClient.Pipeline.Build
import GatewayClient.Pipeline.Transform
import GatewayClient.Scenario.Step
import GatewayClient.SessionId
import GatewayClient.Settings.Load
import GatewayClient.Proofs.Delivery.Depth
import GatewayClient.Proofs.Delivery.Containment
import GatewayClient.Proofs.Delivery.Paths
import GatewayClient.Proofs.Delivery.Chronicle
import GatewayClient.Proofs.Delivery.Snapshot
import GatewayClient.Proofs.Scenario.Run
import GatewayClient.Proofs.Lookup.Trail
import GatewayClient.Proofs.Scenario.Numbering
import GatewayClient.Proofs.Scenario.Quiet
import GatewayClient.Proofs.Lookup.Release
import GatewayClient.Proofs.Lookup.Journey
import GatewayClient.Proofs.Lookup.Cancellation
import GatewayClient.Proofs.Lookup.Timetable
import GatewayClient.Proofs.Lookup.Retries
import GatewayClient.Proofs.Scenario.History
import GatewayClient.Proofs.Scenario.Application
import GatewayClient.Proofs.Scenario.OneTask
import GatewayClient.Proofs.Lookup.Background
import GatewayClient.Proofs.Scenario.Connection
import GatewayClient.Proofs.Login.Start
import GatewayClient.Proofs.Login.Batch
import GatewayClient.Proofs.Login.OneByOne
import GatewayClient.Proofs.Login.Validation
import GatewayClient.Proofs.Login.Coverage
import GatewayClient.Proofs.Login.Matching
import GatewayClient.Proofs.Delivery.Registration
import GatewayClient.Proofs.Scenario.Ledger
import GatewayClient.Proofs.Lookup.Seeking
import GatewayClient.Proofs.Login.Configuration
import GatewayClient.Proofs.Scenario.Pipelines
import GatewayClient.Proofs.Delivery.Routing
import GatewayClient.Proofs.Login.Routing
import GatewayClient.Proofs.Scenario.Accounted
import GatewayClient.Proofs.Number.Rounding
import GatewayClient.Proofs.Lookup.Pace
import GatewayClient.Proofs.Scenario.Progress
import GatewayClient.Proofs.Scenario.Steady
import GatewayClient.Proofs.Login.Outcome
import GatewayClient.Proofs.Login.Resolution
import GatewayClient.Proofs.Scenario.Interleaving
import GatewayClient.Proofs.Lookup.Alone
import GatewayClient.Proofs.Settings.Objects
import GatewayClient.Proofs.Settings.Records
import GatewayClient.Proofs.Settings.Wire
import GatewayClient.Proofs.Settings.Overriding
import GatewayClient.Proofs.Settings.Layers
import GatewayClient.Proofs.Settings.Saved
import GatewayClient.Proofs.Settings.Acceptance
import GatewayClient.Proofs.Settings.Merging
import GatewayClient.Proofs.Settings.Repetition
import GatewayClient.Proofs.Settings.Unset
import GatewayClient.Proofs.Settings.Environment
import GatewayClient.Proofs.Delivery.Isolation
import GatewayClient.Proofs.Delivery.Grouping
import GatewayClient.Proofs.Delivery.Dispatch
import GatewayClient.Proofs.Delivery.Fusion
import GatewayClient.Proofs.Number.Monotone
import GatewayClient.Proofs.Scenario.Kept
import GatewayClient.Proofs.Lookup.Growth
import GatewayClient.Proofs.Lookup.Spacing
import GatewayClient.Proofs.Lookup.Doubling
import GatewayClient.Proofs.Secrets.Veil
import GatewayClient.Proofs.Secrets.Scenario
import GatewayClient.Proofs.Secrets.Loading
import GatewayClient.Proofs.Secrets.Runs
import GatewayClient.Proofs.Lookup.Bounds
import GatewayClient.Proofs.Lookup.Waiting
import GatewayClient.Proofs.Wire.Edits
import GatewayClient.Proofs.Wire.Tolerance
import GatewayClient.Proofs.Settings.Numerals
import GatewayClient.Proofs.Scenario.TwoWrites
