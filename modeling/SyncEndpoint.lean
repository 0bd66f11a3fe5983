import SyncEndpoint.Main
import SyncEndpoint.Cli.Run
import SyncEndpoint.Watch.Observer
import SyncEndpoint.Endpoint.Watching
import SyncEndpoint.Watch.Interpreter
import SyncEndpoint.Endpoint.Mutation
import SyncEndpoint.Endpoint.Walk
import SyncEndpoint.Endpoint.Basic
import SyncEndpoint.Storage.OnDisk
import SyncEndpoint.Storage.Faults
import SyncEndpoint.Identity.Marker
import SyncEndpoint.Identity.Digest
import SyncEndpoint.Storage.Memory
import SyncEndpoint.Storage.Program
import SyncEndpoint.Settings.Files
import SyncEndpoint.Settings.Environment
import SyncEndpoint.Settings.Document
import SyncEndpoint.Settings.Basic
import SyncEndpoint.Text.Quoted
import SyncEndpoint.Text.Numeral
import SyncEndpoint.Disk.Operations
import SyncEndpoint.Disk.Lookup
import SyncEndpoint.Disk.Basic
import SyncEndpoint.Disk.Failure
import SyncEndpoint.Toml.Printer
import SyncEndpoint.Toml.Document
import SyncEndpoint.Toml.Reader
import SyncEndpoint.Toml.Quoted
import SyncEndpoint.Toml.Scalar
import SyncEndpoint.Toml.Value
import SyncEndpoint.Text.Hex
import SyncEndpoint.Path.Platform
import SyncEndpoint.Path.Native
import SyncEndpoint.Ignore.List
import SyncEndpoint.Time.Reader
import SyncEndpoint.Json.Printer
import SyncEndpoint.Json.Reader
import SyncEndpoint.Json.Record
import SyncEndpoint.Error
import SyncEndpoint.Node
import SyncEndpoint.Event
import SyncEndpoint.Watch.Notification
import SyncEndpoint.Watch.Session
import SyncEndpoint.Watch.Buffer
import SyncEndpoint.Proofs.Endpoint.Guards
import SyncEndpoint.Proofs.Endpoint.MoveOverlap
import SyncEndpoint.Proofs.Endpoint.Walk.Confinement
import SyncEndpoint.Proofs.Endpoint.Walk.Enumeration
import SyncEndpoint.Proofs.Watch.Delivery
import SyncEndpoint.Proofs.Storage.Frame
import SyncEndpoint.Proofs.Storage.History
import SyncEndpoint.Proofs.Endpoint.Footprint
import SyncEndpoint.Proofs.Endpoint.Requests
import SyncEndpoint.Proofs.Ignore.Levels
import SyncEndpoint.Proofs.Ignore.Regex
import SyncEndpoint.Proofs.Ignore.Directories
import SyncEndpoint.Proofs.Ignore.Growth
import SyncEndpoint.Proofs.Ignore.Marker
import SyncEndpoint.Proofs.Watch.Interpretation
import SyncEndpoint.Proofs.Watch.Markers
import SyncEndpoint.Proofs.Watch.Visibility
import SyncEndpoint.Proofs.Storage.Spared
import SyncEndpoint.Proofs.Endpoint.Stability
import SyncEndpoint.Proofs.Endpoint.MarkerRace
import SyncEndpoint.Proofs.Watch.Exclusion
import SyncEndpoint.Proofs.Watch.Session
import SyncEndpoint.Proofs.Storage.Names
import SyncEndpoint.Proofs.Endpoint.ErrorPaths
import SyncEndpoint.Proofs.Endpoint.InterruptedMint
import SyncEndpoint.Proofs.Endpoint.Creation
import SyncEndpoint.Proofs.Endpoint.Walk.Reports
import SyncEndpoint.Proofs.Watch.Addresses
import SyncEndpoint.Proofs.Watch.Decisions
import SyncEndpoint.Proofs.Endpoint.MarkerContent
import SyncEndpoint.Proofs.Endpoint.Loading
import SyncEndpoint.Proofs.Endpoint.Content
import SyncEndpoint.Proofs.Storage.FailedCalls
import SyncEndpoint.Proofs.Path.Platform
import SyncEndpoint.Proofs.Settings.Document
import SyncEndpoint.Proofs.Time.Millis
import SyncEndpoint.Proofs.Node
import SyncEndpoint.Proofs.Path.Rebasing
import SyncEndpoint.Proofs.Endpoint.MoveOrder
import SyncEndpoint.Proofs.Watch.Limits
import SyncEndpoint.Proofs.Identity.DigestTree
import SyncEndpoint.Proofs.Identity.ContentHash
import SyncEndpoint.Proofs.Endpoint.KeyTree
