import ChpProxy.Lib.PrefixTree
import ChpProxy.Lib.Transition
import ChpProxy.Lib.Interaction
import ChpProxy.Lib.Interference
import ChpProxy.Lib.FileSystem
import ChpProxy.Lib.FileReading
import ChpProxy.Lib.PrivateDirectory
import ChpProxy.Lib.Footprint
import ChpProxy.Lib.Census
import ChpProxy.Lib.Ledger
import ChpProxy.Lib.MultiMap
import ChpProxy.Lib.Text
import ChpProxy.Lib.Whatwg
import ChpProxy.Lib.Utf8
import ChpProxy.Lib.Search
import ChpProxy.Lib.Radix
import ChpProxy.Lib.Percent
import ChpProxy.Lib.Reader
import ChpProxy.Lib.Calendar
import ChpProxy.Lib.Net.Address
import ChpProxy.Lib.Net.Literal
import ChpProxy.Lib.Net.Display
import ChpProxy.Lib.TreeMap
import ChpProxy.Lib.Result
import ChpProxy.Lib.Retry
import ChpProxy.Lib.Notify
import ChpProxy.Route
import ChpProxy.Http
import ChpProxy.RouteTable.Ordered
import ChpProxy.RouteTable.Matcher
import ChpProxy.RouteTable.Precedence
import ChpProxy.Store.Trait
import ChpProxy.Store.Memory
import ChpProxy.Store.Faulty
import ChpProxy.Store.Codec
import ChpProxy.Store.Json
import ChpProxy.Store.JsonText
import ChpProxy.Store.Snapshot
import ChpProxy.Store.Records
import ChpProxy.Store.Sidecar.Wire
import ChpProxy.Store.Sidecar.Client
import ChpProxy.Store.Sidecar.Protocol
import ChpProxy.Store.Sidecar.Reply
import ChpProxy.Store.Sidecar.Loop
import ChpProxy.Store.Sidecar.Outcome
import ChpProxy.Store.Sidecar.Endpoint
import ChpProxy.Registry.Tracker
import ChpProxy.Registry.Machine
import ChpProxy.Registry.Step
import ChpProxy.Registry.Invariant
import ChpProxy.Registry.Sealing
import ChpProxy.Registry.Handoff
import ChpProxy.Registry.Core
import ChpProxy.Registry.Delivery
import ChpProxy.Registry.Report
import ChpProxy.Registry.Effects
import ChpProxy.Registry.Diagnostics
import ChpProxy.Registry.Tracked
import ChpProxy.Registry.Accounting
import ChpProxy.Registry.Agreement
import ChpProxy.Registry.Publication
import ChpProxy.Registry.Observation
import ChpProxy.Registry.Synced
import ChpProxy.Registry.Restart
import ChpProxy.Registry.Health
import ChpProxy.Registry.Routing
import ChpProxy.Activity.Pending
import ChpProxy.Activity.Queue
import ChpProxy.Activity.Writer
import ChpProxy.Activity.Queueing
import ChpProxy.Activity.Service
import ChpProxy.Activity.Worker
import ChpProxy.Activity.Watermark
import ChpProxy.Activity.Flush
import ChpProxy.Activity.Persistence
import ChpProxy.Activity.Progress
import ChpProxy.PathOwnership.Boundary
import ChpProxy.PathOwnership.Owned
import ChpProxy.PathOwnership.Stages
import ChpProxy.PathOwnership.Cleanup
import ChpProxy.PathOwnership.Publication
import ChpProxy.PathOwnership.Unwinding
import ChpProxy.PathOwnership.Guards
import ChpProxy.PathOwnership.Capture
import ChpProxy.Shutdown.Coordinator
import ChpProxy.Shutdown.Graceful
import ChpProxy.Api.Request
import ChpProxy.Api.Router
import ChpProxy.Api.Pathname
import ChpProxy.Api.Stored
import ChpProxy.Api.Linearized
import ChpProxy.Api.Octets
import ChpProxy.Api.Token
import ChpProxy.Api.Authorization
import ChpProxy.Api.JsonErrors
import ChpProxy.Api.Percent
import ChpProxy.Api.UnixSocket
import ChpProxy.Api.UnixPublication
import ChpProxy.Api.Lifecycle
import ChpProxy.Api.AcceptStop
import ChpProxy.Api.PublicService
import ChpProxy.Api.PublicHandoff
import ChpProxy.Upstream.Headers
import ChpProxy.Upstream.Passes
import ChpProxy.Upstream.Policy
import ChpProxy.Upstream.HopByHop
import ChpProxy.Upstream.Target
import ChpProxy.Upstream.Uri
import ChpProxy.Upstream.Location
import ChpProxy.Proxy.Machine
import ChpProxy.Proxy.Step
import ChpProxy.Proxy.Routing
import ChpProxy.Proxy.Activity
import ChpProxy.Proxy.Answers
import ChpProxy.Proxy.Admission
import ChpProxy.Api.TlsListener
import ChpProxy.Config.Target
import ChpProxy.Config.App
import ChpProxy.Config.Redirect
import ChpProxy.Store.Redis.Client
import ChpProxy.Store.Redis.Record
import ChpProxy.Store.Redis.Outline
import ChpProxy.Store.Redis.Replace
import ChpProxy.Store.Redis.Update
import ChpProxy.Store.Redis.Delete
import ChpProxy.Store.Redis.Commit
import ChpProxy.Store.Redis.Pool
import ChpProxy.Lib.Session.Machine
import ChpProxy.Lib.Session.Outline
import ChpProxy.Lib.Session.Pool
import ChpProxy.Lib.Session.Ownership
import ChpProxy.Traffic.Lifecycle
import ChpProxy.Traffic.Drain
import ChpProxy.Traffic.Waiting
import ChpProxy.Errors.Chunked
import ChpProxy.Errors.Response
import ChpProxy.Errors.Resolver
import ChpProxy.Errors.Lease
import ChpProxy.Errors.Request
import ChpProxy.Errors.Files
import ChpProxy.PercentCodecs
import ChpProxy.Lib.Exposition
import ChpProxy.Lib.Rounding
import ChpProxy.Metrics.Counters
import ChpProxy.Metrics.Rendering
import ChpProxy.Metrics.Scrape
