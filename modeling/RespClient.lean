import RespClient.Cluster.Redirect
import RespClient.Cluster.Router
import RespClient.Cluster.SlotTable
import RespClient.Connection
import RespClient.Decimal.Shortest
import RespClient.Main
import RespClient.Proofs.Command.RoundTrip
import RespClient.Proofs.Connection.Correlation
import RespClient.Proofs.Reply.Chunking
import RespClient.Sentinel.Resolver
import RespClient.Settings.Document
import RespClient.Shell.Program
import RespClient.Simulation.Session
import RespClient.Proofs.Connection.Journal
import RespClient.Proofs.Connection.Closing
import RespClient.Proofs.Connection.Wire
import RespClient.Proofs.Cluster.Router.Forest
import RespClient.Proofs.Cluster.Router.Custody
import RespClient.Proofs.Cluster.Router.Pool
import RespClient.Proofs.Settings.Backoff
import RespClient.Proofs.Cluster.Router.Progress
import RespClient.Proofs.Cluster.Router.Redirects
import RespClient.Proofs.Cluster.SlotTable
import RespClient.Proofs.Cluster.Router.Tables
import RespClient.Proofs.Cluster.Router.Liveness
import RespClient.Proofs.Cluster.Router.Routing
import RespClient.Proofs.Cluster.Router.Vacancy
import RespClient.Proofs.Cluster.Router.Shutdown
import RespClient.Proofs.Cluster.System.Greeting
import RespClient.Proofs.Cluster.System.Asking
import RespClient.Proofs.Cluster.Router.Alignment
import RespClient.Proofs.Cluster.Router.Stranding
import RespClient.Proofs.Sentinel.Resolver.Resolution
import RespClient.Proofs.Sentinel.Resolver.Notifier
import RespClient.Proofs.Cluster.Checksum
import RespClient.Proofs.Cluster.Router.Survey
import RespClient.Proofs.Cluster.Router.Recovery
import RespClient.Proofs.Sentinel.Announcements
import RespClient.Proofs.Cluster.HashTag
import RespClient.Proofs.Shell.Tokens
import RespClient.Proofs.Shell.Layout
import RespClient.Proofs.Cluster.System.Strays
import RespClient.Proofs.Shell.Request
import RespClient.Proofs.Reply.Frames
import RespClient.Proofs.Sentinel.Silence
import RespClient.Proofs.Settings.Durations
