import PodRoutes.Cloud.Client
import PodRoutes.Cluster.Events
import PodRoutes.CommandLine.Report
import PodRoutes.Main
import PodRoutes.Metrics.Endpoint
import PodRoutes.Proofs.Calm.Routes
import PodRoutes.Proofs.Calm.Turn
import PodRoutes.Proofs.Cloud.Calls
import PodRoutes.Proofs.Cloud.DefaultRoute
import PodRoutes.Proofs.Cloud.InMemory
import PodRoutes.Proofs.Cloud.Waiting
import PodRoutes.Proofs.Cluster.StatusUpdate
import PodRoutes.Proofs.Interleaving.Alone
import PodRoutes.Proofs.Interleaving.Authority
import PodRoutes.Proofs.Interleaving.ConflictStep
import PodRoutes.Proofs.Interleaving.Crew
import PodRoutes.Proofs.Interleaving.Engine
import PodRoutes.Proofs.Interleaving.LateTurn
import PodRoutes.Proofs.Interleaving.Lock
import PodRoutes.Proofs.Interleaving.NodeRequests
import PodRoutes.Proofs.Interleaving.Obeys
import PodRoutes.Proofs.Interleaving.Pending
import PodRoutes.Proofs.Interleaving.Play
import PodRoutes.Proofs.Interleaving.Scheduler
import PodRoutes.Proofs.Interleaving.Serial
import PodRoutes.Proofs.Interleaving.Unhindered
import PodRoutes.Proofs.Network.Disjoint
import PodRoutes.Proofs.Network.Inclusion
import PodRoutes.Proofs.Node.Due
import PodRoutes.Proofs.Node.PodNetwork
import PodRoutes.Proofs.Node.RouteChanges
import PodRoutes.Proofs.Node.Settings
import PodRoutes.Proofs.Node.Updates
import PodRoutes.Proofs.Protocol.Requests
import PodRoutes.Proofs.Protocol.Retries
import PodRoutes.Proofs.Protocol.Shortcut
import PodRoutes.Proofs.Reconcile.Agreement
import PodRoutes.Proofs.Reconcile.Converges
import PodRoutes.Proofs.Reconcile.Failures
import PodRoutes.Proofs.Reconcile.Idempotent
import PodRoutes.Proofs.Reconcile.Isolation
import PodRoutes.Proofs.Reconcile.LiveRoutes
import PodRoutes.Proofs.Reconcile.NetworkReport
import PodRoutes.Proofs.Reconcile.Removal
import PodRoutes.Proofs.Reconcile.Settled
import PodRoutes.Proofs.Route.Json
import PodRoutes.Proofs.Surroundings.Changing
import PodRoutes.Proofs.Surroundings.Conflicts
import PodRoutes.Proofs.Surroundings.EmptyIds
import PodRoutes.Proofs.Surroundings.Meets
import PodRoutes.Proofs.Surroundings.Owner
import PodRoutes.Proofs.Surroundings.Reliable
import PodRoutes.Proofs.Surroundings.Sheltered
import PodRoutes.Proofs.Surroundings.Truthful
import PodRoutes.Proofs.Surroundings.Vouched
import PodRoutes.Proofs.Table.Keyed
import PodRoutes.Proofs.Watch.Appearances
import PodRoutes.Proofs.Watch.Suppression
import PodRoutes.Proofs.Worker.Ledger
import PodRoutes.Proofs.Worker.Owed
import PodRoutes.Proofs.World.History
import PodRoutes.Proofs.World.Prompt
import PodRoutes.Protocol.Call
import PodRoutes.Reconcile.Periodic
import PodRoutes.Reconcile.Worker
import PodRoutes.Watch
import PodRoutes.Web.Script
