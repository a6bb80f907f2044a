import ClusterFence.Daemon.Session
import ClusterFence.Domain.Report
import ClusterFence.Fencing.Override
import ClusterFence.Main
import ClusterFence.Network
import ClusterFence.Proofs.Domain.Run
import ClusterFence.Proofs.UpdateFirst
import ClusterFence.Proofs.Victims
import ClusterFence.Proofs.Domain.Forgetting
import ClusterFence.Proofs.Changes
import ClusterFence.Proofs.Queue
import ClusterFence.Proofs.Domain.Turns
import ClusterFence.Proofs.Domain.Lifecycle
import ClusterFence.Proofs.Domain.Reports
import ClusterFence.Proofs.Daemon.Handed
import ClusterFence.Proofs.Fencing.Reports
import ClusterFence.Proofs.Daemon.Lifecycle
import ClusterFence.Proofs.History
import ClusterFence.Proofs.Daemon.OutsideFencing
import ClusterFence.Proofs.Episode.Basic
import ClusterFence.Proofs.Episode.Election
import ClusterFence.Proofs.Episode.Pending
import ClusterFence.Proofs.Episode.Course
import ClusterFence.Proofs.Episode.Orderly
import ClusterFence.Proofs.Evolution
import ClusterFence.Proofs.Domain.Histories
import ClusterFence.Proofs.Episode.Recorded
import ClusterFence.Proofs.Episode.Counting
import ClusterFence.Proofs.Episode.Dealing
import ClusterFence.Proofs.Episode.Reporting
import ClusterFence.Proofs.Episode.Settled
import ClusterFence.Proofs.Domain.Failures
import ClusterFence.Proofs.Domain.Matching
import ClusterFence.Proofs.Domain.Taken
import ClusterFence.Proofs.Domain.StartOrder
import ClusterFence.Proofs.Domain.Master
import ClusterFence.Proofs.Cluster
import ClusterFence.Proofs.Echo.Rivals
import ClusterFence.Proofs.Echo.Run
import ClusterFence.Proofs.Echo.Steady
import ClusterFence.Proofs.Echo.Inputs
import ClusterFence.Proofs.Echo.Landing
import ClusterFence.Proofs.Echo.Membership
import ClusterFence.Proofs.Echo.Faithful
import ClusterFence.Proofs.Daemon.Agenda
import ClusterFence.Proofs.Fencing.Resolving
import ClusterFence.Proofs.Domain.Fencing
import ClusterFence.Proofs.Daemon.Hearing
import ClusterFence.Proofs.Daemon.Underway
import ClusterFence.Proofs.Daemon.Completion
import ClusterFence.Proofs.Wire.Bytes
import ClusterFence.Proofs.Wire.RoundTrip
import ClusterFence.Proofs.Wire.Bounds
import ClusterFence.Proofs.Wire.Acceptance
import ClusterFence.Proofs.Domain.Uptake
import ClusterFence.Proofs.Domain.Growth
import ClusterFence.Proofs.Peers.Roster
import ClusterFence.Proofs.Peers.Victims
import ClusterFence.Proofs.Peers.Agreement
import ClusterFence.Proofs.Peers.Healing
import ClusterFence.Proofs.Domain.Refusal
import ClusterFence.Proofs.Negotiation.Group
import ClusterFence.Proofs.Negotiation.CleanMember
import ClusterFence.Proofs.Negotiation.Lowest
import ClusterFence.Proofs.Negotiation.Assembly
import ClusterFence.Proofs.Negotiation.Formation
import ClusterFence.Proofs.Negotiation.Log
import ClusterFence.Proofs.Negotiation.Agreement
import ClusterFence.Proofs.Negotiation.Joins
import ClusterFence.Proofs.Negotiation.Eviction
import ClusterFence.Proofs.Negotiation.Running
import ClusterFence.Proofs.Negotiation.Arrival
import ClusterFence.Proofs.Peers.Fenced
import ClusterFence.Proofs.Daemon.Transition
import ClusterFence.Proofs.Daemon.Backlog
import ClusterFence.Proofs.Daemon.Entitled
import ClusterFence.Proofs.Daemon.Entry
import ClusterFence.Proofs.Fencing.Deeds
import ClusterFence.Proofs.Fencing.Discipline
import ClusterFence.Proofs.Fencing.Delaying
import ClusterFence.Proofs.Fencing.Restarting
import ClusterFence.Proofs.Fencing.Expiring
import ClusterFence.Proofs.Matching.Search
import ClusterFence.Proofs.Matching.LookAlikes
import ClusterFence.Proofs.Snapshot
import ClusterFence.Proofs.Wire.Wider
import ClusterFence.Proofs.Merging
import ClusterFence.Proofs.Retrying
import ClusterFence.Proofs.Fencing.Telling
import ClusterFence.Proofs.Toml.Text
import ClusterFence.Proofs.Toml.Number
import ClusterFence.Proofs.Toml.Table
import ClusterFence.Proofs.Toml.Line
import ClusterFence.Proofs.Config.Starter
import ClusterFence.Proofs.CommandLine.Init
