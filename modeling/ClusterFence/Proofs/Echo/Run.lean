import ClusterFence.Domain.Input
import ClusterFence.Proofs.Cluster
import ClusterFence.Proofs.Records

namespace ClusterFence

/-- What a domain is fed with that hears nobody but itself. -/
inductive EchoInput where
  | membership (change : Membership)
  | ring (node : NodeId) (seq : UInt64)
  | cluster (snapshot : ClusterSnapshot)
  | echo
deriving DecidableEq, Repr

/-- The members are those of the change `c`, less those who left and with those who joined. -/
def Membership.follows (m : Membership) (c : Change) : Bool :=
  (m.members.all fun a => (c.isMember a.node && !m.left.any (·.node == a.node)) ||
    m.joined.any (·.node == a.node)) &&
  c.members.all fun p => m.left.any (·.node == p.node) || m.lists p.node

namespace Loopback

/-- A domain before its first input. -/
def new (config : Config) : Loopback := { domain := .new config }

/-- What an input makes of the domain and of its messages on their way back. -/
def act (l : Loopback) (now : Seconds) : EchoInput → Loopback
  | .membership m => (l.step now (.membership m)).1
  | .ring node seq => (l.step now (.ring node seq)).1
  | .cluster s => (l.step now (.cluster s)).1
  | .echo => ((l.deliverOldest now).map (·.1)).getD l

/-- What inputs lead to, each at its own time of the clock. -/
def run (l : Loopback) : List (Seconds × EchoInput) → Loopback
  | [] => l
  | (now, i) :: rest => (l.act now i).run rest

/-- The input is consistent with what came before. A membership change lists each member once, us
    among them, and whoever joined is a member; we join in the first one, as members of the
    cluster, and do not leave; each of the others follows on the one before and is not earlier; and
    there is a number left for it. A snapshot keeps us in the cluster once we have joined. -/
def admits (l : Loopback) (now : Seconds) : EchoInput → Bool
  | .membership m =>
    decide (m.members.map (·.node)).Nodup && m.lists l.domain.us &&
      !m.left.any (·.node == l.domain.us) && m.joined.all (m.lists ·.node) &&
      decide (l.domain.changes.changeSeq.toNat + 1 < UInt32.size) &&
      match l.domain.changes.latest? with
      | none => m.joined.any (·.node == l.domain.us) && l.domain.cluster.isMember l.domain.us &&
          decide ((l.domain.history.lookup l.domain.us).clusterAddTime ≤ now)
      | some c => decide (c.createTime ≤ now) && m.follows c
  | .cluster s =>
    l.domain.changes.latest?.isNone || l.domain.cluster.keeps s [l.domain.us]
  | .ring _ _ | .echo => true

/-- Each input is consistent with what came before. -/
def admitsAll (l : Loopback) : List (Seconds × EchoInput) → Bool
  | [] => true
  | (now, i) :: rest => l.admits now i && (l.act now i).admitsAll rest

end Loopback

/-- The pending changes in which our own member has started. -/
def Domain.startedIn (d : Domain) : List UInt32 :=
  (d.changes.pending.filter fun c => (c.member? d.us).any (·.started)).map (·.seq)

/-- The message that comes back next starts our member in the change numbered `seq`, where it had
    not started, and in no other pending change. -/
def Loopback.Lands (l : Loopback) (now : Seconds) (seq : UInt32) : Prop :=
  seq ∉ l.domain.startedIn ∧
    ∀ other, other ∈ (l.act now .echo).domain.startedIn ↔
      other = seq ∨ other ∈ l.domain.startedIn

/-- Every START that comes back lands on the change that it was sent for. -/
def Loopback.Faithful (l : Loopback) : List (Seconds × EchoInput) → Prop
  | [] => True
  | (now, i) :: rest =>
    (i = .echo → ∀ flags report later, l.queued = (flags, .start report) :: later →
      l.Lands now report.seq) ∧ (l.act now i).Faithful rest

/-- The latest change that was matched with a START of ours. -/
def Domain.lastMatch (d : Domain) : UInt32 := (d.history.lookup d.us).lastMatchSeq

/-- The pending changes that our START for the change `c` can be taken for: they have its sizes and
    members, our START for them was not taken down yet, and none for a later change was. -/
def Domain.lookAlikes (d : Domain) (c : Change) : List Change :=
  d.changes.pending.filter fun other =>
    other.counts == c.counts && c.membersWithin other && other.awaits d.us &&
      decide (d.lastMatch ≤ other.seq)

/-- Those that are older than `c`. -/
def Domain.olderLookAlikes (d : Domain) (c : Change) : List Change :=
  (d.lookAlikes c).filter (·.seq < c.seq)

/-- Those other than `c`. -/
def Domain.otherLookAlikes (d : Domain) (c : Change) : List Change :=
  (d.lookAlikes c).filter (·.seq != c.seq)

end ClusterFence
