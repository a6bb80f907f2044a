import ClusterFence.Group
import ClusterFence.Wire.Message

namespace ClusterFence

/-- How far a node has got with a change: it waits for quorum on an agreed ring, then for the
    START of every member, then for the victims to be dealt with. -/
inductive ChangePhase where
  | awaitingConditions
  | awaitingStarts
  | awaitingFencing
deriving DecidableEq, Repr, Inhabited

def ChangePhase.text : ChangePhase → String
  | .awaitingConditions => "WAIT_CONDITIONS"
  | .awaitingStarts => "WAIT_MESSAGES"
  | .awaitingFencing => "WAIT_FENCING"

/-- A node's part in one change. A member that is `disallowed` came back from a partition while
    both sides had started, and its STARTs do not count. -/
structure Participant where
  node : NodeId
  started : Bool := false
  added : Bool := false
  failed : Bool := false
  disallowed : Bool := false
  startFlags : MessageFlags := {}
deriving DecidableEq, Repr, Inhabited

/-- Changes the first element that passes the test. -/
def updateFirst {α : Type} (p : α → Bool) (f : α → α) : List α → List α
  | [] => []
  | x :: xs => if p x then f x :: xs else x :: updateFirst p f xs

/-- One membership change of the domain group. -/
structure Change where
  seq : UInt32
  phase : ChangePhase := .awaitingConditions
  members : List Participant := []
  removed : List Participant := []
  counts : ChangeCounts := {}
  weJoined : Bool := false
  sentStart : Bool := false
  createTime : Seconds := 0
deriving DecidableEq, Repr, Inhabited

namespace Change

def member? (c : Change) (node : NodeId) : Option Participant :=
  c.members.find? (·.node == node)

def isMember (c : Change) (node : NodeId) : Bool := c.members.any (·.node == node)

/-- The node is a member that this change added. -/
def hasAdded (c : Change) (node : NodeId) : Bool := (c.member? node).any (·.added)

/-- The node is a member whose START this change still waits for. -/
def awaits (c : Change) (node : NodeId) : Bool := (c.member? node).any (!·.started)

def updateMember (c : Change) (node : NodeId) (f : Participant → Participant) : Change :=
  { c with members := updateFirst (·.node == node) f c.members }

/-- Those removed by failure, in the order in which they were removed. -/
def failedNodes (c : Change) : List NodeId := (c.removed.filter (·.failed)).map (·.node)

/-- Every member of the one is a member of the other. -/
def membersWithin (c other : Change) : Bool := c.members.all fun m => other.isMember m.node

def allStarted (c : Change) : Bool := c.members.all (·.started)

/-- How many members have yet to start, of how many. -/
def startsNeeded (c : Change) : Nat × Nat :=
  ((c.members.filter (!·.started)).length, c.members.length)

/-- The summary that a START or COMPLETE for this change carries. -/
def summary (c : Change) (startedCount : UInt32) : ChangeSummary :=
  { startedCount, counts := c.counts }

/-- The change that a membership event describes, as it is before anything is done about it. -/
def ofMembership (seq : UInt32) (us : NodeId) (m : Membership) (now : Seconds) : Change where
  seq := seq
  members := m.joined.foldl
    (fun members a => updateFirst (·.node == a.node) ({ · with added := true }) members)
    (m.members.map ({ node := ·.node }))
  removed := m.left.map fun a => { node := a.node, failed := a.reason.isFailure }
  counts :=
    { members := UInt32.ofNat m.members.length
      joined := UInt32.ofNat m.joined.length
      removed := UInt32.ofNat m.left.length
      failed := UInt32.ofNat (m.left.filter (·.reason.isFailure)).length }
  weJoined := m.joined.any (·.node == us)
  createTime := now

end Change

end ClusterFence
