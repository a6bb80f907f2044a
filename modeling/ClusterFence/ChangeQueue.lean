import ClusterFence.History

namespace ClusterFence

/-- The pending changes, newest first, the change that was last completed, and how many were. The
    group works on the newest one; once it is done with, it supersedes every older one. The count
    passes over zero, which means "never". -/
structure ChangeQueue where
  changeSeq : UInt32 := 0
  pending : List Change := []
  started : Option Change := none
  startedCount : UInt32 := 0
deriving DecidableEq, Repr, Inhabited

namespace Membership

/-- The nodes whose daemon died while the node stayed up. They are evicted. -/
def evictions (m : Membership) : List NodeId :=
  (m.left.filter (·.reason == .processDown)).map (·.node)

def lists (m : Membership) (node : NodeId) : Bool := m.members.any (·.node == node)

/-- The first node that is said to have joined and is not listed as a member. -/
def stray? (m : Membership) : Option NodeId :=
  (m.joined.find? (!m.lists ·.node)).map (·.node)

end Membership

namespace History

/-- Notes who failed and who left in the change numbered `seq`. -/
def recordRemovals (h : History) (left : List GroupAddress) (seq : UInt32) (now : Seconds) :
    History :=
  left.foldl (fun h a =>
    if a.reason.isFailure then h.recordFail a.node seq now else h.recordLeft a.node seq now) h

/-- A removal of a node without a history is told to the log. -/
def removalNotices (h : History) (left : List GroupAddress) : List Notice :=
  left.flatMap fun a => h.missing (if a.reason.isFailure then .fail else .left) a.node

/-- Every other node that joined gets a history, up to the first one that is not a member; when
    we joined ourselves, so does every member. -/
def ensureJoined (h : History) (us : NodeId) (m : Membership) : History :=
  let settled := m.joined.takeWhile (m.lists ·.node)
  let h := settled.foldl (fun h a => if a.node == us then h else h.ensure a.node) h
  if m.stray?.isNone && m.joined.any (·.node == us) then
    m.members.foldl (·.ensure ·.node) h
  else h

end History

namespace ChangeQueue

def current? (q : ChangeQueue) : Option Change := q.pending.head?

/-- The change to report on: the one worked on, else the one last completed. -/
def latest? (q : ChangeQueue) : Option Change := q.current?.or q.started

def get? (q : ChangeQueue) (seq : UInt32) : Option Change := q.pending.find? (·.seq == seq)

/-- What the change with that number knows of a node. -/
def part? (q : ChangeQueue) (seq : UInt32) (node : NodeId) : Option Participant :=
  (q.get? seq).bind (·.member? node)

def update (q : ChangeQueue) (seq : UInt32) (f : Change → Change) : ChangeQueue :=
  { q with pending := updateFirst (·.seq == seq) f q.pending }

def updateCurrent (q : ChangeQueue) (f : Change → Change) : ChangeQueue :=
  match q.pending with
  | [] => q
  | c :: older => { q with pending := f c :: older }

/-- What comes of a membership event: the change is queued, or it is refused. Either way the
    event has used up a number, and left its marks in the histories. -/
structure Addition where
  queue : ChangeQueue
  history : History
  outcome : Except Error Change
  notices : List Notice

/-- Takes up a membership event. It is refused when a node joined that is not a member. -/
def add (q : ChangeQueue) (us : NodeId) (m : Membership) (h : History) (now : Seconds) :
    Addition :=
  let seq := q.changeSeq + 1
  let history := (h.recordRemovals m.left seq now).ensureJoined us m
  let notices := h.removalNotices m.left
  match m.stray? with
  | some node =>
    { queue := { q with changeSeq := seq }
      history
      outcome := .error (.invariant (.joinedNotMember seq node))
      notices := notices ++ [.joinedNotMember node] }
  | none =>
    let change := Change.ofMembership seq us m now
    { queue := { q with changeSeq := seq, pending := change :: q.pending }
      history
      outcome := .ok change
      notices }

/-- The count after one more; zero is kept for "never". -/
def nextCount (n : UInt32) : UInt32 := if n + 1 == 0 then 1 else n + 1

/-- The current change is completed and the older ones are dropped. -/
def retire (q : ChangeQueue) : ChangeQueue :=
  match q.pending with
  | [] => q
  | c :: _ =>
    { q with pending := [], started := some c, startedCount := nextCount q.startedCount }

/-- Some pending change added the node. -/
def isAdded (q : ChangeQueue) (node : NodeId) : Bool := q.pending.any (·.hasAdded node)

/-- Some pending change added nodes. -/
def nodesAdded (q : ChangeQueue) : Bool := q.pending.any (·.counts.joined > 0)

/-- The oldest pending change whose START was not sent and which no peer could tell from the
    current one. -/
def duplicateOfOlder? (q : ChangeQueue) : Option UInt32 :=
  q.current?.bind fun c =>
    ((q.pending.filter fun old =>
      !old.sentStart && old.seq < c.seq && old.counts == c.counts && old.membersWithin c).map
        (·.seq)).getLast?

end ChangeQueue

end ClusterFence
