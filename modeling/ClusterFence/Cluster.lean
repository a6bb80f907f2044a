import ClusterFence.History

namespace ClusterFence

/-- One node as the quorum service sees it. Its incarnation goes up each time it joins. -/
structure ClusterNode where
  node : NodeId
  name : String
  member : Bool
  incarnation : UInt32
deriving DecidableEq, Repr, Inhabited

/-- The state of the cluster at one moment. The ring number compares with that of the group
    service. -/
structure ClusterSnapshot where
  quorate : Bool := false
  ringSeq : UInt32 := 0
  nodes : List ClusterNode := []
deriving DecidableEq, Repr, Inhabited

namespace ClusterSnapshot

/-- The first node listed under the id. -/
def node? (s : ClusterSnapshot) (node : NodeId) : Option ClusterNode :=
  s.nodes.find? (·.node == node)

def isMember (s : ClusterSnapshot) (node : NodeId) : Bool := (s.node? node).any (·.member)

def name? (s : ClusterSnapshot) (node : NodeId) : Option String := (s.node? node).map (·.name)

end ClusterSnapshot

/-- What is known of the cluster: the latest snapshot, when quorum was last regained, and whether
    the latest update that added nodes also regained it. -/
structure ClusterView where
  quorate : Bool := false
  ringSeq : UInt32 := 0
  quorateTime : Seconds := 0
  quorateFromLastUpdate : Bool := false
  nodes : NodeTable ClusterNode := ∅

/-- What a snapshot says that happened to one node since the one before. A node with a new
    incarnation went and came back. -/
inductive Transition where
  | came
  | went
  | cameBack
deriving DecidableEq, Repr, Inhabited

namespace ClusterView

instance : Inhabited ClusterView := ⟨{}⟩

def isMember (v : ClusterView) (node : NodeId) : Bool := v.nodes[node]?.any (·.member)

def name? (v : ClusterView) (node : NodeId) : Option String := v.nodes[node]?.map (·.name)

/-- The nodes by ascending id. -/
def toList (v : ClusterView) : List ClusterNode := v.nodes.toList.map (·.2)

/-- The nodes of a snapshot by id; of two under one id the later counts. -/
def tableOf (s : ClusterSnapshot) : NodeTable ClusterNode :=
  s.nodes.foldl (fun t n => t.insert n.node n) ∅

/-- The nodes that were members and no longer are. -/
def departures (old new : NodeTable ClusterNode) : List (NodeId × Transition) :=
  (old.toList.filter fun (id, n) => n.member && !new[id]?.any (·.member)).map (·.1, .went)

/-- What became of a node listed now, given how it was listed before. -/
def arrival? (before : Option ClusterNode) (n : ClusterNode) : Option Transition :=
  if n.member && !before.any (·.member) then some .came
  else if before.any (·.incarnation != n.incarnation) then some .cameBack
  else none

/-- The nodes listed now that became members, or went and came back. -/
def arrivals (old new : NodeTable ClusterNode) : List (NodeId × Transition) :=
  new.toList.filterMap fun (id, n) => (arrival? old[id]? n).map (id, ·)

/-- Everything that happened between two snapshots, departures first, each by ascending id. -/
def transitions (old new : NodeTable ClusterNode) : List (NodeId × Transition) :=
  departures old new ++ arrivals old new

end ClusterView

namespace History

/-- Stamps what happened to one node in the cluster. -/
def stamp (h : History) (now : Seconds) : NodeId × Transition → History
  | (node, .came) => h.clusterAdd node now
  | (node, .went) => h.clusterRemove node now
  | (node, .cameBack) => (h.clusterRemove node now).clusterAdd node now

/-- A departure of a node without a history is told to the log. -/
def stampNotices (h : History) : NodeId × Transition → List Notice
  | (_, .came) => []
  | (node, .went) | (node, .cameBack) => h.missing .clusterRemove node

end History

/-- A node that went, for good or to come back, undoes a quorum regained earlier; nodes that only
    came are credited with the quorum regained along with them. -/
def ClusterView.regainedWith (v : ClusterView) (changes : List Transition) (regained : Bool) :
    Bool :=
  if changes.any (· != .came) then false
  else if changes.isEmpty then v.quorateFromLastUpdate
  else regained

namespace ClusterView

/-- The view after a snapshot at time `now`. -/
def update (v : ClusterView) (s : ClusterSnapshot) (now : Seconds) : ClusterView :=
  let nodes := tableOf s
  let regained := !v.quorate && s.quorate
  { quorate := s.quorate
    ringSeq := s.ringSeq
    quorateTime := if regained then now else v.quorateTime
    quorateFromLastUpdate := v.regainedWith ((transitions v.nodes nodes).map (·.2)) regained
    nodes }

/-- The histories after a snapshot at time `now`. -/
def updateHistory (v : ClusterView) (s : ClusterSnapshot) (h : History) (now : Seconds) :
    History :=
  (transitions v.nodes (tableOf s)).foldl (·.stamp now) h

/-- What the log is told of a snapshot. A stamp gives a history to its own node alone, and a
    node's return is the last that happens to it, so the histories before the update decide. -/
def updateNotices (v : ClusterView) (s : ClusterSnapshot) (h : History) : List Notice :=
  (transitions v.nodes (tableOf s)).flatMap h.stampNotices

end ClusterView

end ClusterFence
