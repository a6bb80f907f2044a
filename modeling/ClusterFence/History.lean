import ClusterFence.Fencing.Resolution
import ClusterFence.Notice

namespace ClusterFence

/-- The life of one node. Times are zero for "never"; the numbers of changes are those of the
    latest change that the node's START was matched with, that it failed in and that it left. -/
structure NodeHistory where
  node : NodeId
  addTime : Seconds := 0
  leftTime : Seconds := 0
  failTime : Seconds := 0
  fenceTime : Seconds := 0
  fenceTimeLocal : Seconds := 0
  externalTime : Seconds := 0
  clusterAddTime : Seconds := 0
  clusterRemoveTime : Seconds := 0
  externalNode : NodeId := 0
  fenceMaster : NodeId := 0
  fenceHow : UInt32 := 0
  lastMatchSeq : UInt32 := 0
  failSeq : UInt32 := 0
  leftSeq : UInt32 := 0
deriving DecidableEq, Repr, Inhabited

namespace NodeHistory

/-- The line about this node in a message, with its membership in the change described there. -/
def entry (n : NodeHistory) (member : Bool) : NodeEntry where
  node := n.node
  flags := if member then NodeEntry.memberFlag else 0
  externalNode := n.externalNode
  fenceMaster := n.fenceMaster
  fenceHow := n.fenceHow
  fenceTime := n.fenceTime
  externalTime := n.externalTime

/-- The node was fenced outside the domain after it was last added. -/
def fencedOutside (n : NodeHistory) : Bool := n.externalTime > n.addTime

/-- Takes a peer's record of a fencing when there is none here. -/
def adoptFencing (n : NodeHistory) (e : NodeEntry) : NodeHistory :=
  if n.fenceTime == 0 && e.fenceTime != 0 then
    { n with fenceMaster := e.fenceMaster, fenceTime := e.fenceTime, fenceHow := e.fenceHow }
  else n

/-- Takes a peer's record of an outside fencing when there is none here. -/
def adoptExternal (n : NodeHistory) (e : NodeEntry) : NodeHistory :=
  if n.externalTime == 0 && e.externalTime != 0 then
    { n with externalTime := e.externalTime, externalNode := e.externalNode }
  else n

end NodeHistory

/-- The histories of all nodes that the domain has heard of. -/
@[ext]
structure History where
  nodes : NodeTable NodeHistory := ∅

namespace History

def empty : History := {}

instance : Inhabited History := ⟨empty⟩

def get? (h : History) (node : NodeId) : Option NodeHistory := h.nodes[node]?

def contains (h : History) (node : NodeId) : Bool := h.nodes.contains node

/-- All histories, by ascending id. -/
def toList (h : History) : List NodeHistory := h.nodes.toList.map (·.2)

def size (h : History) : Nat := h.nodes.size

/-- Starts a history for a node that has none. -/
def ensure (h : History) (node : NodeId) : History :=
  ⟨h.nodes.insertIfNew node { node }⟩

/-- Changes a node's history; a node without one is passed over. -/
def update (h : History) (node : NodeId) (f : NodeHistory → NodeHistory) : History :=
  ⟨h.nodes.modify node f⟩

/-- To record something about a node without a history is a mistake that the log is told of. -/
def missing (h : History) (mark : HistoryMark) (node : NodeId) : List Notice :=
  if h.contains node then [] else [.noHistory mark node]

/-- The node's START was accepted. -/
def recordStart (h : History) (node : NodeId) (now : Seconds) : History :=
  h.update node ({ · with addTime := now })

/-- The node left cleanly in the change numbered `seq`. -/
def recordLeft (h : History) (node : NodeId) (seq : UInt32) (now : Seconds) : History :=
  h.update node fun n => { n with leftTime := now, leftSeq := max n.leftSeq seq }

/-- The node failed in the change numbered `seq`. -/
def recordFail (h : History) (node : NodeId) (seq : UInt32) (now : Seconds) : History :=
  h.update node fun n => { n with failTime := now, failSeq := max n.failSeq seq }

/-- The node was dealt with by `master`, at a time of that node's clock. The way is kept as the
    number it came with. -/
def recordFenced (h : History) (node master : NodeId) (how : UInt32) (time : Seconds) : History :=
  h.update node ({ · with fenceMaster := master, fenceTime := time, fenceHow := how })

/-- The local time at which we learnt that the node was dealt with. -/
def recordFencedLocal (h : History) (node : NodeId) (now : Seconds) : History :=
  h.update node ({ · with fenceTimeLocal := now })

/-- The node `reporter` says that the node was fenced outside the domain. -/
def recordExternal (h : History) (node reporter : NodeId) (now : Seconds) : History :=
  h.update node ({ · with externalTime := now, externalNode := reporter })

/-- The node became a cluster member. -/
def clusterAdd (h : History) (node : NodeId) (now : Seconds) : History :=
  (h.ensure node).update node ({ · with clusterAddTime := now })

/-- The node ceased to be a cluster member. -/
def clusterRemove (h : History) (node : NodeId) (now : Seconds) : History :=
  h.update node ({ · with clusterRemoveTime := now })

/-- The node's latest START belongs to the change numbered `seq`. -/
def recordMatch (h : History) (node : NodeId) (seq : UInt32) : History :=
  h.update node ({ · with lastMatchSeq := seq })

/-- The node was fenced outside the domain after it was last added. -/
def fencedOutside (h : History) (node : NodeId) : Bool := (h.get? node).any (·.fencedOutside)

/-- To ask about a node without a history is a mistake that the log is told of. -/
def lookupNotices (h : History) (node : NodeId) : List Notice :=
  if h.contains node then [] else [.noHistoryForExternal node]

/-- Notes what one line of a peer's report tells and we did not know. -/
def mergeEntry (h : History) (e : NodeEntry) : History :=
  (h.ensure e.node).update e.node fun n => (n.adoptFencing e).adoptExternal e

/-- Notes, line by line, what a peer's report tells and we did not know. -/
def merge (h : History) (entries : List NodeEntry) : History := entries.foldl mergeEntry h

/-- The lines of a START or COMPLETE for a change: every known node, flagged if it is a
    member. -/
def entriesFor (h : History) (c : Change) : List NodeEntry :=
  h.toList.map fun n => n.entry (c.isMember n.node)

end History

end ClusterFence
