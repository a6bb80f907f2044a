import ClusterFence.Domain.Basic

namespace ClusterFence

/-- A summary of the domain. The members are those of the change worked on, else of the one last
    completed. -/
structure DomainSummary where
  name : String
  us : NodeId
  memberCount : UInt32
  phase : Option ChangePhase
  master : NodeId
  victimCount : UInt32
  currentVictim : NodeId
  complete : Bool
  joining : Bool
  startedCount : UInt32
  changeSeq : UInt32
deriving DecidableEq, Repr, Inhabited

/-- How a node stands in the domain. -/
inductive Standing where
  | absent
  | member
  | disallowed
deriving DecidableEq, Repr, Inhabited

def Standing.text : Standing → String
  | .absent => "no"
  | .member => "yes"
  | .disallowed => "disallowed"

/-- A node's standing, and how it was last fenced. -/
structure NodeSummary where
  node : NodeId
  standing : Standing
  isVictim : Bool
  fenceMaster : NodeId
  fenceHow : UInt32
  fenceTime : Seconds
deriving DecidableEq, Repr, Inhabited

/-- Which nodes are asked for: the members of the change last completed, or all that are known. -/
inductive NodeFilter where
  | members
  | all
deriving DecidableEq, Repr, Inhabited

namespace Domain

def summary (d : Domain) : DomainSummary where
  name := d.config.domain.name
  us := d.us
  memberCount := (d.changes.latest?.map (·.counts.members)).getD 0
  phase := d.changes.current?.map (·.phase)
  master := d.master
  victimCount := UInt32.ofNat d.victims.size
  currentVictim := d.currentVictim
  complete := d.isComplete
  joining := d.joining
  startedCount := d.changes.startedCount
  changeSeq := d.changes.changeSeq

def standing (d : Domain) (node : NodeId) : Standing :=
  match d.changes.latest?.bind (·.member? node) with
  | none => .absent
  | some m => if m.disallowed then .disallowed else .member

/-- Only nodes with a history have a standing to tell of. -/
def nodeSummary? (d : Domain) (node : NodeId) : Option NodeSummary :=
  (d.history.get? node).map fun n =>
    { node
      standing := d.standing node
      isVictim := d.victims.contains node
      fenceMaster := n.fenceMaster
      fenceHow := n.fenceHow
      fenceTime := n.fenceTimeLocal }

def nodeSummaries (d : Domain) : NodeFilter → List NodeSummary
  | .members =>
    ((d.changes.started.map (·.members)).getD []).filterMap (d.nodeSummary? ·.node)
  | .all => d.history.toList.filterMap (d.nodeSummary? ·.node)

end Domain

end ClusterFence
