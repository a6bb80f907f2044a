import ClusterFence.Node

namespace ClusterFence

/-- The groups that a daemon joins: one for all daemons, and one per fence domain. -/
inductive GroupName where
  | daemon
  | domain (name : String)
deriving DecidableEq, Repr, Inhabited

/-- The name under which the group service knows the group. -/
def GroupName.text : GroupName → String
  | .daemon => "fenced:daemon"
  | .domain name => s!"fenced:{name}"

/-- Why a node is listed in a membership change. -/
inductive ChangeReason where
  | join
  | leave
  | nodeDown
  | nodeUp
  | processDown
deriving DecidableEq, Repr, Inhabited

/-- A crashed node, or one whose daemon died under it, has to be fenced; others left cleanly. -/
def ChangeReason.isFailure : ChangeReason → Bool
  | .nodeDown | .processDown => true
  | _ => false

/-- The group service's number for the reason. -/
def ChangeReason.code : ChangeReason → UInt32
  | .join => 1
  | .leave => 2
  | .nodeDown => 3
  | .nodeUp => 4
  | .processDown => 5

/-- A node listed in a membership change. -/
structure GroupAddress where
  node : NodeId
  reason : ChangeReason := .join
deriving DecidableEq, Repr, Inhabited

/-- A membership change of a group: who is in it now, who left and who joined. -/
structure Membership where
  members : List GroupAddress
  left : List GroupAddress
  joined : List GroupAddress
deriving DecidableEq, Repr, Inhabited

/-- What the group service delivers to one group, in the same order at every member. -/
inductive GroupEvent where
  | membership (change : Membership)
  | ring (node : NodeId) (seq : UInt64)
  | deliver (sender : NodeId) (data : List UInt8)
deriving DecidableEq, Repr, Inhabited

end ClusterFence
