import ClusterFence.ChangeQueue
import ClusterFence.Victim

namespace ClusterFence

/-- What the daemon has to do for the domain. -/
inductive Action where
  | send (flags : MessageFlags) (message : Message)
  | evict (node : NodeId)
  | setStateful
  | startFencing (nodesJoined : Bool)
  | left
deriving DecidableEq, Repr, Inhabited

/-- A fence domain as one node sees it. The configured nodes are kept until the node joins,
    when those that are absent become victims. A domain with fencing outstanding is the master of
    its current change. -/
structure Domain where
  config : Config
  history : History := {}
  changes : ChangeQueue := {}
  victims : Victims := {}
  cluster : ClusterView := {}
  ringNode : NodeId := 0
  ringSeq : UInt64 := 0
  master : NodeId := 0
  initComplete : Bool := false
  localInitComplete : Bool := false
  joining : Bool := true
  leaving : Bool := false
  currentVictim : NodeId := 0
  configured : Option (List ConfiguredNode) := none
  fencing : Bool := false

/-- What an input does to a domain: its state afterwards, what the daemon has to do, in order, and
    what the log is told. -/
structure Reaction where
  domain : Domain
  actions : List Action := []
  notices : List Notice := []

/-- The domain has come to `domain` and told the log `notices`; then `f` happens to it. -/
def Reaction.after (domain : Domain) (notices : List Notice) (f : Domain → Reaction) :
    Reaction :=
  let r := f domain
  { r with notices := notices ++ r.notices }

namespace Domain

/-- A domain before its first input. Unless the start is clean, every configured node has a
    history. -/
def new (config : Config) : Domain :=
  if config.domain.cleanStart then { config }
  else
    { config
      history := config.domain.nodes.foldl (·.ensure ·.id) {}
      configured := some config.domain.nodes }

def us (d : Domain) : NodeId := d.config.node.id

/-- The best name known for a node: that of the cluster, the configured one, or its number. -/
def nameOf (d : Domain) (node : NodeId) : String :=
  ((d.cluster.name? node).or (d.config.nodeName? node)).getD (toString node)

/-- We asked to leave the domain group. -/
def setLeaving (d : Domain) : Domain := { d with leaving := true }

/-- We know the whole fencing history: by a COMPLETE that counted us in, or as a master. -/
def isComplete (d : Domain) : Bool := d.initComplete || d.localInitComplete

/-- The flag that goes with every message of a domain that is complete. -/
def completeFlag (d : Domain) : MessageFlags := if d.isComplete then .complete else {}

end Domain

end ClusterFence
