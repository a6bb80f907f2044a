import ClusterFence.Error
import ClusterFence.Group

namespace ClusterFence

/-- A node as a configuration names it. -/
structure ConfiguredNode where
  id : NodeId
  name : String
deriving DecidableEq, Repr, Inhabited

/-- The fence domain: its name, every node of the cluster, and whether absent nodes are taken to
    be clean when the domain starts. -/
structure DomainConfig where
  name : String := "default"
  nodes : List ConfiguredNode := []
  cleanStart : Bool := false
deriving DecidableEq, Repr, Inhabited

/-- How victims are fenced. The two delays are in seconds and give victims time to come back, a
    negative one for ever; the override time is in seconds, too. -/
structure FencingConfig where
  postJoinDelay : Int32 := 6
  postFailDelay : Int32 := 0
  overridePath : Option String := some "/var/run/cluster/fenced_override"
  overrideTime : UInt64 := 3
  retryInterval : UInt64 := 5000
  delayPoll : UInt64 := 1000
deriving DecidableEq, Repr, Inhabited

/-- How much is logged. -/
structure LoggingConfig where
  level : String := "info"
deriving DecidableEq, Repr, Inhabited

/-- The configuration of the daemon on one node. -/
structure Config where
  node : ConfiguredNode
  domain : DomainConfig := {}
  fencing : FencingConfig := {}
  logging : LoggingConfig := {}
deriving DecidableEq, Repr, Inhabited

namespace Config

/-- The configuration of a node of which nothing but its id and name is told. -/
def forNode (id : NodeId) (name : String) : Config := { node := { id, name } }

/-- The group of the configured fence domain. -/
def domainGroup (c : Config) : GroupName := .domain c.domain.name

/-- The configured name of a node. -/
def nodeName? (c : Config) (id : NodeId) : Option String :=
  (c.domain.nodes.find? (·.id == id)).map (·.name)

/-- Where an administrator may override fencing; an empty path switches that off. -/
def overridePath? (c : Config) : Option String := c.fencing.overridePath.filter (!·.isEmpty)

/-- The override time in milliseconds. -/
def overrideMillis (c : Config) : Nat := c.fencing.overrideTime.toNat * 1000

/-- What is wrong with the list of cluster nodes, given the ids listed before it. -/
def nodeListFault? : List NodeId → List ConfiguredNode → Option ConfigFault
  | _, [] => none
  | seen, n :: rest =>
    if n.id == 0 then some (.listedIdZero n.name)
    else if seen.contains n.id then some (.listedTwice n.id)
    else nodeListFault? (n.id :: seen) rest

/-- The first reason to refuse the configuration. -/
def fault? (c : Config) : Option ConfigFault :=
  if c.node.id == 0 then some .nodeIdZero
  else if c.node.name.isEmpty then some .nodeNameEmpty
  else if c.domain.name.isEmpty then some .domainNameEmpty
  else (nodeListFault? [] c.domain.nodes).or
    (if c.overridePath?.isSome && c.fencing.overrideTime == 0 then some .overrideTimeZero else none)

/-- Hands a configuration on, or says why it cannot work. -/
def check (c : Config) : Except Error Config :=
  match c.fault? with
  | some fault => .error (.config fault)
  | none => .ok c

end Config

end ClusterFence
