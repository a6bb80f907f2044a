import ClusterFence.Domain.Input

namespace ClusterFence

/-- A message under way in the group. -/
structure Posted where
  sender : NodeId
  flags : MessageFlags
  message : Message
deriving DecidableEq, Repr, Inhabited

/-- The message as it comes to a member. -/
def Posted.envelope (p : Posted) : Envelope where
  header := { version := Version.highest, sender := p.sender, flags := p.flags }
  message := p.message

/-- What is seen of a domain from outside, its messages apart. -/
inductive Occurrence where
  | did (action : Action)
  | refused (cause : Error)
deriving DecidableEq, Repr, Inhabited

/-- Domains, what is under way between them, and the masters with fencing outstanding, in the
    order in which they began. Each tick of the clock is a second. What occurred and what the logs
    were told is kept since it was last asked for. -/
structure Network where
  nodes : List ConfiguredNode
  cleanStart : Bool
  domains : NodeTable Domain := ∅
  incarnations : NodeTable UInt32 := ∅
  posted : List Posted := []
  masters : List NodeId := []
  clock : Seconds := 100
  occurred : List (NodeId × Occurrence) := []
  notices : List Notice := []

namespace Network

def tick (n : Network) : Network := { n with clock := n.clock + 1 }

/-- Nothing has occurred that was not asked for. -/
def forget (n : Network) : Network := { n with occurred := [], notices := [] }

/-- A domain for a node that starts afresh. -/
def start (n : Network) (node : ConfiguredNode) : Network :=
  let config : Config :=
    { Config.forNode node.id node.name with
      domain := { nodes := n.nodes, cleanStart := n.cleanStart } }
  { n with domains := n.domains.insert node.id (Domain.new config) }

def stop (n : Network) (node : NodeId) : Network := { n with domains := n.domains.erase node }

/-- Carries an action of a domain out. -/
def perform (n : Network) (node : NodeId) (a : Action) : Network :=
  match a with
  | .send flags message => { n with posted := n.posted ++ [{ sender := node, flags, message }] }
  | .startFencing _ =>
    { n with masters := n.masters ++ [node], occurred := n.occurred ++ [(node, .did a)] }
  | _ => { n with occurred := n.occurred ++ [(node, .did a)] }

/-- Something happens to the domain of a node, if it has one. -/
def input (n : Network) (i : DomainInput) (node : NodeId) : Network :=
  match n.domains[node]? with
  | none => n
  | some d =>
    let (r, error) := d.step n.clock i
    let n :=
      { n with
        domains := n.domains.insert node r.domain
        notices := n.notices ++ r.notices
        occurred := n.occurred ++ (error.map fun e => (node, Occurrence.refused e)).toList }
    r.actions.foldl (·.perform node ·) n

/-- Something happens to the domains of nodes, one after the other. -/
def inputEach (n : Network) (nodes : List NodeId) (i : DomainInput) : Network :=
  nodes.foldl (·.input i ·) n

/-- Those that are told to take part: the nodes given, by ascending id, or all. -/
def chosen (n : Network) (hearers : Option (List NodeId)) : List NodeId :=
  match hearers with
  | none => n.domains.keys
  | some nodes => n.domains.keys.filter nodes.contains

/-- The members of the group changed. -/
def changeMembers (n : Network) (m : Membership) (hearers : List NodeId) : Network :=
  n.tick.inputEach hearers (.membership m)

/-- The incarnation of a node, which begins with one. -/
def incarnation (n : Network) (node : NodeId) : UInt32 := n.incarnations[node]?.getD 1

/-- A node joined the cluster once more. -/
def rejoin (n : Network) (node : NodeId) : Network :=
  { n with incarnations := n.incarnations.insert node (n.incarnation node + 1) }

/-- The cluster with the members given. -/
def snapshot (n : Network) (quorate : Bool) (ringSeq : UInt32) (members : List NodeId) :
    ClusterSnapshot where
  quorate := quorate
  ringSeq := ringSeq
  nodes := n.nodes.map fun c =>
    { node := c.id
      name := c.name
      member := members.contains c.id
      incarnation := n.incarnation c.id }

/-- The ring that the group service reports. -/
def ringInput (ringSeq : UInt64) : DomainInput := .ring 1 ringSeq

/-- The ring of the group changed. -/
def changeRing (n : Network) (ringSeq : UInt64) (hearers : Option (List NodeId)) : Network :=
  let n := n.tick
  n.inputEach (n.chosen hearers) (ringInput ringSeq)

/-- The ring of the group and that of the cluster changed together. -/
def changeCluster (n : Network) (quorate : Bool) (ringSeq : UInt64) (members rejoined : List NodeId)
    (hearers : Option (List NodeId)) : Network :=
  let n := rejoined.foldl rejoin n.tick
  let cluster := DomainInput.cluster (n.snapshot quorate ringSeq.toUInt32 members)
  (n.chosen hearers).foldl (fun n node => (n.input (ringInput ringSeq) node).input cluster node) n

/-- A message comes to nodes. -/
def deliver (n : Network) (group : List NodeId) (p : Posted) : Network :=
  n.tick.inputEach group (.message p.envelope)

/-- Delivers up to `limit` messages of the senders given, new ones included. The messages of
    others stay where they are. -/
def pump (group : List NodeId) (senders : Option (List NodeId)) : Nat → Network → Network
  | 0, n => n
  | limit + 1, n =>
    let wanted (p : Posted) : Bool := senders.all (·.contains p.sender)
    match n.posted.span (!wanted ·) with
    | (_, []) => n
    | (kept, p :: rest) =>
      pump group senders limit ({ n with posted := kept ++ rest }.deliver group p)

/-- More messages than any run has to deliver. -/
def manyMessages : Nat := 2000

/-- A master deals with all its victims in one way, and finishes. -/
def fenceAt (how : Resolution) (reduced : Bool) (n : Network) (master : NodeId) : Network :=
  let n := n.tick
  let victims := (n.domains[master]?.map (·.victims.ids)).getD []
  let n := victims.foldl (fun n victim =>
    (n.input (.attempted victim) master).input (.resolved victim how reduced) master) n
  n.input .finished master

/-- The masters with fencing outstanding get it done. -/
def fence (n : Network) (how : Resolution) (reduced : Bool) : Network :=
  n.masters.foldl (fenceAt how reduced) { n with masters := [] }

/-- Messages are delivered and victims fenced until nothing is left to do. -/
def settle (group : List NodeId) (how : Resolution) : Nat → Network → Network
  | 0, n => n
  | rounds + 1, n =>
    let n := pump group none manyMessages n
    if n.masters.isEmpty then n else settle group how rounds (n.fence how false)

/-- All messages under way are lost. -/
def dropPosted (n : Network) : Network := { n with posted := [] }

end Network

end ClusterFence
