import ClusterFence.Error

namespace ClusterFence

/-- What is known of a daemon: whether it is in the group, since when and until when, whether its
    eviction was asked for, and the offer accepted from it since it came. -/
structure DaemonNode where
  isMember : Bool := false
  killed : Bool := false
  joinTime : Seconds := 0
  leftTime : Seconds := 0
  offer : Option Offer := none
deriving DecidableEq, Repr, Inhabited

/-- The daemon group as one of its members sees it. Each daemon announces the highest version that
    it speaks; once all members have been heard, each proposes the lowest of these, and the first
    version heard to run is adopted. -/
structure DaemonGroup where
  us : NodeId
  ours : Offer
  nodes : NodeTable DaemonNode := ∅
  members : List NodeId := []
  proposed : Bool := false

/-- What has to be done about an announcement: nothing, or evict a node that came back from a
    partition with its state. -/
inductive OfferVerdict where
  | noted
  | evict (node : NodeId)
deriving DecidableEq, Repr, Inhabited

/-- A higher bound has no zero in it, and a running version is unset or has no zero in it. -/
def Offer.fault? (o : Offer) : Option OfferFault :=
  if o.max.major == 0 || o.max.minor == 0 || o.max.patch == 0 then some (.max o.max)
  else if o.run.major != 0 && (o.run.minor == 0 || o.run.patch == 0) then some (.run o.run)
  else none

namespace DaemonNode

/-- What a membership change does to a node: it comes, or it goes and what was accepted from it is
    forgotten. -/
def listed (n : DaemonNode) (member : Bool) (now : Seconds) : DaemonNode :=
  if member then if n.isMember then n else { n with isMember := true, joinTime := now }
  else if n.isMember then
    { n with isMember := false, killed := false, offer := none, leftTime := now }
  else n

end DaemonNode

namespace DaemonGroup

/-- The group before anything is heard, for a node that speaks up to version `max`. -/
def new (us : NodeId) (max : Version) : DaemonGroup := { us, ours := { max } }

/-- The version agreed on, once there is one. -/
def running? (g : DaemonGroup) : Option Version :=
  if g.ours.run.isSet then some g.ours.run else none

/-- From now on we announce that we have state. -/
def setStateful (g : DaemonGroup) : DaemonGroup :=
  { g with ours.run.flags := g.ours.run.flags ||| Version.statefulFlag }

/-- The members of the group changed. -/
def changeMembers (g : DaemonGroup) (members : List NodeId) (now : Seconds) : DaemonGroup :=
  let nodes := members.foldl (·.insertIfNew · {}) g.nodes
  { g with members, nodes := nodes.map fun id n => n.listed (members.contains id) now }

/-- Our offer is announced again to whoever joins. -/
def announces (joined : List NodeId) : Bool := !joined.isEmpty

/-- A node that announces state, while we have state and it has announced nothing since it came,
    has been through a partition. -/
def isStatefulMerge (g : DaemonGroup) (sender : NodeId) (n : DaemonNode) (o : Offer) : Bool :=
  sender != g.us && n.offer.isNone && o.run.isStateful && g.ours.run.isStateful

/-- A quorum that has stood since before the node went is the better claim. -/
def outranks (n : DaemonNode) (quorate : Bool) (quorateTime : Seconds) : Bool :=
  quorate && n.leftTime != 0 && quorateTime < n.leftTime

/-- The version that we run after hearing of one: the first that is heard stays, and the flags
    remain our own. -/
def adopt (g : DaemonGroup) (run : Version) : Version :=
  if g.ours.run.isSet || !run.isSet then g.ours.run else { run with flags := g.ours.run.flags }

/-- An announcement by a node, while we have quorum or not, since the time given. An offer that is
    refused changes nothing. -/
def receiveOffer (g : DaemonGroup) (sender : NodeId) (o : Offer) (quorate : Bool)
    (quorateTime : Seconds) : Except Error (DaemonGroup × OfferVerdict) := do
  if let some fault := o.fault? then throw (.invalidVersion sender fault)
  let some n := g.nodes[sender]? | throw (.negotiation (.unknownSender sender))
  if !n.isMember then throw (.negotiation (.senderNotMember sender))
  if g.isStatefulMerge sender n o then
    if outranks n quorate quorateTime then
      let g := { g with nodes := g.nodes.insert sender { n with killed := true } }
      return (g, if n.killed then .noted else .evict sender)
    else return (g, .noted)
  else
    let nodes := g.nodes.insert sender { n with offer := some o }
    return ({ g with nodes, ours.run := g.adopt o.run }, .noted)

/-- The offer accepted from a node since it came. -/
def offer? (g : DaemonGroup) (node : NodeId) : Option Offer := g.nodes[node]?.bind (·.offer)

/-- Every member has been heard; of an empty group nobody has. -/
def allHeard (g : DaemonGroup) : Bool :=
  !g.members.isEmpty && g.members.all fun id => (g.offer? id).isSome

/-- The highest versions of the members, or the first member that was not heard. -/
def highestVersions (g : DaemonGroup) : Except Error (List Version) :=
  g.members.mapM fun id =>
    match g.offer? id with
    | some o => .ok o.max
    | none => .error (.negotiation (.noOffer id))

/-- The least value of one part of versions, which must not be zero. -/
def leastPart (part : VersionPart) (values : List UInt16) : Except Error UInt16 :=
  match values.min? with
  | some n => if n == 0 then .error (.negotiation (.noCommon part)) else .ok n
  | none => .error (.negotiation (.noCommon part))

/-- The version that all members speak: the least major number, under it the least minor number,
    and under both the least patch. -/
def lowestVersion (g : DaemonGroup) : Except Error Version := do
  let all ← g.highestVersions
  let major ← leastPart .major (all.map (·.major))
  let all := all.filter (·.major == major)
  let minor ← leastPart .minor (all.map (·.minor))
  let all := all.filter (·.minor == minor)
  let patch ← leastPart .patch (all.map (·.patch))
  return { major, minor, patch }

/-- We propose once, when all members have been heard and no version is running. -/
def mayPropose (g : DaemonGroup) : Bool := !g.ours.run.isSet && !g.proposed && g.allHeard

/-- The proposal that is due, if one is. -/
def propose (g : DaemonGroup) : DaemonGroup × Except Error (Option Offer) :=
  if g.mayPropose then
    ({ g with proposed := true },
      g.lowestVersion.map fun run => some { max := g.ours.max, run })
  else (g, .ok none)

/-- The agreed version has to be one that we can run. -/
def checkRunnable (g : DaemonGroup) : Except Error Unit :=
  if g.ours.run.runnableUnder g.ours.max then .ok ()
  else .error (.incompatibleVersion g.ours.run g.ours.max)

/-- The node is in the group and has announced, since it came, that it holds no state, or has
    done so while we held none. -/
def isCleanMember (g : DaemonGroup) (node : NodeId) : Bool :=
  g.nodes[node]?.any fun n => n.isMember && n.offer.isSome

end DaemonGroup

end ClusterFence
