import ClusterFence.Domain.Receipt

namespace ClusterFence

/-- Something that happens to a domain. -/
inductive DomainInput where
  | membership (change : Membership)
  | ring (node : NodeId) (seq : UInt64)
  | cluster (snapshot : ClusterSnapshot)
  | message (envelope : Envelope)
  | fencedOutside (reporter victim : NodeId)
  | tellExternal (victim : NodeId)
  | attempted (victim : NodeId)
  | resolved (victim : NodeId) (how : Resolution) (reduced : Bool)
  | finished
  | nudged
  | leaving
deriving DecidableEq, Repr, Inhabited

/-- What an input does to a domain, at a time of the domain's clock. Only a membership change can
    be refused. -/
def Domain.step (d : Domain) (now : Seconds) : DomainInput → Reaction × Option Error
  | .membership change => d.changeMembers change now
  | .ring node seq => (d.changeRing node seq, none)
  | .cluster snapshot => (d.updateCluster snapshot now, none)
  | .message envelope => (d.receive envelope now, none)
  | .fencedOutside reporter victim =>
    let (domain, notices) := d.receiveExternal reporter victim now
    ({ domain, notices }, none)
  | .tellExternal victim => ({ domain := d, actions := [Domain.externalAction victim] }, none)
  | .attempted victim => ({ domain := d.attempt victim }, none)
  | .resolved victim how reduced => (d.resolve victim how reduced now, none)
  | .finished => (d.finishFencing, none)
  | .nudged => (d.advance, none)
  | .leaving => ({ domain := d.setLeaving }, none)

/-- The messages among some actions. -/
def Action.sent : List Action → List (MessageFlags × Message)
  | [] => []
  | .send flags message :: rest => (flags, message) :: sent rest
  | _ :: rest => sent rest

/-- A domain together with its own messages on their way back to it, oldest first. -/
structure Loopback where
  domain : Domain
  queued : List (MessageFlags × Message) := []

namespace Loopback

/-- The domain's messages join the queue. -/
def step (l : Loopback) (now : Seconds) (input : DomainInput) :
    Loopback × Reaction × Option Error :=
  let (r, error) := l.domain.step now input
  ({ domain := r.domain, queued := l.queued ++ Action.sent r.actions }, r, error)

/-- A message of our own as the group service brings it back. -/
def envelope (l : Loopback) (flags : MessageFlags) (message : Message) : Envelope where
  header := { version := Version.highest, sender := l.domain.us, flags }
  message := message

/-- The oldest message comes back, if there is one. -/
def deliverOldest (l : Loopback) (now : Seconds) : Option (Loopback × Reaction × Option Error) :=
  match l.queued with
  | [] => none
  | (flags, message) :: rest =>
    some ({ l with queued := rest }.step now (.message (l.envelope flags message)))

/-- The oldest message is lost. -/
def dropOldest (l : Loopback) : Loopback × Option MessageKind :=
  ({ l with queued := l.queued.drop 1 }, l.queued.head?.map (·.2.kind))

end Loopback

end ClusterFence
