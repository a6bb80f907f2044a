import ClusterFence.Domain.Receipt
import ClusterFence.Fencing.Run
import ClusterFence.Transport.Retry
import ClusterFence.Wire.Envelope

namespace ClusterFence

/-- What a daemon takes up. -/
inductive DaemonEvent where
  | group (name : GroupName) (event : GroupEvent)
  | clusterChanged
  | fencing (report : FencingReport)
  | fencedOutside (victim : NodeId)
  | shutdown
deriving DecidableEq, Repr, Inhabited

/-- What a message is sent for. -/
inductive Purpose where
  | offer
  | domain
deriving DecidableEq, Repr, Inhabited

/-- A thing that is still to be done about the event taken up last. -/
inductive Task where
  | perform (a : Action)
  | refresh
  | evict (node : NodeId)
  | propose
  | enter
  | replay
  | pause (millis : Nat)
  | send (s : Sending) (purpose : Purpose)
  | join (j : Joining)
  | leave (group : GroupName)
  | quit (result : Answer)
deriving Inhabited

/-- What a daemon goes on with: an event, at once, after a pause in milliseconds, with the group
    service's answer to a call, with a snapshot of the cluster, with the quorum service's answer to
    an eviction, or not at all. -/
inductive DaemonWant where
  | event
  | turn
  | pause (millis : Nat)
  | answer (call : TransportCall)
  | snapshot
  | eviction (node : NodeId)
  | nothing
deriving DecidableEq, Repr, Inhabited

/-- What a daemon is given to go on with. -/
inductive DaemonInput where
  | event (e : DaemonEvent)
  | turn
  | answered (a : Answer)
  | snapshot (s : Except Error ClusterSnapshot)
deriving Inhabited

/-- What a daemon hands out. -/
inductive DaemonEffect where
  | startRun (run : FencingRun)
  | notice (n : Notice)

/-- A fence daemon. It takes up one event after the other, and carries out what follows from it
    before the next. While a fencing run is outstanding, events of the domain group are held back;
    those of the daemon group and of the cluster are not, so that a run sees who has come back. -/
structure Daemon where
  config : Config
  overridable : Bool
  domain : Domain
  daemons : DaemonGroup
  backlog : List GroupEvent := []
  joined : Bool := false
  agenda : List Task := []
  result : Option Answer := none

/-- What a daemon has come to, and what it hands out. -/
abbrev DaemonStep := Daemon × List DaemonEffect

namespace Daemon

/-- A daemon that has just been started. An administrator can override fencing when there is a
    path for it. -/
def new (config : Config) (overridable : Bool) : Daemon where
  config := config
  overridable := overridable
  domain := Domain.new config
  daemons := DaemonGroup.new config.node.id Version.highest
  agenda := [.refresh, .join { group := .daemon }]

/-- What a daemon tells the log first. -/
def greeting (d : Daemon) : Notice :=
  .started d.config.node.id d.config.node.name d.config.domainGroup

def us (d : Daemon) : NodeId := d.config.node.id

def wants (d : Daemon) : DaemonWant :=
  if d.result.isSome then .nothing
  else
    match d.agenda with
    | [] => .event
    | .refresh :: _ => .snapshot
    | .evict node :: _ => .eviction node
    | .pause millis :: _ => .pause millis
    | .send s _ :: _ => .answer s.call
    | .join j :: _ => .answer j.call
    | .leave group :: _ => .answer (.leave group)
    | _ :: _ => .turn

/-- These things are to be done before those that are left. -/
def first (d : Daemon) (tasks : List Task) : Daemon := { d with agenda := tasks ++ d.agenda }

/-- Tells the log. -/
def tell (d : Daemon) (notices : List Notice) : DaemonStep := (d, notices.map .notice)

/-- Something has happened to the domain, and what it asks for is to be done. -/
def reacted (d : Daemon) (r : Reaction) : DaemonStep :=
  ({ d with domain := r.domain }.first (r.actions.map .perform)).tell r.notices

/-- Our offer on its way to the daemon group. It does not belong to a version. -/
def offerTask (d : Daemon) (o : Offer) : Task :=
  let e : Envelope := { header := { sender := d.us }, message := .protocol o }
  .send { group := .daemon, data := e.encode, label := e.message.kind.name } .offer

/-- A message on its way to the domain group, under the agreed version. -/
def messageTask (d : Daemon) (flags : MessageFlags) (message : Message) : Task :=
  let e : Envelope :=
    { header := { version := d.daemons.running?.getD {}, sender := d.us, flags }, message }
  .send { group := d.config.domainGroup, data := e.encode, label := message.kind.name } .domain

/-- Leaves the groups, and ends. -/
def depart (d : Daemon) (result : Answer) : Daemon :=
  if d.joined then
    { d with
      domain := d.domain.setLeaving
      agenda := [.leave d.config.domainGroup, .leave .daemon, .quit result] }
  else { d with agenda := [.leave .daemon, .quit result] }

/-- Only a fatal error stops the daemon. -/
def fail (d : Daemon) (e : Error) : DaemonStep :=
  if e.isFatal then (d.depart (.error e)).tell [.stopping e] else d.tell [.failed e]

/-- The daemon group has changed. Whoever joined is told our offer. -/
def daemonMembership (d : Daemon) (m : Membership) (now : Seconds) : Daemon :=
  let d := { d with daemons := d.daemons.changeMembers (m.members.map (·.node)) now }
  if DaemonGroup.announces (m.joined.map (·.node)) then d.first [d.offerTask d.daemons.ours] else d

/-- A daemon has announced its versions. -/
def receiveOffer (d : Daemon) (sender : NodeId) (o : Offer) : DaemonStep :=
  let cluster := d.domain.cluster
  match d.daemons.receiveOffer sender o cluster.quorate cluster.quorateTime with
  | .error e => d.tell [.offerRefused e]
  | .ok (daemons, .noted) => ({ d with daemons }.first [.propose, .enter], [])
  | .ok (daemons, .evict node) => ({ d with daemons }.first [.evict node, .propose, .enter], [])

/-- A message has come to the daemon group, where only offers are in place. -/
def receiveDaemonMessage (d : Daemon) (sender : NodeId) (data : List UInt8) : DaemonStep :=
  match Envelope.decode data sender none with
  | .error e => d.tell [.daemonMessageRefused e]
  | .ok e =>
    match e.message with
    | .protocol o => d.receiveOffer sender o
    | m => d.tell [.daemonMessageUnknown m.kind]

/-- Something has happened to the daemon group. -/
def daemonEvent (d : Daemon) (now : Seconds) : GroupEvent → DaemonStep
  | .membership m => (d.daemonMembership m now, [])
  | .deliver sender data => d.receiveDaemonMessage sender data
  | .ring _ _ => (d, [])

/-- Something has happened to the domain group, and is not held back. -/
def domainEvent (d : Daemon) (now : Seconds) : GroupEvent → DaemonStep
  | .membership m =>
    match d.domain.changeMembers m now with
    | (r, none) => d.reacted r
    | (r, some e) =>
      { d with domain := r.domain }.tell (r.notices ++ [Notice.membershipRefused e])
  | .deliver sender data =>
    match Envelope.decode data sender d.daemons.running? with
    | .ok e => d.reacted (d.domain.receive e now)
    | .error e => d.tell [.domainMessageRefused e]
  | .ring node seq => d.reacted (d.domain.changeRing node seq)

/-- A fencing run has reported. Then what was held back is looked at. -/
def fencingReport (d : Daemon) (now : Seconds) (r : FencingReport) : DaemonStep :=
  let d := d.first [.replay]
  match r with
  | .attempt victim => ({ d with domain := d.domain.attempt victim }, [])
  | .resolved victim how reduced => d.reacted (d.domain.resolve victim how reduced now)
  | .finished => d.reacted d.domain.finishFencing

/-- Takes up an event. -/
def receive (d : Daemon) (now : Seconds) : DaemonEvent → DaemonStep
  | .group name event =>
    if name == GroupName.daemon then d.daemonEvent now event
    else if name == d.config.domainGroup then
      if d.domain.fencing then ({ d with backlog := d.backlog ++ [event] }, [])
      else d.domainEvent now event
    else (d, [])
  | .clusterChanged => (d.first [.refresh], [])
  | .fencing report => d.fencingReport now report
  | .fencedOutside victim =>
    if d.joined then (d.first [.perform (Domain.externalAction victim)], [])
    else d.tell [.externalOutsideDomain victim]
  | .shutdown => (d.depart (.ok ())).tell [.shuttingDown]

/-- Carries out what the domain asked for. -/
def perform (d : Daemon) : Action → DaemonStep
  | .send flags message => (d.first [d.messageTask flags message], [])
  | .evict node => (d.first [.evict node], [])
  | .setStateful => ({ d with daemons := d.daemons.setStateful }, [])
  | .startFencing nodesJoined =>
    (d, [.startRun
      { settings := .ofConfig d.config, nodesJoined, overridable := d.overridable }])
  | .left => { d with joined := false }.tell [.leftDomain d.config.domainGroup]

/-- Sends the proposal that is due, if one is. -/
def propose (d : Daemon) : DaemonStep :=
  match d.daemons.propose with
  | (daemons, .ok none) => ({ d with daemons }, [])
  | (daemons, .ok (some o)) => ({ d with daemons }.first [d.offerTask o], [])
  | (daemons, .error e) => { d with daemons }.tell [.failed e]

/-- Joins the domain as soon as a version is agreed on, which has to be one that we can run. -/
def enter (d : Daemon) : DaemonStep :=
  match d.joined, d.daemons.running? with
  | false, some run =>
    match d.daemons.checkRunnable with
    | .error e => d.fail e
    | .ok () =>
      (d.first [.join { group := d.config.domainGroup }]).tell
        [.versionAgreed run d.config.domainGroup]
  | _, _ => (d, [])

/-- Takes up the next event that was held back, unless fencing is outstanding again. -/
def replay (d : Daemon) (now : Seconds) : DaemonStep :=
  match d.backlog with
  | event :: backlog =>
    if d.domain.fencing then (d, [])
    else ({ d with backlog }.first [.replay]).domainEvent now event
  | [] => (d, [])

/-- The group service has answered about a message. One that cannot be sent is given up. -/
def sendAnswered (d : Daemon) (s : Sending) (purpose : Purpose) (a : Answer) : DaemonStep :=
  match s.answered a with
  | .again pause notices next => (d.first [.pause pause, .send next purpose]).tell notices
  | .over (.ok ()) notices => d.tell notices
  | .over (.error e) notices =>
    d.tell (notices ++
      [match purpose with
        | .offer => .offerNotSent e
        | .domain => .domainMessageNotSent s.group e])

/-- The group service has answered about a group that is being joined. Not to be let into the
    daemon group ends everything at once. -/
def joinAnswered (d : Daemon) (j : Joining) (a : Answer) : DaemonStep :=
  match j.answered a with
  | .again pause notices next => (d.first [.pause pause, .join next]).tell notices
  | .over (.ok ()) notices =>
    { d with joined := d.joined || j.group != GroupName.daemon }.tell notices
  | .over (.error e) notices =>
    if j.group == GroupName.daemon then { d with result := some (.error e) }.tell notices
    else
      let (d, effects) := d.fail e
      (d, notices.map .notice ++ effects)

/-- What the log is told of an answer that may be an error. -/
def complaint (a : Answer) (n : Error → Notice) : List Notice :=
  match a with
  | .ok () => []
  | .error e => [n e]

/-- Does the first thing on the agenda. -/
def proceed (d : Daemon) (now : Seconds) : Task → DaemonInput → DaemonStep
  | .perform a, _ => d.perform a
  | .propose, _ => d.propose
  | .enter, _ => d.enter
  | .replay, _ => d.replay now
  | .quit result, _ => ({ d with result := some result }, [])
  | .refresh, .snapshot (.ok s) => d.reacted (d.domain.updateCluster s now)
  | .refresh, .snapshot (.error e) => d.tell [.clusterUpdateFailed e]
  | .evict node, .answered a => d.tell (.evicting node :: complaint a (.evictionFailed node))
  | .send s purpose, .answered a => d.sendAnswered s purpose a
  | .join j, .answered a => d.joinAnswered j a
  | .leave group, .answered a => d.tell (complaint a (.leaveFailed group))
  | _, _ => (d, [])

/-- Goes on with what is given, which has to be what the daemon wants. -/
def step (d : Daemon) (now : Seconds) (input : DaemonInput) : DaemonStep :=
  match d.agenda, input with
  | task :: rest, input => { d with agenda := rest }.proceed now task input
  | [], .event e => d.receive now e
  | [], _ => (d, [])

end Daemon

end ClusterFence
