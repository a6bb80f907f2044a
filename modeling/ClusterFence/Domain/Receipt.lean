import ClusterFence.Domain.Progress
import ClusterFence.StartMatching

namespace ClusterFence.Domain

/-- A START is taken down for the change it describes; a sender that is matched has a history. The
    START does not count when its sender was added by a pending change and both it and we have
    completed changes: then a partition has healed, and neither side accepts the other. The change
    that is found has the sender as a member, unless another pending change has the same number. -/
def receiveStart (d : Domain) (s : ReceivedStart) (now : Seconds) : Domain × List Notice :=
  match s.find d.us d.changes d.history with
  | (none, history) => ({ d with history }, [])
  | (some seq, history) =>
    if (d.changes.part? seq s.sender).isNone then
      ({ d with history }, [.startFromNoMember s.sender])
    else
      let mark (f : Participant → Participant) : ChangeQueue :=
        d.changes.update seq (·.updateMember s.sender fun m => f { m with startFlags := s.flags })
      let theirs := s.report.summary.startedCount
      if d.changes.isAdded s.sender && theirs != 0 && d.changes.startedCount != 0 then
        ({ d with history, changes := mark ({ · with disallowed := true }) },
          [.bothSidesStarted s.sender s.report.seq theirs])
      else
        ({ d with
            changes := mark ({ · with started := true })
            history := (history.recordStart s.sender now).merge s.report.entries }, [])

/-- The first COMPLETE that counts us in tells that the victims of the time before were dealt
    with. -/
def receiveComplete (d : Domain) (report : ChangeReport) : Domain :=
  if !d.initComplete && report.entries.any (fun e => e.node == d.us && e.isMember) then
    { d with initComplete := true, victims := {} }
  else d

/-- A victim was dealt with. What another master says about it is noted; of our own report only
    the time at which it comes back is. -/
def receiveVictimDone (d : Domain) (sender : NodeId) (entry : NodeEntry) (now : Seconds) :
    Domain × List Notice :=
  let history := d.history.recordFencedLocal entry.node now
  let victims := d.victims.erase entry.node
  let notices := d.history.missing .fenceLocal entry.node
  if sender == d.us then
    ({ d with history, victims },
      notices ++
        if (d.victims.get? entry.node).any (!·.resolvedHere) then [.victimNotResolvedHere] else [])
  else
    ({ d with
        history := history.recordFenced entry.node entry.fenceMaster entry.fenceHow entry.fenceTime
        victims },
      notices ++ d.history.missing .fence entry.node)

/-- Another member fenced a node by other means. -/
def receiveExternal (d : Domain) (sender victim : NodeId) (now : Seconds) :
    Domain × List Notice :=
  ({ d with history := d.history.recordExternal victim sender now },
    d.history.missing .fenceExternal victim)

/-- Takes down a message, before anything follows from it. -/
def accept (d : Domain) (e : Envelope) (now : Seconds) : Domain × List Notice :=
  let sender := e.header.sender
  match e.message with
  | .start report => d.receiveStart { sender, flags := e.header.flags, report } now
  | .complete report => (d.receiveComplete report, [])
  | .victimDone _ entry => d.receiveVictimDone sender entry now
  | .external victim => d.receiveExternal sender victim now
  | .protocol _ => (d, [.offerInDomain sender])

/-- A message of the domain group. -/
def receive (d : Domain) (e : Envelope) (now : Seconds) : Reaction :=
  let (d, notices) := d.accept e now
  .after d notices advance

/-- The ring of the domain group changed. -/
def changeRing (d : Domain) (node : NodeId) (seq : UInt64) : Reaction :=
  { d with ringNode := node, ringSeq := seq }.advance

/-- The quorum service reported the state of the cluster. -/
def updateCluster (d : Domain) (s : ClusterSnapshot) (now : Seconds) : Reaction :=
  .after
    { d with
      cluster := d.cluster.update s now
      history := d.cluster.updateHistory s d.history now }
    (d.cluster.updateNotices s d.history) advance

/-- The victims that a change brings: its failed nodes, and, when we join, the configured nodes
    that are absent. -/
def addVictims (d : Domain) (c : Change) : Domain :=
  let failed := d.victims.addFailed c d.nameOf
  match c.weJoined, d.configured with
  | true, some configured =>
    { d with victims := failed.addInitial c configured d.cluster, configured := none }
  | _, _ => { d with victims := failed }

/-- The members of the domain group changed. A change that is refused is an error; the end of our
    own leave is no change. -/
def changeMembers (d : Domain) (m : Membership) (now : Seconds) : Reaction × Option Error :=
  if d.leaving && m.left.any (·.node == d.us) then ({ domain := d, actions := [.left] }, none)
  else
    let added := d.changes.add d.us m d.history now
    let d := { d with changes := added.queue, history := added.history }
    match added.outcome with
    | .error e => ({ domain := d, notices := added.notices }, some e)
    | .ok c =>
      let r := Reaction.after (d.addVictims c) added.notices advance
      ({ r with actions := m.evictions.map .evict ++ r.actions }, none)

end ClusterFence.Domain
