import ClusterFence.Domain.Basic

namespace ClusterFence

/-- The member that fences: the lowest that has started as complete, else the lowest. -/
def Change.electMaster (c : Change) : NodeId :=
  let complete := c.members.filter (·.startFlags.contains .complete)
  ((complete.map (·.node)).min?.or (c.members.map (·.node)).min?).getD 0

namespace Domain

/-- The cluster is quorate, and on the ring that the group service is on. -/
def conditionsMet (d : Domain) : Bool :=
  d.cluster.ringSeq == d.ringSeq.toUInt32 && d.cluster.quorate

/-- What a START or COMPLETE for a change says. -/
def report (d : Domain) (c : Change) : ChangeReport where
  seq := c.seq
  summary := c.summary d.changes.startedCount
  entries := d.history.entriesFor c

/-- The flags of a START or COMPLETE for a change. -/
def reportFlags (d : Domain) (c : Change) (extra : MessageFlags) : MessageFlags :=
  let flags := extra ||| d.completeFlag
  if c.weJoined then flags ||| .joining else flags

/-- The flag of a START whose change could be taken for an older one. -/
def duplicateFlag (d : Domain) : MessageFlags :=
  if d.changes.duplicateOfOlder?.isSome then .duplicate else {}

/-- Our START for a change. -/
def startAction (d : Domain) (c : Change) : Action :=
  .send (d.reportFlags c d.duplicateFlag) (.start (d.report c))

/-- Our COMPLETE for a change. -/
def completeAction (d : Domain) (c : Change) : Action :=
  .send (d.reportFlags c {}) (.complete (d.report c))

/-- The current change is done with, so we are in the domain. -/
def retireCurrent (d : Domain) : Domain :=
  { d with changes := d.changes.retire, joining := false }

/-- The conditions are met: our START goes out. -/
def sendStart (d : Domain) (c : Change) : Reaction where
  domain :=
    { d with
      changes := d.changes.updateCurrent ({ · with sentStart := true, phase := .awaitingStarts }) }
  actions := [d.startAction c]

/-- Every member has started: a master fences, any other member is through with the change. -/
def settle (d : Domain) (c : Change) : Reaction :=
  let master := c.electMaster
  let agreed :=
    { d with
      master
      changes := d.changes.updateCurrent ({ · with phase := .awaitingFencing }) }
  if master == d.us then
    { domain := { agreed with fencing := true }
      actions :=
        [.setStateful,
         .startFencing (d.changes.nodesAdded || d.cluster.quorateFromLastUpdate)] }
  else
    { domain := agreed.retireCurrent
      actions := [.setStateful]
      notices := if d.victims.isEmpty then [] else [.fencingDeferred (d.nameOf master)] }

/-- Takes the current change one step further, if what it waits for has come. Nothing moves while
    fencing is outstanding. -/
def advance (d : Domain) : Reaction :=
  if d.fencing then { domain := d }
  else
    match d.changes.current? with
    | none => { domain := d }
    | some c =>
      match c.phase with
      | .awaitingConditions => if d.conditionsMet then d.sendStart c else { domain := d }
      | .awaitingStarts => if c.allStarted then d.settle c else { domain := d }
      | .awaitingFencing => { domain := d, notices := [.stuckIn .awaitingFencing] }

/-- Tells the domain that a node was fenced by other means. -/
def externalAction (victim : NodeId) : Action := .send {} (.external victim)

/-- Our report about a victim that was dealt with here. -/
def victimDoneAction? (d : Domain) (victim : NodeId) : Option Action :=
  (d.history.get? victim).map fun n =>
    .send d.completeFlag
      (.victimDone ((d.changes.current?.map (·.seq)).getD 0)
        { n.entry false with fenceMaster := d.us })

/-- The fencing run has turned to a victim. -/
def attempt (d : Domain) (victim : NodeId) : Domain := { d with currentVictim := victim }

/-- The fencing run has dealt with a victim. One that came back by itself is a victim no more; the
    others wait for our report to come back. -/
def resolve (d : Domain) (victim : NodeId) (how : Resolution) (reduced : Bool) (now : Seconds) :
    Reaction :=
  let resolved :=
    { d with
      history := d.history.recordFenced victim d.us how.code now
      victims := if reduced then d.victims.erase victim else d.victims.markResolved victim }
  match resolved.victimDoneAction? victim with
  | some action => { domain := resolved, actions := [action] }
  | none =>
    { domain := resolved
      notices := d.history.missing .fence victim ++ [.noHistoryForVictim victim] }

/-- The fencing run is over: the domain is told, and the change is done with. -/
def finishFencing (d : Domain) : Reaction :=
  if d.fencing then
    { domain :=
        { d.retireCurrent with currentVictim := 0, localInitComplete := true, fencing := false }
      actions := (d.changes.current?.map d.completeAction).toList }
  else { domain := d, notices := [.noFencingToFinish] }

end Domain

end ClusterFence
