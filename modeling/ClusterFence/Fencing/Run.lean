import ClusterFence.Fencing.Agent
import ClusterFence.Negotiation
import ClusterFence.Victim

namespace ClusterFence

/-- What a run reports while it goes on. A victim that is resolved as reduced came back by itself
    before it was its turn. -/
inductive FencingReport where
  | attempt (victim : NodeId)
  | resolved (victim : NodeId) (how : Resolution) (reduced : Bool)
  | finished
deriving DecidableEq, Repr, Inhabited

/-- The pace of a run. Delays are in seconds and the rest in milliseconds; a negative delay has no
    end. -/
structure FencingSettings where
  postJoinDelay : Int
  postFailDelay : Int
  overrideTime : Nat
  retryInterval : Nat
  delayPoll : Nat
deriving DecidableEq, Repr, Inhabited

def FencingSettings.ofConfig (c : Config) : FencingSettings where
  postJoinDelay := c.fencing.postJoinDelay.toInt
  postFailDelay := c.fencing.postFailDelay.toInt
  overrideTime := c.overrideMillis
  retryInterval := c.fencing.retryInterval.toNat
  delayPoll := c.fencing.delayPoll.toNat

/-- What a run sees when it looks. -/
structure Surroundings where
  victims : Victims
  history : History
  daemons : DaemonGroup
  cluster : Except Error ClusterSnapshot

namespace Surroundings

/-- A node is taken for a cluster member only on the word of the quorum service. -/
def isClusterMember (s : Surroundings) (node : NodeId) : Bool :=
  match s.cluster with
  | .ok snapshot => snapshot.isMember node
  | .error _ => false

def clusterNotices (s : Surroundings) : List Notice :=
  match s.cluster with
  | .ok _ => []
  | .error e => [.snapshotFailed e]

/-- The node is back: it is in the cluster, and its daemon has restarted without state. -/
def isBack (s : Surroundings) (node : NodeId) : Bool :=
  s.isClusterMember node && s.daemons.isCleanMember node

/-- Why a victim need not be fenced any more, if there is a reason. -/
def averted? (s : Surroundings) (node : NodeId) : Option Resolution :=
  if s.history.fencedOutside node then some .external
  else if s.isBack node then some .member
  else none

end Surroundings

/-- The delay that is under way: how long it is in seconds, when it was last begun, and how many
    victims there were at the last look. -/
structure Delay where
  seconds : Int
  start : Nat
  lastCount : Nat := 0
deriving DecidableEq, Repr, Inhabited

namespace Delay

/-- Fewer victims than at the last look begin the delay anew, with the longer of the two delays
    if it has an end. -/
def counted (d : Delay) (postJoinDelay : Int) (now count : Nat) : Delay :=
  if count < d.lastCount then
    { seconds := if 0 < d.seconds && d.seconds < postJoinDelay then postJoinDelay else d.seconds
      start := now
      lastCount := count }
  else { d with lastCount := count }

/-- A delay without end is never over. -/
def isOver (d : Delay) (now : Nat) : Bool :=
  0 ≤ d.seconds && d.seconds.toNat * 1000 ≤ now - d.start

end Delay

/-- A victim that is being fenced: how often that was tried in vain, and the last log of an agent
    that was passed on. -/
structure Trial where
  victim : NodeId
  name : String
  retries : Nat := 0
  lastLog : Option (List DeviceAttempt) := none
deriving DecidableEq, Repr, Inhabited

namespace Trial

/-- After the third failure the log is told only what is new. -/
def isQuiet (t : Trial) : Bool := 2 < t.retries

/-- The retries after which a quiet trial is mentioned again. -/
def reminderPeriod : Nat := 600

def reminder (t : Trial) : List Notice :=
  if t.isQuiet && t.retries % reminderPeriod == 0 then [.stillFencing t.name] else []

/-- What an agent found tells nothing new when a quiet trial fails just as it did before. -/
def isRepeated (t : Trial) (o : AgentOutcome) : Bool :=
  t.isQuiet && !o.success && t.lastLog == some o.log

/-- Every device is told of, and whether the node was fenced. -/
def outcomeNotices (name : String) (o : AgentOutcome) : List Notice :=
  o.log.map (.deviceTried name) ++
    [if o.success then .fenceSucceeded name else .fenceFailed name]

/-- An agent that crashed is told of, whatever else is. -/
def crashNotices (name : String) : AgentAnswer → List Notice
  | .done _ => []
  | .crashed text => [.agentCrashed name text]

/-- The trial goes on after a failure. -/
def again (t : Trial) : Trial := { t with retries := t.retries + 1 }

end Trial

/-- Where a run has got to. -/
inductive Stage where
  | starting
  | delaying (d : Delay)
  | reducing (d : Delay) (rest : List Victim) (remaining : Nat)
  | listing
  | choosing (rest : List NodeId)
  | trying (t : Trial) (rest : List NodeId)
  | calling (t : Trial) (rest : List NodeId)
  | overriding (t : Trial) (rest : List NodeId)
  | resting (t : Trial) (rest : List NodeId)
  | over (result : Answer)

/-- A fencing run: what the master of a change does about the victims. It first gives them time to
    come back by themselves, and then takes them one by one until each is fenced, overridden, or
    shown to be safe. It remembers the victims that it has resolved, because its reports may not have
    been acted on when it looks again. -/
structure FencingRun where
  settings : FencingSettings
  nodesJoined : Bool
  overridable : Bool
  resolved : List NodeId := []
  stage : Stage := .starting

/-- What a run goes on with: at once, after a pause in milliseconds, with the outcome of an agent,
    with an administrator's answer, or not at all. -/
inductive RunWant where
  | turn
  | pause (millis : Nat)
  | agent (name : String)
  | answer (name : String) (wait : Nat)
  | nothing
deriving DecidableEq, Repr, Inhabited

/-- What a run hands out, in order. -/
inductive RunEffect where
  | report (r : FencingReport)
  | callAgent (victim : NodeId) (name : String)
  | awaitOverride (victim : NodeId) (name : String) (wait : Nat)
  | notice (n : Notice)
deriving DecidableEq, Repr, Inhabited

namespace FencingRun

def wants (r : FencingRun) : RunWant :=
  match r.stage with
  | .delaying _ => .pause r.settings.delayPoll
  | .resting _ _ => .pause r.settings.retryInterval
  | .calling t _ => .agent t.name
  | .overriding t _ => .answer t.name r.settings.overrideTime
  | .over _ => .nothing
  | _ => .turn

/-- The victims that this run has not resolved. -/
def unresolved (r : FencingRun) (s : Surroundings) : List Victim :=
  s.victims.toList.filter (!r.resolved.contains ·.node)

/-- The run goes on to a stage. -/
def goTo (r : FencingRun) (stage : Stage) : FencingRun := { r with stage }

/-- Reports, if anybody is listening; a run that nobody listens to is over. -/
def report (r : FencingRun) (listening : Bool) (report : FencingReport) (next : Stage) :
    FencingRun × List RunEffect :=
  if listening then (r.goTo next, [.report report]) else (r.goTo (.over (.error .shuttingDown)), [])

/-- Reports that a victim is resolved. -/
def resolve (r : FencingRun) (listening : Bool) (victim : NodeId) (how : Resolution)
    (reduced : Bool) (next : Stage) : FencingRun × List RunEffect :=
  { r with resolved := victim :: r.resolved }.report listening (.resolved victim how reduced) next

/-- Delays when there are victims and a delay is set. -/
def start (r : FencingRun) (now : Nat) (s : Surroundings) : FencingRun :=
  let seconds := if r.nodesJoined then r.settings.postJoinDelay else r.settings.postFailDelay
  if (r.unresolved s).isEmpty || seconds == 0 then r.goTo .listing
  else r.goTo (.delaying { seconds, start := now })

/-- Looks whether a victim has come back during the delay. -/
def reduceOne (r : FencingRun) (s : Surroundings) (listening : Bool) (d : Delay) (v : Victim)
    (rest : List Victim) (remaining : Nat) : FencingRun × List RunEffect :=
  let notices := s.clusterNotices.map .notice
  if s.isBack v.node then
    let (r, effects) :=
      r.resolve listening v.node .member true (.reducing d rest (remaining - 1))
    (r, notices ++ effects)
  else (r.goTo (.reducing d rest remaining), notices)

/-- All victims were looked at: the delay is over, or goes on. -/
def endPoll (r : FencingRun) (now : Nat) (d : Delay) (remaining : Nat) : FencingRun :=
  if remaining == 0 then r.goTo .listing
  else
    let d := d.counted r.settings.postJoinDelay now remaining
    if d.isOver now then r.goTo .listing else r.goTo (.delaying d)

/-- Turns to the next victim, if it still is one. -/
def choose (r : FencingRun) (s : Surroundings) (victim : NodeId) (rest : List NodeId) :
    FencingRun × List RunEffect :=
  match (r.unresolved s).find? (·.node == victim) with
  | none => (r.goTo (.choosing rest), [])
  | some v =>
    if v.resolvedHere then (r.goTo (.choosing rest), [.notice (.victimResolvedBefore victim)])
    else (r.goTo (.trying { victim, name := v.name } rest), [])

/-- Looks whether a victim still has to be fenced, and if so calls the agent. -/
def check (r : FencingRun) (s : Surroundings) (listening : Bool) (t : Trial) (rest : List NodeId) :
    FencingRun × List RunEffect :=
  let reminder := t.reminder.map RunEffect.notice
  if !listening then (r.goTo (.over (.error .shuttingDown)), reminder)
  else
    let before :=
      reminder ++ [.report (.attempt t.victim)] ++
        (s.clusterNotices ++ s.history.lookupNotices t.victim).map .notice
    match s.averted? t.victim with
    | some how =>
      let (r, effects) := r.resolve listening t.victim how false (.choosing rest)
      (r, before ++ effects)
    | none =>
      let announced := if t.isQuiet then [] else [RunEffect.notice (.fencingNode t.name)]
      (r.goTo (.calling t rest), before ++ announced ++ [.callAgent t.victim t.name])

/-- Goes on at its turn, or after a pause. -/
def turn (r : FencingRun) (now : Nat) (s : Surroundings) (listening : Bool) :
    FencingRun × List RunEffect :=
  match r.stage with
  | .starting => (r.start now s, [])
  | .delaying d =>
    let victims := r.unresolved s
    (r.goTo (.reducing d victims victims.length), [])
  | .reducing d (v :: rest) remaining => r.reduceOne s listening d v rest remaining
  | .reducing d [] remaining => (r.endPoll now d remaining, [])
  | .listing => (r.goTo (.choosing ((r.unresolved s).map (·.node))), [])
  | .choosing (victim :: rest) => r.choose s victim rest
  | .choosing [] => r.report listening .finished (.over (.ok ()))
  | .trying t rest => r.check s listening t rest
  | .resting t rest => (r.goTo (.trying t.again rest), [])
  | _ => (r, [])

/-- Goes on with what came of the agent's work. After a failure it asks for an override, where
    there is one, or rests. -/
def agentDone (r : FencingRun) (listening : Bool) (a : AgentAnswer) :
    FencingRun × List RunEffect :=
  match r.stage with
  | .calling t rest =>
    let o := a.outcome
    let told :=
      (Trial.crashNotices t.name a ++ if t.isRepeated o then [] else Trial.outcomeNotices t.name o)
        |>.map RunEffect.notice
    let t := if t.isRepeated o then t else { t with lastLog := some o.log }
    if o.success then
      let (r, effects) := r.resolve listening t.victim .agent false (.choosing rest)
      (r, told ++ effects)
    else if r.overridable then
      (r.goTo (.overriding t rest),
        told ++ [.awaitOverride t.victim t.name r.settings.overrideTime])
    else (r.goTo (.resting t rest), told)
  | _ => (r, [])

/-- Goes on with what came of the wait for an override. -/
def overrideDone (r : FencingRun) (listening overridden : Bool) : FencingRun × List RunEffect :=
  match r.stage with
  | .overriding t rest =>
    if overridden then
      let (r, effects) := r.resolve listening t.victim .override false (.choosing rest)
      (r, .notice (.fenceOverridden t.name) :: effects)
    else (r.goTo (.trying t.again rest), [])
  | _ => (r, [])

end FencingRun

end ClusterFence
