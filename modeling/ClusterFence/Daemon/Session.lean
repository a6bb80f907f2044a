import ClusterFence.Daemon.Basic
import ClusterFence.Fencing.Rehearsal

namespace ClusterFence

/-- A fencing run, and when what it waits for comes. -/
structure ActiveRun where
  run : FencingRun
  due : Nat := 0

/-- What is seen from outside, since it was last asked for, in order. -/
structure Sightings where
  calls : Array TransportCall := #[]
  evictions : Array NodeId := #[]
  agents : Array String := #[]
  overrides : Array (String × Nat) := #[]
  notices : Array Notice := #[]
deriving Inhabited

/-- A daemon among its services. Messages that go out may come back at once. The clock counts
    milliseconds, and the wall clock seconds. -/
structure Session where
  daemon : Daemon
  events : List DaemonEvent := []
  runs : List ActiveRun := []
  cluster : Except Error ClusterSnapshot
  eviction : Answer := .ok ()
  loopback : Bool := false
  joins : Script Answer := { usual := .ok () }
  multicasts : Script Answer := { usual := .ok () }
  leaves : Script Answer := { usual := .ok () }
  agents : Script AgentAnswer := { usual := .done {} }
  replies : Script OverrideReply := { usual := .silence }
  clock : Nat := 0
  due : Nat := 0
  wall : Seconds := 0
  seen : Sightings := {}

namespace Session

/-- Whether anybody takes up events. -/
def isOpen (s : Session) : Bool := s.daemon.result.isNone

/-- An event for the daemon. -/
def post (s : Session) (e : DaemonEvent) : Session :=
  if s.isOpen then { s with events := s.events ++ [e] } else s

/-- What has been seen is not asked for again. -/
def forget (s : Session) : Session := { s with seen := {} }

def notice (s : Session) (n : Notice) : Session :=
  { s with seen.notices := s.seen.notices.push n }

def daemonEffect (s : Session) : DaemonEffect → Session
  | .startRun run => { s with runs := s.runs ++ [{ run }] }
  | .notice n => s.notice n

/-- The daemon goes on with what it is given. -/
def feed (s : Session) (input : DaemonInput) : Session :=
  let (daemon, effects) := s.daemon.step s.wall input
  let s := effects.foldl daemonEffect { s with daemon }
  match daemon.wants with
  | .pause millis => { s with due := s.clock + millis }
  | _ => s

/-- The group service answers a call. -/
def answerCall (s : Session) (call : TransportCall) : Answer × Session :=
  let s := { s with seen.calls := s.seen.calls.push call }
  match call with
  | .join _ => let (a, joins) := s.joins.next; (a, { s with joins })
  | .leave _ => let (a, leaves) := s.leaves.next; (a, { s with leaves })
  | .multicast group data =>
    let (a, multicasts) := s.multicasts.next
    let s := { s with multicasts }
    if s.loopback && a.isOk then (a, s.post (.group group (.deliver s.daemon.us data))) else (a, s)

/-- What the daemon wants is at hand, so it goes on. -/
def daemonTurn? (s : Session) : Option Session :=
  match s.daemon.wants with
  | .turn => some (s.feed .turn)
  | .pause _ => if s.due ≤ s.clock then some (s.feed .turn) else none
  | .answer call => let (a, s) := s.answerCall call; some (s.feed (.answered a))
  | .snapshot => some (s.feed (.snapshot s.cluster))
  | .eviction node =>
    some ({ s with seen.evictions := s.seen.evictions.push node }.feed (.answered s.eviction))
  | .event =>
    match s.events with
    | [] => none
    | e :: events => some ({ s with events }.feed (.event e))
  | .nothing => none

/-- What a fencing run of this daemon sees. -/
def surroundings (s : Session) : Surroundings where
  victims := s.daemon.domain.victims
  history := s.daemon.domain.history
  daemons := s.daemon.daemons
  cluster := s.cluster

def runEffect (s : Session) : RunEffect → Session
  | .report r => s.post (.fencing r)
  | .callAgent _ name => { s with seen.agents := s.seen.agents.push name }
  | .awaitOverride _ name wait => { s with seen.overrides := s.seen.overrides.push (name, wait) }
  | .notice n => s.notice n

/-- What is said about a run that ends in an error. -/
def runNotices (r : FencingRun) : List Notice :=
  match r.stage with
  | .over (.error e) => [.fencingRunFailed e]
  | _ => []

/-- A run has come a step further, between runs before and after it. One that is over is gone. -/
def ranOn (s : Session) (before after : List ActiveRun) (step : FencingRun × List RunEffect) :
    Session :=
  let (run, effects) := step
  let s := (runNotices run).foldl notice (effects.foldl runEffect s)
  let active (due : Nat) : Session := { s with runs := before ++ { run, due } :: after }
  match run.wants with
  | .nothing => { s with runs := before ++ after }
  | .pause millis => active (s.clock + millis)
  | .answer _ wait => active (s.clock + s.replies.next.1.duration wait)
  | _ => active s.clock

/-- What a run wants is at hand, so it goes on. -/
def runTurn? (s : Session) (before after : List ActiveRun) (a : ActiveRun) : Option Session :=
  let turn := a.run.turn s.clock s.surroundings s.isOpen
  match a.run.wants with
  | .turn => some (s.ranOn before after turn)
  | .pause _ => if a.due ≤ s.clock then some (s.ranOn before after turn) else none
  | .agent _ =>
    let (answer, agents) := s.agents.next
    some ({ s with agents }.ranOn before after (a.run.agentDone s.isOpen answer))
  | .answer _ wait =>
    if a.due ≤ s.clock then
      let (reply, replies) := s.replies.next
      let step := a.run.overrideDone s.isOpen (reply.overrides wait)
      some ({ s with replies }.ranOn before after step)
    else none
  | .nothing => none

/-- The first run that can goes on. -/
def anyRunTurn? (s : Session) : List ActiveRun → List ActiveRun → Option Session
  | _, [] => none
  | before, a :: after => (s.runTurn? before after a).or (s.anyRunTurn? (before ++ [a]) after)

/-- The next moment at which something is due. -/
def nextDue? (s : Session) : Option Nat :=
  let daemon := match s.daemon.wants with
    | .pause _ => [s.due]
    | _ => []
  (daemon ++ s.runs.map (·.due)).min?

/-- Goes on until time `stop`. Time stands still while anything can go on, and then passes to the
    next moment at which something is due. -/
def play (stop : Nat) : Nat → Session → Session
  | 0, s => s
  | fuel + 1, s =>
    match s.daemonTurn?.or (s.anyRunTurn? [] s.runs) with
    | some s => play stop fuel s
    | none =>
      match s.nextDue? with
      | some due =>
        if due < stop then play stop fuel { s with clock := due } else { s with clock := stop }
      | none => { s with clock := stop }

/-- A daemon that is started among its services. -/
def greet (s : Session) : Session := s.notice s.daemon.greeting

end Session

end ClusterFence
