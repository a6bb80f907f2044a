import ClusterFence.Change
import ClusterFence.Error
import ClusterFence.Fencing.Agent

namespace ClusterFence

/-- How serious a notice is. -/
inductive Level where
  | error
  | warn
  | info
  | debug
deriving DecidableEq, Repr, Inhabited

def Level.name : Level → String
  | .error => "ERROR"
  | .warn => "WARN"
  | .info => "INFO"
  | .debug => "DEBUG"

/-- The part of the daemon that a notice comes from. -/
inductive Facility where
  | history
  | changes
  | domain
  | receipt
  | transport
  | fencing
  | coordinator
deriving DecidableEq, Repr, Inhabited

/-- What was to be recorded in a node's history. -/
inductive HistoryMark where
  | start
  | left
  | fail
  | fence
  | fenceLocal
  | fenceExternal
  | clusterRemove
deriving DecidableEq, Repr, Inhabited

def HistoryMark.name : HistoryMark → String
  | .start => "start"
  | .left => "left"
  | .fail => "fail"
  | .fence => "fence"
  | .fenceLocal => "fence_local"
  | .fenceExternal => "fence_external"
  | .clusterRemove => "cluster_remove"

/-- Something that the log is told. Of what is of use only for debugging, these are the devices that
    were tried with success; the rest is left out. -/
inductive Notice where
  | noHistory (mark : HistoryMark) (node : NodeId)
  | noHistoryForExternal (node : NodeId)
  | joinedNotMember (node : NodeId)
  | offerInDomain (sender : NodeId)
  | stuckIn (phase : ChangePhase)
  | fencingDeferred (master : String)
  | noHistoryForVictim (node : NodeId)
  | noFencingToFinish
  | startFromNoMember (sender : NodeId)
  | bothSidesStarted (sender : NodeId) (seq startedCount : UInt32)
  | victimNotResolvedHere
  | sendRetried (group : GroupName) (retries : Nat) (what : String)
  | sendFailed (group : GroupName) (cause : Error) (what : String)
  | joinRetried (group : GroupName) (retries : Nat)
  | snapshotFailed (cause : Error)
  | victimResolvedBefore (node : NodeId)
  | stillFencing (name : String)
  | fencingNode (name : String)
  | agentCrashed (name text : String)
  | deviceTried (name : String) (attempt : DeviceAttempt)
  | fenceSucceeded (name : String)
  | fenceFailed (name : String)
  | fenceOverridden (name : String)
  | started (node : NodeId) (name : String) (group : GroupName)
  | externalOutsideDomain (victim : NodeId)
  | shuttingDown
  | stopping (cause : Error)
  | failed (cause : Error)
  | leaveFailed (group : GroupName) (cause : Error)
  | clusterUpdateFailed (cause : Error)
  | offerNotSent (cause : Error)
  | daemonMessageRefused (cause : Error)
  | daemonMessageUnknown (kind : MessageKind)
  | offerRefused (cause : Error)
  | versionAgreed (run : Version) (group : GroupName)
  | membershipRefused (cause : Error)
  | domainMessageRefused (cause : Error)
  | evicting (node : NodeId)
  | evictionFailed (node : NodeId) (cause : Error)
  | domainMessageNotSent (group : GroupName) (cause : Error)
  | leftDomain (group : GroupName)
  | fencingRunFailed (cause : Error)
deriving DecidableEq, Repr, Inhabited

namespace Notice

def facility : Notice → Facility
  | .noHistory _ _ | .noHistoryForExternal _ => .history
  | .joinedNotMember _ => .changes
  | .offerInDomain _ | .stuckIn _ | .fencingDeferred _ | .noHistoryForVictim _
  | .noFencingToFinish => .domain
  | .startFromNoMember _ | .bothSidesStarted _ _ _ | .victimNotResolvedHere => .receipt
  | .sendRetried _ _ _ | .sendFailed _ _ _ | .joinRetried _ _ => .transport
  | .snapshotFailed _ | .victimResolvedBefore _ | .stillFencing _ | .fencingNode _
  | .agentCrashed _ _ | .deviceTried _ _ | .fenceSucceeded _ | .fenceFailed _
  | .fenceOverridden _ => .fencing
  | _ => .coordinator

def level : Notice → Level
  | .fenceOverridden _ => .warn
  | .deviceTried _ attempt => if attempt.result.isSuccess then .debug else .error
  | .fencingDeferred _ | .stillFencing _ | .fencingNode _ | .fenceSucceeded _ | .started _ _ _
  | .shuttingDown | .versionAgreed _ _ | .evicting _ | .leftDomain _ => .info
  | _ => .error

def text : Notice → String
  | .noHistory mark node => s!"node_history_{mark.name}: {(Error.unknownNode node).message}"
  | .noHistoryForExternal node => s!"is_fenced_external no nodeid {node}"
  | .joinedNotMember node => s!"no member {node}"
  | .offerInDomain sender => s!"unexpected protocol message from {sender} in domain group"
  | .stuckIn phase => s!"apply_changes invalid state {phase.text}"
  | .fencingDeferred master => s!"fencing deferred to {master}"
  | .noHistoryForVictim node => s!"send_victim_done no nodeid {node}"
  | .noFencingToFinish => "fencing finished with no fencing outstanding"
  | .startFromNoMember sender => s!"receive_start no member {sender}"
  | .bothSidesStarted sender seq startedCount =>
    s!"receive_start {sender}:{seq} add node with started_count {startedCount}"
  | .victimNotResolvedHere => "expect local_victim_done"
  | .sendRetried group retries what => s!"mcast {group.text} retry {retries} {what}"
  | .sendFailed group cause what => s!"mcast {group.text} error {cause.message} {what}"
  | .joinRetried group retries => s!"group join {group.text} retry {retries}"
  | .snapshotFailed cause => s!"cluster snapshot error {cause.message}"
  | .victimResolvedBefore node => s!"skip local_victim_done node {node}"
  | .stillFencing name => s!"fencing node {name} still retrying"
  | .fencingNode name => s!"fencing node {name}"
  | .agentCrashed name text => s!"fence {name} agent task: {text}"
  | .deviceTried name attempt =>
    let agent := if attempt.agent.isEmpty then "none" else attempt.agent
    let device := s!"{attempt.method}.{attempt.device}"
    s!"fence {name} dev {device} agent {agent} result: {attempt.result.text}"
  | .fenceSucceeded name => s!"fence {name} success"
  | .fenceFailed name => s!"fence {name} failed"
  | .fenceOverridden name => s!"fence {name} overridden by administrator intervention"
  | .started node name group => s!"fencekeeper node {node} ({name}) domain {group.text}"
  | .externalOutsideDomain victim => s!"fence_external {victim} not in domain"
  | .shuttingDown => "shutting down"
  | .stopping cause => s!"coordinator stopping: {cause.message}"
  | .failed cause => cause.message
  | .leaveFailed group cause => s!"leave {group.text}: {cause.message}"
  | .clusterUpdateFailed cause => s!"cluster update failed: {cause.message}"
  | .offerNotSent cause => s!"send protocol: {cause.message}"
  | .daemonMessageRefused cause => s!"deliver_cb_daemon {cause.message}"
  | .daemonMessageUnknown kind => s!"deliver_cb_daemon unknown msg type {kind.name}"
  | .offerRefused cause => s!"receive_protocol {cause.message}"
  | .versionAgreed run group => s!"daemon protocol {run.text} agreed, joining {group.text}"
  | .membershipRefused cause => s!"domain confchg: {cause.message}"
  | .domainMessageRefused cause => s!"deliver_cb {cause.message}"
  | .evicting node => s!"kick node {node} from cluster"
  | .evictionFailed node cause => s!"kick_node_from_cluster {node}: {cause.message}"
  | .domainMessageNotSent group cause => s!"send to {group.text}: {cause.message}"
  | .leftDomain group => s!"left domain {group.text}"
  | .fencingRunFailed cause => s!"fencing run: {cause.message}"

end Notice

end ClusterFence
