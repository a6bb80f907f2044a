import ClusterFence.Wire.Message

namespace ClusterFence

/-- Why a configuration is refused. -/
inductive ConfigFault where
  | nodeIdZero
  | nodeNameEmpty
  | domainNameEmpty
  | listedIdZero (name : String)
  | listedTwice (id : NodeId)
  | overrideTimeZero
  | stated (text : String)
deriving DecidableEq, Repr, Inhabited

def ConfigFault.message : ConfigFault → String
  | .nodeIdZero => "node.id cannot be zero"
  | .nodeNameEmpty => "node.name cannot be empty"
  | .domainNameEmpty => "domain.name cannot be empty"
  | .listedIdZero name => s!"domain.nodes entry {name} has zero id"
  | .listedTwice id => s!"domain.nodes lists id {id} twice"
  | .overrideTimeZero => "fencing.override_time must be positive when override_path is set"
  | .stated text => text

/-- Why the length of a message body is wrong: the body of a fixed size has another one, the
    sizes announced are too small, or they do not add up to the body that came. -/
inductive LengthFault where
  | body (kind : MessageKind) (got want : Nat)
  | blocks (summarySize entrySize : Nat)
  | report (got want entries : Nat)
  | stated (text : String)
deriving DecidableEq, Repr, Inhabited

def LengthFault.message : LengthFault → String
  | .body kind got want => s!"{kind.name} payload {got} bytes, expected {want}"
  | .blocks summarySize entrySize => s!"info size {summarySize} id size {entrySize}"
  | .report got want entries => s!"change payload {got} bytes, expected {want} for {entries} ids"
  | .stated text => text

/-- Which of the two versions of an offer is malformed. -/
inductive OfferFault where
  | max (value : Version)
  | run (value : Version)
  | stated (text : String)
deriving DecidableEq, Repr, Inhabited

def OfferFault.message : OfferFault → String
  | .max value => s!"max value {value.text}"
  | .run value => s!"run value {value.text}"
  | .stated text => text

/-- The part of a version that has no common value. -/
inductive VersionPart where
  | major
  | minor
  | patch
deriving DecidableEq, Repr, Inhabited

def VersionPart.name : VersionPart → String
  | .major => "major"
  | .minor => "minor"
  | .patch => "patch"

/-- Why negotiation of a version cannot go on. -/
inductive NegotiationFault where
  | unknownSender (node : NodeId)
  | senderNotMember (node : NodeId)
  | noOffer (node : NodeId)
  | noCommon (part : VersionPart)
  | stated (text : String)
deriving DecidableEq, Repr, Inhabited

def NegotiationFault.message : NegotiationFault → String
  | .unknownSender node => s!"receive_protocol no node {node}"
  | .senderNotMember node => s!"receive_protocol node {node} not member"
  | .noOffer node => s!"pick_min_protocol no node {node}"
  | .noCommon part => s!"pick_min_protocol zero {part.name} number"
  | .stated text => text

/-- What should have held. -/
inductive InvariantFault where
  | joinedNotMember (seq : UInt32) (node : NodeId)
  | stated (text : String)
deriving DecidableEq, Repr, Inhabited

def InvariantFault.message : InvariantFault → String
  | .joinedNotMember seq node => s!"cg {seq} joined node {node} is not a member"
  | .stated text => text

/-- Why a file cannot be read. -/
inductive FileFault where
  | notText
  | stated (text : String)
deriving DecidableEq, Repr, Inhabited

def FileFault.message : FileFault → String
  | .notText => "stream did not contain valid UTF-8"
  | .stated text => text

/-- An error, by cause. A cause that another program or a person put into words is carried as
    the text it came with. -/
inductive Error where
  | config (fault : ConfigFault)
  | configUnreadable (text : String)
  | shortMessage (length need : Nat)
  | badLength (fault : LengthFault)
  | unknownMessageType (code : UInt16)
  | versionMismatch (sender : NodeId) (got running : Version)
  | senderMismatch (claimed actual : NodeId)
  | invalidVersion (sender : NodeId) (fault : OfferFault)
  | incompatibleVersion (run max : Version)
  | negotiation (fault : NegotiationFault)
  | tryAgain
  | transport (text : String)
  | joinFailed (group reason : String)
  | unknownNode (node : NodeId)
  | invariant (fault : InvariantFault)
  | override (text : String)
  | fileUnreadable (fault : FileFault)
  | documentMismatch (text : String)
  | shuttingDown
deriving DecidableEq, Repr, Inhabited

namespace Error

def message : Error → String
  | .config fault => s!"Configuration error: {fault.message}"
  | .configUnreadable text => s!"Invalid configuration file: {text}"
  | .shortMessage length need => s!"Short message: {length} bytes, need at least {need}"
  | .badLength fault => s!"Bad message length: {fault.message}"
  | .unknownMessageType code => s!"Unknown message type {code}"
  | .versionMismatch sender got running =>
    s!"Reject message from {sender} version {got.text} vs {running.text}"
  | .senderMismatch claimed actual => s!"Bad message nodeid {claimed} from {actual}"
  | .invalidVersion sender fault => s!"Invalid protocol version from {sender}: {fault.message}"
  | .incompatibleVersion run max => s!"Incompatible daemon protocol run {run.text} max {max.text}"
  | .negotiation fault => s!"Protocol negotiation failed: {fault.message}"
  | .tryAgain => "Group service busy, try again"
  | .transport text => s!"Group transport error: {text}"
  | .joinFailed group reason => s!"Failed to join group {group}: {reason}"
  | .unknownNode node => s!"No node history for nodeid {node}"
  | .invariant fault => s!"Invariant violated: {fault.message}"
  | .override text => s!"Override channel error: {text}"
  | .fileUnreadable fault => s!"I/O error: {fault.message}"
  | .documentMismatch text => s!"JSON error: {text}"
  | .shuttingDown => "Shutdown in progress"

/-- Only a busy group service is asked again. -/
def isRetryable : Error → Bool
  | .tryAgain => true
  | _ => false

/-- A daemon that cannot be configured, cannot run the agreed version or cannot join its group
    stops. -/
def isFatal : Error → Bool
  | .incompatibleVersion _ _ | .joinFailed _ _ | .config _ | .configUnreadable _ => true
  | _ => false

end Error

/-- An answer that says only whether all went well. -/
abbrev Answer := Except Error Unit

end ClusterFence
