import ClusterFence.Node

namespace ClusterFence

/-- The result of one fencing device. -/
inductive DeviceResult where
  | success
  | agentFailed
  | forkFailed
  | noConfig
  | noMethod
  | noDevice
  | badAgent
  | badArgs
  | badMethod
  | badDevice
deriving DecidableEq, Repr, Inhabited

namespace DeviceResult

def isSuccess : DeviceResult → Bool
  | .success => true
  | _ => false

def text : DeviceResult → String
  | .success => "success"
  | .agentFailed => "error from agent"
  | .forkFailed => "error from fork"
  | .noConfig => "error from config"
  | .noMethod => "error no method"
  | .noDevice => "error no device"
  | .badAgent => "error config agent"
  | .badArgs => "error config args"
  | .badMethod => "error config method"
  | .badDevice => "error config device"

end DeviceResult

/-- One device of one fencing method, as it was tried. The agent is empty when none was
    configured. -/
structure DeviceAttempt where
  method : UInt32
  device : UInt32
  agent : String
  result : DeviceResult
deriving DecidableEq, Repr, Inhabited

/-- What came of asking the agent to fence a node. -/
structure AgentOutcome where
  success : Bool := true
  log : List DeviceAttempt := []
deriving DecidableEq, Repr, Inhabited

/-- What comes back from the agent: its outcome, or, if its task crashed, what is said of that. -/
inductive AgentAnswer where
  | done (o : AgentOutcome)
  | crashed (text : String)
deriving DecidableEq, Repr, Inhabited

/-- An agent that crashes has fenced nothing and has nothing to report. -/
def AgentAnswer.outcome : AgentAnswer → AgentOutcome
  | .done o => o
  | .crashed _ => { success := false }

end ClusterFence
