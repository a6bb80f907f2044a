import ClusterFence.Version

namespace ClusterFence

/-- The kinds of message, each with its own number on the wire. -/
inductive MessageKind where
  | protocol
  | start
  | victimDone
  | complete
  | external
deriving DecidableEq, Repr, Inhabited

namespace MessageKind

def code : MessageKind → UInt16
  | .protocol => 1
  | .start => 2
  | .victimDone => 3
  | .complete => 4
  | .external => 5

def ofCode? : UInt16 → Option MessageKind
  | 1 => some .protocol
  | 2 => some .start
  | 3 => some .victimDone
  | 4 => some .complete
  | 5 => some .external
  | _ => none

def name : MessageKind → String
  | .protocol => "protocol"
  | .start => "start"
  | .victimDone => "victim_done"
  | .complete => "complete"
  | .external => "external"

theorem ofCode?_code (k : MessageKind) : ofCode? k.code = some k := by
  cases k <;> rfl

end MessageKind

/-- Flag bits in a message header. -/
structure MessageFlags where
  bits : UInt32 := 0
deriving DecidableEq, Repr, Inhabited

namespace MessageFlags

/-- Goes with a START whose sender is joining the domain. -/
def joining : MessageFlags := ⟨1⟩

/-- Goes with messages whose sender knows the whole fencing history. -/
def complete : MessageFlags := ⟨2⟩

/-- Goes with a START for the second of two changes that look alike on the wire. -/
def duplicate : MessageFlags := ⟨4⟩

def union (a b : MessageFlags) : MessageFlags := ⟨a.bits ||| b.bits⟩

instance : OrOp MessageFlags := ⟨union⟩

/-- Every bit of `b` is set in `a`. -/
def contains (a b : MessageFlags) : Bool := a.bits &&& b.bits == b.bits

end MessageFlags

/-- The sizes of a membership change: how many members it has, how many joined, how many were
    removed and how many of those failed. -/
structure ChangeCounts where
  members : UInt32 := 0
  joined : UInt32 := 0
  removed : UInt32 := 0
  failed : UInt32 := 0
deriving DecidableEq, Repr, Inhabited

/-- All that identifies a change to another node, its member list apart: its sizes, and how many
    changes the sender has completed. -/
structure ChangeSummary where
  startedCount : UInt32 := 0
  counts : ChangeCounts := {}
deriving DecidableEq, Repr, Inhabited

/-- A line of a START or COMPLETE about one node: whether it is a member of the change, and
    how it was last fenced. -/
structure NodeEntry where
  node : NodeId
  flags : UInt32 := 0
  externalNode : NodeId := 0
  fenceMaster : NodeId := 0
  fenceHow : UInt32 := 0
  fenceTime : Seconds := 0
  externalTime : Seconds := 0
deriving DecidableEq, Repr, Inhabited

namespace NodeEntry

/-- The flag bit of a node that is a member of the change. -/
def memberFlag : UInt32 := 1

def isMember (entry : NodeEntry) : Bool := entry.flags &&& memberFlag != 0

end NodeEntry

/-- A membership change as its sender describes it. -/
structure ChangeReport where
  seq : UInt32
  summary : ChangeSummary
  entries : List NodeEntry
deriving DecidableEq, Repr, Inhabited

/-- What one daemon tells the others. -/
inductive Message where
  | protocol (offer : Offer)
  | start (report : ChangeReport)
  | victimDone (seq : UInt32) (entry : NodeEntry)
  | complete (report : ChangeReport)
  | external (victim : NodeId)
deriving DecidableEq, Repr, Inhabited

namespace Message

def kind : Message → MessageKind
  | .protocol _ => .protocol
  | .start _ => .start
  | .victimDone _ _ => .victimDone
  | .complete _ => .complete
  | .external _ => .external

/-- The word of the header that belongs to the message: the change it is about, or the node
    that was fenced by others. -/
def headerWord : Message → UInt32
  | .protocol _ => 0
  | .start report | .complete report => report.seq
  | .victimDone seq _ => seq
  | .external victim => victim

end Message

/-- The header fields that do not follow from the message. -/
structure Header where
  version : Version := {}
  sender : NodeId
  target : NodeId := 0
  globalId : UInt32 := 0
  flags : MessageFlags := {}
deriving DecidableEq, Repr, Inhabited

/-- A message with its header. -/
structure Envelope where
  header : Header
  message : Message
deriving DecidableEq, Repr, Inhabited

end ClusterFence
