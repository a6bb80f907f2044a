import ClusterFence.ChangeQueue

namespace ClusterFence

/-- A START as it came: who sent it, with which flags, and what it says. -/
structure ReceivedStart where
  sender : NodeId
  flags : MessageFlags := {}
  report : ChangeReport
deriving DecidableEq, Repr, Inhabited

namespace ReceivedStart

/-- The first line of the START about the node flags it as a member. -/
def flagsMember (s : ReceivedStart) (node : NodeId) : Bool :=
  (s.report.entries.find? (·.node == node)).any (·.isMember)

/-- Nothing in the sender's history rules out that it takes part in the change: it was in the
    cluster when the change came up, it has not failed or left since, and no later change was
    already matched with a START of its own. -/
def allowedBy (n : NodeHistory) (c : Change) : Bool :=
  n.clusterAddTime ≤ c.createTime && n.failSeq ≤ c.seq && n.leftSeq ≤ c.seq &&
    n.lastMatchSeq ≤ c.seq

/-- The START describes this change: it counts us in, comes from a member that has not started
    yet and whose history allows it, has the sizes of the change and flags no other members. -/
def describes (s : ReceivedStart) (us : NodeId) (h : History) (c : Change) : Bool :=
  s.flagsMember us && c.awaits s.sender && (h.get? s.sender).any (allowedBy · c) &&
    s.report.summary.counts == c.counts &&
    s.report.entries.all fun e => !e.isMember || c.isMember e.node

/-- Compares the START with one change and remembers a match in the sender's history. -/
def compare (s : ReceivedStart) (us : NodeId) (h : History) (c : Change) : Bool × History :=
  if s.describes us h c then (true, h.recordMatch s.sender c.seq) else (false, h)

/-- Looks through changes, oldest first, for the second match, and settles for the first, which
    may have been found before. -/
def findSecond (s : ReceivedStart) (us : NodeId) (first : Option UInt32) :
    List Change → History → Option UInt32 × History
  | [], h => (first, h)
  | c :: newer, h =>
    if s.describes us h c then
      let h := h.recordMatch s.sender c.seq
      if first.isSome then (some c.seq, h) else findSecond s us (some c.seq) newer h
    else findSecond s us first newer h

/-- Looks through changes, oldest first, for the first match. -/
def findFirst (s : ReceivedStart) (us : NodeId) : List Change → History → Option UInt32 × History
  | [], h => (none, h)
  | c :: newer, h =>
    if s.describes us h c then (some c.seq, h.recordMatch s.sender c.seq)
    else findFirst s us newer h

/-- The number of the pending change that the START is for. A START names the change only by its
    sizes and members, so it is compared with every pending change. A sender that lags works through
    the changes oldest first, and flags a START that is for the second of two that look alike. -/
def find (s : ReceivedStart) (us : NodeId) (q : ChangeQueue) (h : History) :
    Option UInt32 × History :=
  if s.flags.contains .duplicate then s.findSecond us none q.pending.reverse h
  else s.findFirst us q.pending.reverse h

end ReceivedStart

end ClusterFence
