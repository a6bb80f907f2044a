import ClusterFence.Notice

namespace ClusterFence

/-- A call of the group service. -/
inductive TransportCall where
  | join (group : GroupName)
  | leave (group : GroupName)
  | multicast (group : GroupName) (data : List UInt8)
deriving DecidableEq, Repr, Inhabited

/-- What an answer means: the matter is over, or the call is made again after a pause in
    milliseconds. -/
inductive Verdict (σ : Type) where
  | over (result : Answer) (notices : List Notice)
  | again (pause : Nat) (notices : List Notice) (next : σ)

/-- A notice that is due at every `period`-th retry. -/
def everyTime (period retries : Nat) (n : Notice) : List Notice :=
  if retries % period == 0 then [n] else []

/-- A message on its way into a group: what it is called in the log, how often it was turned away,
    and how long the next pause is. -/
structure Sending where
  group : GroupName
  data : List UInt8
  label : String
  retries : Nat := 0
  pause : Nat := 1
deriving DecidableEq, Repr, Inhabited

namespace Sending

/-- The longest pause, in milliseconds. -/
def longestPause : Nat := 100

/-- The log is told at every hundredth retry. -/
def noticePeriod : Nat := 100

def call (s : Sending) : TransportCall := .multicast s.group s.data

/-- Each pause is twice the one before, up to the longest. -/
def next (s : Sending) : Sending :=
  { s with retries := s.retries + 1, pause := min (2 * s.pause) longestPause }

/-- What the group service's answer means for the message. -/
def answered (s : Sending) : Answer → Verdict Sending
  | .ok () => .over (.ok ()) []
  | .error e =>
    if e.isRetryable then
      let retries := s.retries + 1
      .again s.pause (everyTime noticePeriod retries (.sendRetried s.group retries s.label)) s.next
    else .over (.error e) [.sendFailed s.group e s.label]

end Sending

/-- A group that is being joined, and how often we were turned away. -/
structure Joining where
  group : GroupName
  retries : Nat := 0
deriving DecidableEq, Repr, Inhabited

namespace Joining

/-- The pause before joining again, in milliseconds. -/
def pause : Nat := 1000

/-- The log is told at every tenth retry. -/
def noticePeriod : Nat := 10

def call (j : Joining) : TransportCall := .join j.group

def next (j : Joining) : Joining := { j with retries := j.retries + 1 }

/-- What the group service's answer means. Not to be let in at all is a failure to join. -/
def answered (j : Joining) : Answer → Verdict Joining
  | .ok () => .over (.ok ()) []
  | .error e =>
    if e.isRetryable then
      let retries := j.retries + 1
      .again pause (everyTime noticePeriod retries (.joinRetried j.group retries)) j.next
    else .over (.error (.joinFailed j.group.text e.message)) []

end Joining

/-- A call that is made until it is over. -/
class Retried (σ : Type) where
  call : σ → TransportCall
  answered : σ → Answer → Verdict σ

instance : Retried Sending := ⟨Sending.call, Sending.answered⟩

instance : Retried Joining := ⟨Joining.call, Joining.answered⟩

/-- Answers given beforehand, in order. The last one is given for ever; without any, all is as
    usual. -/
structure Script (α : Type) where
  usual : α
  answers : List α := []

/-- The next answer, and the answers after it. -/
def Script.next {α : Type} (s : Script α) : α × Script α :=
  match s.answers with
  | [] => (s.usual, s)
  | [a] => (a, s)
  | a :: rest => (a, { s with answers := rest })

/-- What came of a call that was made until it was over, in how many milliseconds. -/
structure CallRecord where
  result : Answer
  calls : List TransportCall
  elapsed : Nat
  notices : List Notice

/-- Makes a call until it is over, at most `fuel` times. Nothing comes of a call that is not over
    by then. -/
def callUntilOver {σ : Type} [Retried σ] : Nat → σ → Script Answer → Option CallRecord
  | 0, _, _ => none
  | fuel + 1, s, script =>
    let (answer, script) := script.next
    match Retried.answered s answer with
    | .over result notices =>
      some { result, calls := [Retried.call s], elapsed := 0, notices }
    | .again pause notices next =>
      (callUntilOver fuel next script).map fun r =>
        { r with
          calls := Retried.call s :: r.calls
          elapsed := pause + r.elapsed
          notices := notices ++ r.notices }

end ClusterFence
