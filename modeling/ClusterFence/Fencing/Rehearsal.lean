import ClusterFence.Domain.Input
import ClusterFence.Fencing.Run
import ClusterFence.Transport.Retry

namespace ClusterFence

/-- How an administrator answers: after some time with yes, after some time with a failure, or
    not at all. -/
inductive OverrideReply where
  | yes (after : Nat)
  | failure (after : Nat)
  | silence
deriving DecidableEq, Repr, Inhabited

namespace OverrideReply

/-- How long a wait takes. -/
def duration (wait : Nat) : OverrideReply → Nat
  | .yes after => if after < wait then after else wait
  | .failure after => after
  | .silence => wait

/-- The victim is overridden by a yes that comes in time. -/
def overrides (wait : Nat) : OverrideReply → Bool
  | .yes after => after < wait
  | _ => false

end OverrideReply

/-- What is around a fencing run. -/
structure Setting where
  loop : Loopback
  daemons : DaemonGroup
  cluster : Except Error ClusterSnapshot

def Setting.seen (s : Setting) : Surroundings where
  victims := s.loop.domain.victims
  history := s.loop.domain.history
  daemons := s.daemons
  cluster := s.cluster

/-- A fencing run in its setting. The timetable lists changes of the setting by time. What the run
    hands out is kept with the time, latest first. -/
structure Rehearsal where
  run : FencingRun
  setting : Setting
  listening : Bool := true
  clock : Nat := 0
  due : Nat := 0
  agents : Script AgentAnswer := { usual := .done {} }
  replies : Script OverrideReply := { usual := .silence }
  timetable : List (Nat × (Setting → Setting)) := []
  effects : List (Nat × RunEffect) := []

namespace Rehearsal

/-- The run has come a step further: what it hands out is kept, and what it waits for comes at its
    time. -/
def moved (x : Rehearsal) (step : FencingRun × List RunEffect) : Rehearsal :=
  let (run, effects) := step
  let x := { x with run, effects := (effects.map (x.clock, ·)).reverse ++ x.effects }
  match run.wants with
  | .pause millis => { x with due := x.clock + millis }
  | .answer _ wait => { x with due := x.clock + x.replies.next.1.duration wait }
  | _ => x

/-- What the run waits for has come. -/
def wake (x : Rehearsal) : Rehearsal :=
  let x := { x with clock := max x.clock x.due }
  match x.run.wants with
  | .answer _ wait =>
    let (reply, replies) := x.replies.next
    { x with replies }.moved (x.run.overrideDone x.listening (reply.overrides wait))
  | _ => x.moved (x.run.turn x.clock x.setting.seen x.listening)

/-- Goes on until the run is over, or until time `stop`. Time stands still while the run can go
    on. -/
def play (stop : Nat) : Nat → Rehearsal → Rehearsal
  | 0, x => x
  | fuel + 1, x =>
    match x.run.wants with
    | .nothing => x
    | .turn => play stop fuel (x.moved (x.run.turn x.clock x.setting.seen x.listening))
    | .agent _ =>
      let (answer, agents) := x.agents.next
      play stop fuel ({ x with agents }.moved (x.run.agentDone x.listening answer))
    | _ =>
      match x.timetable with
      | (time, change) :: later =>
        if time < x.due && time < stop then
          play stop fuel
            { x with clock := time, setting := change x.setting, timetable := later }
        else if x.due < stop then play stop fuel x.wake
        else { x with clock := stop }
      | [] => if x.due < stop then play stop fuel x.wake else { x with clock := stop }

/-- How the run ended; one that was stopped did not. -/
def result? (x : Rehearsal) : Option Answer :=
  match x.run.stage with
  | .over result => some result
  | _ => none

end Rehearsal

end ClusterFence
