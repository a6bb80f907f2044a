import ClusterFence.Proofs.Daemon.Handed
import ClusterFence.Proofs.Fencing.Reports

namespace ClusterFence

/-- A fencing run under way, and the histories as they were when it was started. -/
structure Mission where
  run : FencingRun
  begun : History

/-- A daemon among everything around it. What its domain has asked for so far is kept, each with
    the domain that it led to, and so is what the log was told. -/
structure Station where
  daemon : Daemon
  queue : List DaemonEvent := []
  missions : List Mission := []
  asked : List (Domain × Action) := []
  told : List Notice := []

/-- Something that happens at a station: an event comes from outside, the daemon goes on with an
    answer, or a fencing run goes on with its surroundings, its agent or an administrator. -/
inductive Move where
  | post (e : DaemonEvent)
  | daemon (now : Seconds) (answer : Answer) (snapshot : Except Error ClusterSnapshot)
  | turn (mission : Nat) (clock : Nat) (cluster : Except Error ClusterSnapshot)
  | agent (mission : Nat) (answer : AgentAnswer)
  | override (mission : Nat) (overridden : Bool)

/-- Reports come from fencing runs only. -/
def DaemonEvent.isReport : DaemonEvent → Bool
  | .fencing _ => true
  | _ => false

def DaemonEffect.notice? : DaemonEffect → Option Notice
  | .startRun _ => none
  | .notice n => some n

/-- The move brings a membership change of the group. -/
def Move.changes (group : GroupName) : Move → Bool
  | .post e => e.changes group
  | _ => false

namespace Station

/-- A daemon that has just been started. -/
def new (config : Config) (overridable : Bool) : Station :=
  { daemon := Daemon.new config overridable }

/-- Somebody takes up events. -/
def isOpen (s : Station) : Bool := s.daemon.result.isNone

/-- What the daemon goes on with, when there is what it wants. -/
def input? (s : Station) (answer : Answer) (snapshot : Except Error ClusterSnapshot) :
    Option DaemonInput :=
  match s.daemon.wants with
  | .event => s.queue.head?.map .event
  | .turn | .pause _ => some .turn
  | .answer _ | .eviction _ => some (.answered answer)
  | .snapshot => some (.snapshot snapshot)
  | .nothing => none

/-- What the domain asks for when the daemon goes on. -/
def requests (s : Station) (now : Seconds) (input : DaemonInput) : List (Domain × Action) :=
  match s.daemon.handed? input with
  | some i =>
    let r := (s.daemon.domain.step now i).1
    r.actions.map (r.domain, ·)
  | none => []

/-- The events that wait once the daemon has gone on with what it is given. -/
def waiting (s : Station) : DaemonInput → List DaemonEvent
  | .event _ => s.queue.tail
  | _ => s.queue

/-- The daemon goes on with what it is given. -/
def feed (s : Station) (now : Seconds) (input : DaemonInput) : Station :=
  let (daemon, effects) := s.daemon.step now input
  { daemon
    queue := s.waiting input
    missions :=
      s.missions ++
        (effects.filterMap DaemonEffect.run?).map ({ run := ·, begun := daemon.domain.history })
    asked := s.asked ++ s.requests now input
    told := s.told ++ effects.filterMap DaemonEffect.notice? }

/-- What a fencing run of this daemon sees. -/
def surroundings (s : Station) (cluster : Except Error ClusterSnapshot) : Surroundings where
  victims := s.daemon.domain.victims
  history := s.daemon.domain.history
  daemons := s.daemon.daemons
  cluster := cluster

/-- A fencing run goes on by `f`. Its reports wait for the daemon; a run that is over is gone. -/
def conduct (s : Station) (mission : Nat) (f : FencingRun → FencingRun × List RunEffect) :
    Station :=
  match s.missions[mission]? with
  | none => s
  | some m =>
    let (run, effects) := f m.run
    { s with
      queue := s.queue ++ (effects.filterMap RunEffect.report?).map .fencing
      missions :=
        if run.wants = .nothing then s.missions.eraseIdx mission
        else s.missions.set mission { m with run } }

/-- What a move does. One that is not possible does nothing. -/
def move (s : Station) : Move → Station
  | .post e => if e.isReport || !s.isOpen then s else { s with queue := s.queue ++ [e] }
  | .daemon now answer snapshot =>
    match s.input? answer snapshot with
    | some input => s.feed now input
    | none => s
  | .turn mission clock cluster =>
    s.conduct mission (·.turn clock (s.surroundings cluster) s.isOpen)
  | .agent mission answer => s.conduct mission (·.agentDone s.isOpen answer)
  | .override mission overridden => s.conduct mission (·.overrideDone s.isOpen overridden)

/-- A station after some moves. -/
def play (s : Station) (moves : List Move) : Station := moves.foldl move s

/-- The STARTs and COMPLETEs that the domain has asked for, by the changes they are about. -/
def starts (s : Station) : List UInt32 := Action.startSeqs (s.asked.map (·.2))

def completes (s : Station) : List UInt32 := Action.completeSeqs (s.asked.map (·.2))

section

variable (s : Station) (now : Seconds) (input : DaemonInput)

@[simp] theorem daemon_feed : (s.feed now input).daemon = (s.daemon.step now input).1 := rfl

@[simp] theorem queue_feed : (s.feed now input).queue = s.waiting input := rfl

theorem missions_feed : (s.feed now input).missions.length =
    s.missions.length + ((s.daemon.step now input).2.filterMap DaemonEffect.run?).length := by
  rw [feed, List.length_append, List.length_map]

theorem mem_told_feed {n : Notice} (h : n ∈ (s.feed now input).told) :
    n ∈ s.told ∨ .notice n ∈ (s.daemon.step now input).2 := by
  obtain h | h := List.mem_append.1 h
  · exact .inl h
  · obtain ⟨effect, heffect, hnotice⟩ := List.mem_filterMap.1 h
    cases effect with
    | startRun run => simp [DaemonEffect.notice?] at hnotice
    | notice told =>
      rw [← Option.some.inj hnotice]
      exact .inr heffect

theorem asked_feed_none (h : s.daemon.handed? input = none) :
    (s.feed now input).asked = s.asked := by
  simp [feed, requests, h]

theorem asked_feed_some {i : DomainInput} (h : s.daemon.handed? input = some i) :
    (s.feed now input).asked = s.asked ++
      (s.daemon.domain.step now i).1.actions.map ((s.daemon.domain.step now i).1.domain, ·) := by
  simp [feed, requests, h]

end

variable {s : Station}

theorem queue_of_input? {answer : Answer} {snapshot : Except Error ClusterSnapshot}
    {input : DaemonInput} (h : s.input? answer snapshot = some input) :
    (∃ e, input = .event e ∧ s.queue = e :: s.waiting input) ∨
      (∀ e, input ≠ .event e) ∧ s.waiting input = s.queue := by
  unfold input? at h
  split at h
  · obtain ⟨e, hhead, rfl⟩ := Option.map_eq_some_iff.1 h
    refine .inl ⟨e, rfl, ?_⟩
    cases hqueue : s.queue with
    | nil => simp [hqueue] at hhead
    | cons e' rest => simp_all [waiting]
  all_goals simp at h
  all_goals
    rw [← h]
    exact .inr ⟨by simp, rfl⟩

theorem countP_waiting {answer : Answer} {snapshot : Except Error ClusterSnapshot}
    {input : DaemonInput} (h : s.input? answer snapshot = some input) (group : GroupName) :
    (s.waiting input).countP (·.changes group) + (input.changes group).toNat =
      s.queue.countP (·.changes group) := by
  obtain ⟨e, rfl, hqueue⟩ | ⟨hother, hqueue⟩ := queue_of_input? h
  · rw [hqueue, List.countP_cons, DaemonInput.changes]
    cases e.changes group <;> rfl
  · rw [hqueue]
    cases input with
    | event e => exact absurd rfl (hother e)
    | _ => rfl

end Station

end ClusterFence
