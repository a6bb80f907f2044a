import ClusterFence.Proofs.Daemon.Handed

namespace ClusterFence

/-- The event of the domain group that is taken up, if it is one. -/
def DaemonEvent.domainEvent? (group : GroupName) : DaemonEvent → Option GroupEvent
  | .group name event => if name = group then some event else none
  | _ => none

/-- The event of the domain group that the daemon is given, if it is given one. -/
def DaemonInput.domainEvent? (group : GroupName) : DaemonInput → Option GroupEvent
  | .event e => e.domainEvent? group
  | _ => none

/-- The task may be done without leaving a trace. -/
def Task.isPlain : Task → Bool
  | .refresh | .evict _ | .pause _ | .send _ _ | .leave _ | .replay | .enter => true
  | .perform _ | .propose | .join _ | .quit _ => false

theorem Config.domainGroup_ne_daemon (c : Config) : c.domainGroup ≠ .daemon := by
  simp [domainGroup]

theorem DaemonGroup.run_of_running? {g : DaemonGroup} {run : Version}
    (h : g.running? = some run) : g.ours.run = run := by
  rw [running?, Option.ite_none_right_eq_some] at h
  exact Option.some.inj h.2

theorem domainEvent?_daemon (c : Config) (event : GroupEvent) :
    (DaemonInput.event (.group .daemon event)).domainEvent? c.domainGroup = none := by
  rw [DaemonInput.domainEvent?, DaemonEvent.domainEvent?, if_neg c.domainGroup_ne_daemon.symm]

namespace Daemon

/-- The daemon is given what it wants. -/
def fits (d : Daemon) (input : DaemonInput) : Bool :=
  match d.wants, input with
  | .event, .event _ | .turn, .turn | .pause _, .turn | .answer _, .answered _
  | .eviction _, .answered _ | .snapshot, .snapshot _ => true
  | _, _ => false

/-- Something happens to the domain, if it is anything to it, and what it asks for comes before all
    else. -/
def handsOver (d : Daemon) (now : Seconds) : Option DomainInput → Daemon
  | some i =>
    let r := (d.domain.step now i).1
    { d with domain := r.domain }.first (r.actions.map .perform)
  | none => d

/-- What the domain asks for when an input is handed over to it. -/
def asks (d : Daemon) (now : Seconds) : Option DomainInput → List Action
  | some i => (d.domain.step now i).1.actions
  | none => []

@[simp] theorem config_handsOver (d : Daemon) (now : Seconds) (i? : Option DomainInput) :
    (d.handsOver now i?).config = d.config := by cases i? <;> rfl

@[simp] theorem daemons_handsOver (d : Daemon) (now : Seconds) (i? : Option DomainInput) :
    (d.handsOver now i?).daemons = d.daemons := by cases i? <;> rfl

@[simp] theorem joined_handsOver (d : Daemon) (now : Seconds) (i? : Option DomainInput) :
    (d.handsOver now i?).joined = d.joined := by cases i? <;> rfl

@[simp] theorem result_handsOver (d : Daemon) (now : Seconds) (i? : Option DomainInput) :
    (d.handsOver now i?).result = d.result := by cases i? <;> rfl

@[simp] theorem backlog_handsOver (d : Daemon) (now : Seconds) (i? : Option DomainInput) :
    (d.handsOver now i?).backlog = d.backlog := by cases i? <;> rfl

@[simp] theorem agenda_handsOver (d : Daemon) (now : Seconds) (i? : Option DomainInput) :
    (d.handsOver now i?).agenda = (d.asks now i?).map .perform ++ d.agenda := by
  cases i? <;> rfl

/-- To depart changes only what is to be done, and the domain. -/
theorem depart_eq (d : Daemon) (result : Answer) : d.depart result =
    { d with
      domain := if d.joined then d.domain.setLeaving else d.domain
      agenda :=
        (if d.joined then [.leave d.config.domainGroup] else []) ++
          [.leave .daemon, .quit result] } := by
  unfold depart
  split <;> rfl

@[simp] theorem backlog_depart (d : Daemon) (result : Answer) :
    (d.depart result).backlog = d.backlog := by
  rw [depart_eq]

theorem domain_depart (d : Daemon) (result : Answer) :
    (d.depart result).domain = d.domain ∨ (d.depart result).domain = d.domain.setLeaving := by
  unfold depart
  split
  · exact .inr rfl
  · exact .inl rfl

/-- To carry out an action changes no more than what is to be done, what we announce and whether we
    are in the domain. -/
theorem perform_frame (d : Daemon) (a : Action) :
    (d.perform a).1.config = d.config ∧ (d.perform a).1.domain = d.domain ∧
      (d.perform a).1.backlog = d.backlog ∧ (d.perform a).1.result = d.result := by
  cases a <;> exact ⟨rfl, rfl, rfl, rfl⟩

theorem daemonMembership_frame (d : Daemon) (m : Membership) (now : Seconds) :
    (d.daemonMembership m now).config = d.config ∧
      (d.daemonMembership m now).joined = d.joined ∧
      (d.daemonMembership m now).backlog = d.backlog ∧
      (d.daemonMembership m now).domain = d.domain ∧
      (d.daemonMembership m now).result = d.result := by
  unfold daemonMembership
  dsimp only
  split <;> exact ⟨rfl, rfl, rfl, rfl, rfl⟩

/-- Why the agreed version cannot be run. -/
def versionError (d : Daemon) : Error :=
  .incompatibleVersion d.daemons.ours.run d.daemons.ours.max

/-- What becomes of a daemon that goes on. -/
inductive Goes (d : Daemon) (now : Seconds) : DaemonInput → Daemon → Prop
  /-- The daemon group has changed. -/
  | regroups (m) (idle : d.agenda = []) :
      Goes d now (.event (.group .daemon (.membership m))) (d.daemonMembership m now)
  /-- An offer is not refused. -/
  | hears {sender data quorate quorateTime} (o : Offer) (daemons) (verdict) (idle : d.agenda = [])
      (received :
        d.daemons.receiveOffer sender o quorate quorateTime = .ok (daemons, verdict))
      (tasks : List Task)
      (evicts : tasks = [] ∨ ∃ node, verdict = .evict node ∧ tasks = [.evict node]) :
      Goes d now (.event (.group .daemon (.deliver sender data)))
        ({ d with daemons }.first (tasks ++ [Task.propose, Task.enter]))
  /-- An event is nothing to the daemon. -/
  | overlooks (e) (idle : d.agenda = []) (other : e.domainEvent? d.config.domainGroup = none)
      (silent : ∀ report, e ≠ .fencing report) : Goes d now (.event e) d
  | refreshes (idle : d.agenda = []) : Goes d now (.event .clusterChanged) (d.first [.refresh])
  /-- An event of the domain group waits. -/
  | holds (event) (idle : d.agenda = []) (fencing : d.domain.fencing = true) :
      Goes d now (.event (.group d.config.domainGroup event))
        { d with backlog := d.backlog ++ [event] }
  | applies (event) (idle : d.agenda = []) (fencing : d.domain.fencing = false) :
      Goes d now (.event (.group d.config.domainGroup event))
        (d.handsOver now (event.input? d.daemons.running?))
  | reports (report) (idle : d.agenda = []) :
      Goes d now (.event (.fencing report))
        ((d.first [.replay]).handsOver now (some report.input))
  /-- The domain is told of a node that was fenced by other means. -/
  | tells (victim) (idle : d.agenda = []) (joined : d.joined = true) :
      Goes d now (.event (.fencedOutside victim))
        (d.first [.perform (Domain.externalAction victim)])
  | shutsDown (idle : d.agenda = []) : Goes d now (.event .shutdown) (d.depart (.ok ()))
  | performs (a rest) (input) (next : d.agenda = .perform a :: rest) :
      Goes d now input (perform { d with agenda := rest } a).1
  /-- A snapshot of the cluster has come. -/
  | catchesUp (s rest) (next : d.agenda = .refresh :: rest) :
      Goes d now (.snapshot (.ok s)) ({ d with agenda := rest }.handsOver now (some (.cluster s)))
  /-- The event that was held back longest is taken up. -/
  | replays (event backlog rest) (input) (next : d.agenda = .replay :: rest)
      (held : d.backlog = event :: backlog) (fencing : d.domain.fencing = false) :
      Goes d now input ({ d with backlog }.handsOver now (event.input? d.daemons.running?))
  | proposes (rest tasks) (input) (next : d.agenda = .propose :: rest)
      (offers : tasks = [] ∨
        ∃ o, d.daemons.propose.2 = .ok (some o) ∧ tasks = [d.offerTask o]) :
      Goes d now input
        ({ d with agenda := rest, daemons := d.daemons.propose.1 }.first tasks)
  /-- The version that is agreed on can be run. -/
  | enters (run rest) (input) (next : d.agenda = .enter :: rest) (outside : d.joined = false)
      (running : d.daemons.running? = some run)
      (runnable : run.runnableUnder d.daemons.ours.max = true) :
      Goes d now input ({ d with agenda := rest }.first [.join { group := d.config.domainGroup }])
  /-- The version that is agreed on cannot be run. -/
  | balks (run rest) (input) (next : d.agenda = .enter :: rest) (outside : d.joined = false)
      (running : d.daemons.running? = some run)
      (unrunnable : run.runnableUnder d.daemons.ours.max = false) :
      Goes d now input (d.depart (.error d.versionError))
  | resends (s purpose e rest) (next : d.agenda = .send s purpose :: rest) :
      Goes d now (.answered (.error e))
        ({ d with agenda := rest }.first [.pause s.pause, .send s.next purpose])
  | rejoins (j e rest) (next : d.agenda = .join j :: rest) :
      Goes d now (.answered (.error e))
        ({ d with agenda := rest }.first [.pause Joining.pause, .join j.next])
  | joins (j rest) (next : d.agenda = .join j :: rest) :
      Goes d now (.answered (.ok ()))
        { d with agenda := rest, joined := d.joined || j.group != .daemon }
  /-- We are not let into the daemon group. -/
  | shutOut (j e rest) (next : d.agenda = .join j :: rest) (group : j.group = .daemon) :
      Goes d now (.answered (.error e))
        { d with
          agenda := rest
          result := some (.error (.joinFailed j.group.text e.message)) }
  /-- We are not let into the domain group. -/
  | turnedAway (j e rest) (next : d.agenda = .join j :: rest) (group : j.group ≠ .daemon) :
      Goes d now (.answered (.error e))
        (d.depart (.error (.joinFailed j.group.text e.message)))
  | quits (result rest) (input) (next : d.agenda = .quit result :: rest) :
      Goes d now input { d with agenda := rest, result := some result }
  /-- What was to be done is done, or there is nothing to it. -/
  | passes (task rest) (input) (next : d.agenda = task :: rest)
      (plain : task.isPlain = true)
      (nothingHeld : task = .replay → d.backlog = [] ∨ d.domain.fencing = true)
      (nowhere : task = .enter → d.joined = true ∨ d.daemons.running? = none) :
      Goes d now input { d with agenda := rest }

section

variable {d : Daemon} {now : Seconds} {input : DaemonInput}

theorem wants_of_agenda_nil (h : d.agenda = []) : d.wants = .event ∨ d.wants = .nothing := by
  unfold wants
  rw [h]
  cases d.result <;> simp

/-- To an event of the domain group the domain reacts as to what it brings. -/
theorem domainEvent_fst (d : Daemon) (now : Seconds) (event : GroupEvent) :
    (d.domainEvent now event).1 = d.handsOver now (event.input? d.daemons.running?) := by
  cases event with
  | membership m =>
    simp only [domainEvent, GroupEvent.input?, handsOver, Domain.step]
    split
    · rename_i r hr
      rw [hr]
      rfl
    · rename_i r e hr
      rw [hr, actions_of_refused hr]
      rfl
  | ring node seq => rfl
  | deliver sender data =>
    simp only [domainEvent, GroupEvent.input?]
    cases Envelope.decode data sender d.daemons.running? <;> rfl

theorem isOpen_of_fits (h : d.fits input = true) : d.result.isSome = false := by
  by_contra hover
  rw [Bool.not_eq_false] at hover
  simp [fits, wants, hover] at h

/-- While something is left to be done the daemon is given no event. -/
theorem not_event_of_fits {task : Task} {rest : List Task} (h : d.fits input = true)
    (next : d.agenda = task :: rest) (e : DaemonEvent) : input ≠ .event e := by
  rintro rfl
  have hopen := isOpen_of_fits h
  cases task <;> simp [fits, wants, hopen, next] at h

theorem goes_daemonEvent (idle : d.agenda = []) (event : GroupEvent) :
    d.Goes now (.event (.group .daemon event)) (d.daemonEvent now event).1 := by
  have hoverlooks : d.Goes now (.event (.group .daemon event)) d := by
    exact .overlooks _ idle (domainEvent?_daemon d.config event) (by simp)
  cases event with
  | membership m => exact .regroups m idle
  | ring node seq => exact hoverlooks
  | deliver sender data =>
    simp only [daemonEvent, receiveDaemonMessage]
    split
    · exact hoverlooks
    · split
      · simp only [receiveOffer]
        split
        · exact hoverlooks
        · rename_i daemons hreceived
          exact .hears _ daemons _ idle hreceived [] (.inl rfl)
        · rename_i daemons node hreceived
          exact .hears _ daemons _ idle hreceived [.evict node] (.inr ⟨node, rfl, rfl⟩)
      · exact hoverlooks

theorem goes_event (idle : d.agenda = []) (e : DaemonEvent) :
    d.Goes now (.event e) (d.receive now e).1 := by
  cases e with
  | group name event =>
    simp only [receive]
    split
    · rename_i hname
      rw [beq_iff_eq] at hname
      exact hname ▸ goes_daemonEvent idle event
    split
    · rename_i hname
      rw [beq_iff_eq] at hname
      subst hname
      cases hfencing : d.domain.fencing with
      | true => exact .holds event idle hfencing
      | false =>
        rw [if_neg Bool.false_ne_true, domainEvent_fst]
        exact .applies event idle hfencing
    · rename_i hname
      rw [beq_iff_eq] at hname
      exact .overlooks _ idle (if_neg hname) (by simp)
  | clusterChanged => exact .refreshes idle
  | fencing report =>
    have hreports : d.Goes now (.event (.fencing report)) _ := .reports report idle
    cases report <;> exact hreports
  | fencedOutside victim =>
    simp only [receive]
    split
    · exact .tells victim idle ‹_›
    · exact .overlooks _ idle rfl (by simp)
  | shutdown => exact .shutsDown idle

theorem goes_propose {rest : List Task} (next : d.agenda = .propose :: rest) :
    d.Goes now input (propose { d with agenda := rest }).1 := by
  have hgoes (tasks : List Task)
      (hoffers : tasks = [] ∨ ∃ o, d.daemons.propose.2 = .ok (some o) ∧ tasks = [d.offerTask o]) :
      d.Goes now input ({ d with agenda := rest, daemons := d.daemons.propose.1 }.first tasks) :=
    .proposes rest tasks input next hoffers
  unfold propose
  dsimp only
  split <;> rename_i hpropose <;> rw [hpropose] at hgoes
  · exact hgoes [] (.inl rfl)
  · exact hgoes _ (.inr ⟨_, rfl, rfl⟩)
  · exact hgoes [] (.inl rfl)

theorem goes_enter {rest : List Task} (next : d.agenda = .enter :: rest) :
    d.Goes now input (enter { d with agenda := rest }).1 := by
  have hpasses (hnowhere : d.joined = true ∨ d.daemons.running? = none) :
      d.Goes now input { d with agenda := rest } :=
    .passes _ rest input next rfl (by simp) fun _ => hnowhere
  unfold enter
  split
  · rename_i run houtside hrunning
    have hrun := DaemonGroup.run_of_running? hrunning
    cases hrunnable : run.runnableUnder d.daemons.ours.max with
    | true =>
      have hcheck : d.daemons.checkRunnable = .ok () := by
        rw [DaemonGroup.checkRunnable, hrun, if_pos hrunnable]
      rw [hcheck]
      exact .enters run rest input next houtside hrunning hrunnable
    | false =>
      have hcheck : d.daemons.checkRunnable = .error d.versionError := by
        rw [DaemonGroup.checkRunnable, hrun, hrunnable, versionError, hrun]
        rfl
      rw [hcheck]
      have hdepart : d.depart (.error d.versionError) =
          (fail { d with agenda := rest } d.versionError).1 := by
        rw [fail, versionError, Error.isFatal, if_pos rfl]
        rfl
      exact hdepart ▸ .balks run rest input next houtside hrunning hrunnable
  · rename_i hnot
    refine hpasses ?_
    cases hjoined : d.joined with
    | true => exact .inl rfl
    | false =>
      exact .inr (Option.eq_none_iff_forall_ne_some.2 fun run hrun => hnot run hjoined hrun)

theorem goes_replay {rest : List Task} (next : d.agenda = .replay :: rest) :
    d.Goes now input (replay { d with agenda := rest } now).1 := by
  have hpasses (hnothing : d.backlog = [] ∨ d.domain.fencing = true) :
      d.Goes now input { d with agenda := rest } :=
    .passes _ rest input next rfl (fun _ => hnothing) (by simp)
  unfold replay
  split
  · rename_i event backlog hheld
    split
    · exact hpasses (.inr ‹_›)
    · rename_i hfencing
      rw [Bool.not_eq_true] at hfencing
      have hgoes : d.Goes now input _ := .replays event backlog rest input next hheld hfencing
      rw [domainEvent_fst]
      rwa [show ({ d with backlog } : Daemon) = first { d with agenda := rest, backlog } [.replay]
        by rw [first, List.singleton_append, ← next]] at hgoes
  · exact hpasses (.inl ‹_›)

theorem goes_sendAnswered {s : Sending} {purpose : Purpose} {rest : List Task}
    (next : d.agenda = .send s purpose :: rest) (a : Answer) :
    d.Goes now (.answered a) (sendAnswered { d with agenda := rest } s purpose a).1 := by
  have hpasses : d.Goes now (.answered a) { d with agenda := rest } :=
    .passes _ rest _ next rfl (by simp) (by simp)
  cases a with
  | ok => exact hpasses
  | error e =>
    unfold sendAnswered
    rw [Sending.answered]
    dsimp only
    cases e.isRetryable with
    | true => exact .resends s purpose e rest next
    | false => exact hpasses

theorem goes_joinAnswered {j : Joining} {rest : List Task} (next : d.agenda = .join j :: rest)
    (a : Answer) : d.Goes now (.answered a) (joinAnswered { d with agenda := rest } j a).1 := by
  cases a with
  | ok => exact .joins j rest next
  | error e =>
    unfold joinAnswered
    rw [Joining.answered]
    dsimp only
    cases e.isRetryable with
    | true => exact .rejoins j e rest next
    | false =>
      simp only [Bool.false_eq_true, if_false]
      split
      · rename_i hgroup
        rw [beq_iff_eq] at hgroup
        exact .shutOut j e rest next hgroup
      · rename_i hgroup
        rw [beq_iff_eq] at hgroup
        exact .turnedAway j e rest next hgroup

/-- Every step is one of these. -/
theorem goes_step (h : d.fits input = true) (now : Seconds) :
    d.Goes now input (d.step now input).1 := by
  cases hagenda : d.agenda with
  | nil =>
    cases input with
    | event e =>
      simp only [step, hagenda]
      exact goes_event hagenda e
    | turn | answered a | snapshot s =>
      unfold fits at h
      obtain hwants | hwants := wants_of_agenda_nil hagenda <;> rw [hwants] at h <;> cases h
  | cons task rest =>
    have hstep : d.step now input = proceed { d with agenda := rest } now task input := by
      simp [step, hagenda]
    have hpasses (hplain : task.isPlain = true) (hreplay : task ≠ .replay)
        (henter : task ≠ .enter) : d.Goes now input { d with agenda := rest } :=
      .passes task rest input hagenda hplain (absurd · hreplay) (absurd · henter)
    rw [hstep]
    have hopen := isOpen_of_fits h
    cases task with
    | perform a => exact .performs a rest input hagenda
    | propose => exact goes_propose hagenda
    | enter => exact goes_enter hagenda
    | replay => exact goes_replay hagenda
    | quit result => exact .quits result rest input hagenda
    | pause millis => exact hpasses rfl (by simp) (by simp)
    | refresh =>
      cases input with
      | snapshot s =>
        cases s with
        | ok s => exact .catchesUp s rest hagenda
        | error e => exact hpasses rfl (by simp) (by simp)
      | _ => simp [fits, wants, hopen, hagenda] at h
    | evict node =>
      cases input with
      | answered a => exact hpasses rfl (by simp) (by simp)
      | _ => simp [fits, wants, hopen, hagenda] at h
    | leave group =>
      cases input with
      | answered a => exact hpasses rfl (by simp) (by simp)
      | _ => simp [fits, wants, hopen, hagenda] at h
    | send s purpose =>
      cases input with
      | answered a => exact goes_sendAnswered hagenda a
      | _ => simp [fits, wants, hopen, hagenda] at h
    | join j =>
      cases input with
      | answered a => exact goes_joinAnswered hagenda a
      | _ => simp [fits, wants, hopen, hagenda] at h

end

end Daemon

end ClusterFence
