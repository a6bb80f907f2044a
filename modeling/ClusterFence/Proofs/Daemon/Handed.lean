import ClusterFence.Proofs.Daemon.Quiet

namespace ClusterFence

/-- What a report of a fencing run is to the domain. -/
def FencingReport.input : FencingReport → DomainInput
  | .attempt victim => .attempted victim
  | .resolved victim how reduced => .resolved victim how reduced
  | .finished => .finished

/-- What an event of the domain group is to the domain, under the version that is running. A message
    that cannot be read is nothing to it. -/
def GroupEvent.input? (running : Option Version) : GroupEvent → Option DomainInput
  | .membership m => some (.membership m)
  | .ring node seq => some (.ring node seq)
  | .deliver sender data =>
    match Envelope.decode data sender running with
    | .ok e => some (.message e)
    | .error _ => none

def GroupEvent.isMembership : GroupEvent → Bool
  | .membership _ => true
  | _ => false

/-- The event is a membership change of the group. -/
def DaemonEvent.changes (group : GroupName) : DaemonEvent → Bool
  | .group name event => name == group && event.isMembership
  | _ => false

def DaemonInput.changes (group : GroupName) : DaemonInput → Bool
  | .event e => e.changes group
  | _ => false

theorem GroupEvent.isMembership_input? {running : Option Version} {event : GroupEvent}
    {i : DomainInput} (h : event.input? running = some i) :
    i.isMembership = event.isMembership := by
  cases event with
  | membership m =>
    simp only [input?, Option.some.injEq] at h
    rw [← h]
    rfl
  | ring node seq =>
    simp only [input?, Option.some.injEq] at h
    rw [← h]
    rfl
  | deliver sender data =>
    simp only [input?] at h
    split at h
    · simp only [Option.some.injEq] at h
      rw [← h]
      rfl
    · simp at h

namespace Daemon

/-- What the daemon hands to the domain when it goes on with what it is given. -/
def handed? (d : Daemon) (input : DaemonInput) : Option DomainInput :=
  match d.agenda, input with
  | [], .event (.group name event) =>
    if name = .daemon ∨ name ≠ d.config.domainGroup ∨ d.domain.fencing = true then none
    else event.input? d.daemons.running?
  | [], .event (.fencing report) => some report.input
  | .refresh :: _, .snapshot (.ok s) => some (.cluster s)
  | .replay :: _, _ =>
    match d.backlog with
    | event :: _ => if d.domain.fencing then none else event.input? d.daemons.running?
    | [] => none
  | _, _ => none

/-- The membership changes that are held back. -/
def changesHeld (d : Daemon) : Nat := d.backlog.countP GroupEvent.isMembership

section

variable {d d' : Daemon}

/-- A step in which something happens to the domain, and what it asks for is still to be done. -/
structure Hands (d : Daemon) (r : Reaction) (s : DaemonStep) : Prop where
  domain : s.1.domain = r.domain
  config : s.1.config = d.config
  backlog : s.1.backlog = d.backlog
  runs : s.1.runsDue + (s.2.filterMap DaemonEffect.run?).length =
    d.runsDue + r.actions.countP Action.startsRun
  notices : ∀ n, .notice n ∈ s.2 → n ∈ r.notices ∨ ¬ n.OutOfTurn

theorem hands_reacted (d : Daemon) (r : Reaction) : d.Hands r (d.reacted r) where
  domain := rfl
  config := rfl
  backlog := rfl
  runs := by
    have hruns : (r.actions.map Task.perform).countP Task.startsRun =
        r.actions.countP Action.startsRun := by
      rw [List.countP_map]
      rfl
    simp only [reacted, tell, filterMap_run?_notice, List.length_nil, runsDue, first,
      List.countP_append, hruns]
    omega
  notices n hn := by
    simp only [reacted, tell, List.mem_map, DaemonEffect.notice.injEq] at hn
    obtain ⟨_, hn, rfl⟩ := hn
    exact .inl hn

/-- A membership change that is refused asks for nothing. -/
theorem actions_of_refused {domain : Domain} {m : Membership} {now : Seconds} {r : Reaction}
    {e : Error} (h : domain.changeMembers m now = (r, some e)) : r.actions = [] := by
  unfold Domain.changeMembers at h
  split at h
  · simp at h
  · dsimp only at h
    split at h
    · rw [← (Prod.mk.inj h).1]
    · simp at h

/-- An event of the domain group is handed to the domain when it can be read. -/
theorem hands_domainEvent {now : Seconds} {event : GroupEvent} {i : DomainInput}
    (h : event.input? d.daemons.running? = some i) :
    d.Hands (d.domain.step now i).1 (d.domainEvent now event) := by
  cases event with
  | membership m =>
    simp only [GroupEvent.input?, Option.some.injEq] at h
    subst h
    simp only [domainEvent, Domain.step]
    split
    · rename_i r hr
      rw [hr]
      exact d.hands_reacted r
    · rename_i r e hr
      rw [hr]
      refine ⟨rfl, rfl, rfl, ?_, ?_⟩
      · simp [tell, actions_of_refused hr, runsDue, DaemonEffect.run?]
      · intro n hn
        simp only [tell, List.mem_map, DaemonEffect.notice.injEq] at hn
        obtain ⟨_, hn, rfl⟩ := hn
        obtain hn | hn := List.mem_append.1 hn
        · exact .inl hn
        · rw [List.mem_singleton.1 hn]
          exact .inr id
  | ring node seq =>
    simp only [GroupEvent.input?, Option.some.injEq] at h
    subst h
    exact d.hands_reacted _
  | deliver sender data =>
    simp only [GroupEvent.input?] at h
    split at h
    · rename_i e he
      simp only [Option.some.injEq] at h
      subst h
      simp only [domainEvent, he]
      exact d.hands_reacted _
    · simp at h

theorem quiet_domainEvent {now : Seconds} {event : GroupEvent}
    (h : event.input? d.daemons.running? = none) : d.Quiet (d.domainEvent now event) := by
  cases event with
  | membership m => simp [GroupEvent.input?] at h
  | ring node seq => simp [GroupEvent.input?] at h
  | deliver sender data =>
    simp only [GroupEvent.input?] at h
    split at h
    · simp at h
    · rename_i e he
      simp only [domainEvent, he]
      exact .of_tell (.inl rfl) rfl rfl (Nat.le_refl _) (by simp [Notice.OutOfTurn])

/-- What a step of the daemon does: it hands an input to the domain, or leaves its changes alone.
    It accounts for every run that is due and for every membership change that is held back. -/
structure Steps (d : Daemon) (now : Seconds) (input : DaemonInput) (s : DaemonStep) : Prop where
  config : s.1.config = d.config
  handed : ∀ i, d.handed? input = some i →
    s.1.domain = (d.domain.step now i).1.domain ∧
    s.1.runsDue + (s.2.filterMap DaemonEffect.run?).length =
      d.runsDue + (d.domain.step now i).1.actions.countP Action.startsRun ∧
    (∀ n, .notice n ∈ s.2 → n ∈ (d.domain.step now i).1.notices ∨ ¬ n.OutOfTurn) ∧
    s.1.changesHeld + i.isMembership.toNat ≤
      d.changesHeld + (input.changes d.config.domainGroup).toNat
  kept : d.handed? input = none →
    (s.1.domain = d.domain ∨ s.1.domain = d.domain.setLeaving) ∧
    s.1.runsDue + (s.2.filterMap DaemonEffect.run?).length ≤ d.runsDue ∧
    (∀ n, .notice n ∈ s.2 → ¬ n.OutOfTurn) ∧
    s.1.changesHeld ≤ d.changesHeld + (input.changes d.config.domainGroup).toNat

variable {now : Seconds} {input : DaemonInput} {s : DaemonStep}

theorem Steps.of_quiet (h : d'.Quiet s) (hhanded : d.handed? input = none)
    (hdomain : d'.domain = d.domain) (hconfig : d'.config = d.config)
    (hbacklog : d'.changesHeld ≤ d.changesHeld + (input.changes d.config.domainGroup).toNat)
    (hruns : d'.runsDue ≤ d.runsDue) : d.Steps now input s where
  config := h.config.trans hconfig
  handed i hi := by simp [hhanded] at hi
  kept _ := by
    refine ⟨hdomain ▸ h.domain, Nat.le_trans h.runs hruns, h.notices, ?_⟩
    rw [changesHeld, h.backlog]
    exact hbacklog

theorem Steps.of_same (h : d.Quiet s) (hhanded : d.handed? input = none) : d.Steps now input s :=
  .of_quiet h hhanded rfl rfl (Nat.le_add_right _ _) (Nat.le_refl _)

theorem Steps.of_hands {i : DomainInput} (h : d'.Hands (d.domain.step now i).1 s)
    (hhanded : d.handed? input = some i) (hconfig : d'.config = d.config)
    (hruns : d'.runsDue = d.runsDue)
    (hbacklog : d'.changesHeld + i.isMembership.toNat ≤
      d.changesHeld + (input.changes d.config.domainGroup).toNat) : d.Steps now input s where
  config := h.config.trans hconfig
  handed i' hi' := by
    rw [hhanded, Option.some.injEq] at hi'
    subst hi'
    refine ⟨h.domain, hruns ▸ h.runs, h.notices, ?_⟩
    rw [changesHeld, h.backlog]
    exact hbacklog
  kept hnone := by simp [hhanded] at hnone

/-- The next thing to do, unless it is to start a run, is quiet when the daemon without it is. -/
theorem Steps.of_rest {task : Task} {rest : List Task} (hagenda : d.agenda = task :: rest)
    (h : Quiet { d with agenda := rest } s) (hhanded : d.handed? input = none) :
    d.Steps now input s := by
  refine .of_quiet h hhanded rfl rfl (Nat.le_add_right _ _) ?_
  show rest.countP Task.startsRun ≤ d.agenda.countP Task.startsRun
  rw [hagenda, List.countP_cons]
  exact Nat.le_add_right _ _

/-- While fencing is outstanding, an event of the domain group waits. -/
theorem steps_heldBack {event : GroupEvent} (hagenda : d.agenda = [])
    (hfencing : d.domain.fencing = true) :
    d.Steps now (.event (.group d.config.domainGroup event))
      ({ d with backlog := d.backlog ++ [event] }, []) := by
  have hheld : d.Quiet (d, []) := .of_eq (.inl rfl) rfl rfl (Nat.le_refl _)
  refine ⟨rfl, fun i hi => ?_, fun _ => ⟨.inl rfl, hheld.runs, hheld.notices, ?_⟩⟩
  · simp [handed?, hagenda, hfencing] at hi
  · simp only [changesHeld, DaemonInput.changes, DaemonEvent.changes, List.countP_append,
      List.countP_singleton, beq_self_eq_true, Bool.true_and]
    cases event.isMembership <;> simp

theorem steps_groupEvent (name : GroupName) (event : GroupEvent) (hagenda : d.agenda = []) :
    d.Steps now (.event (.group name event)) (d.receive now (.group name event)) := by
  simp only [receive]
  split
  · have hname : name = .daemon := by simp_all
    refine .of_same (d.quiet_daemonEvent now event) ?_
    simp [handed?, hagenda, hname]
  split
  · rename_i hdaemon hname
    rw [beq_iff_eq] at hdaemon hname
    subst hname
    cases hfencing : d.domain.fencing with
    | true => exact steps_heldBack hagenda hfencing
    | false =>
      have hhanded : d.handed? (.event (.group d.config.domainGroup event)) =
          event.input? d.daemons.running? := by
        simp [handed?, hagenda, hdaemon, hfencing]
      cases hinput : event.input? d.daemons.running? with
      | none => exact .of_same (quiet_domainEvent hinput) (hhanded.trans hinput)
      | some i =>
        refine .of_hands (hands_domainEvent hinput) (hhanded.trans hinput) rfl rfl ?_
        simp [DaemonInput.changes, DaemonEvent.changes, GroupEvent.isMembership_input? hinput]
  · rename_i hname
    rw [beq_iff_eq] at hname
    refine .of_same (.of_eq (.inl rfl) rfl rfl (Nat.le_refl _)) ?_
    simp [handed?, hagenda, hname]

theorem steps_event (d : Daemon) (now : Seconds) (e : DaemonEvent) (hagenda : d.agenda = []) :
    d.Steps now (.event e) (d.receive now e) := by
  cases e with
  | group name event => exact steps_groupEvent name event hagenda
  | clusterChanged =>
    refine .of_same (.of_eq (.inl rfl) rfl rfl (Nat.le_of_eq (runsDue_first rfl))) ?_
    simp [handed?, hagenda]
  | fencing report =>
    have hhanded : d.handed? (.event (.fencing report)) = some report.input := by
      simp [handed?, hagenda]
    have hhands : (d.first [.replay]).Hands (d.domain.step now report.input).1
        (d.fencingReport now report) := by
      cases report with
      | attempt victim => exact ⟨rfl, rfl, rfl, by rfl, by simp [fencingReport]⟩
      | resolved victim how reduced => exact hands_reacted _ _
      | finished => exact hands_reacted _ _
    refine .of_hands hhands hhanded rfl (runsDue_first rfl) ?_
    cases report <;> exact Nat.le_refl _
  | fencedOutside victim =>
    have hhanded : d.handed? (.event (.fencedOutside victim)) = none := by
      simp [handed?, hagenda]
    simp only [receive]
    split
    · exact .of_same (.of_eq (.inl rfl) rfl rfl (Nat.le_of_eq (runsDue_first rfl))) hhanded
    · exact .of_same (.of_tell (.inl rfl) rfl rfl (Nat.le_refl _) (by simp [Notice.OutOfTurn]))
        hhanded
  | shutdown =>
    have hdepart := d.quiet_depart (.ok ())
    refine .of_same (.of_tell hdepart.domain hdepart.config hdepart.backlog
      (Nat.le_trans (Nat.le_add_right _ _) hdepart.runs) (by simp [Notice.OutOfTurn])) ?_
    simp [handed?, hagenda]

theorem steps_replay {rest : List Task} (hagenda : d.agenda = .replay :: rest) :
    d.Steps now input (replay { d with agenda := rest } now) := by
  cases hbacklog : d.backlog with
  | nil =>
    have hhanded : d.handed? input = none := by simp [handed?, hagenda, hbacklog]
    simp only [replay]
    exact .of_rest hagenda (.of_eq (.inl rfl) rfl hbacklog.symm (Nat.le_refl _)) hhanded
  | cons event backlog =>
    cases hfencing : d.domain.fencing with
    | true =>
      have hhanded : d.handed? input = none := by simp [handed?, hagenda, hbacklog, hfencing]
      simp only [replay, hfencing, if_true]
      exact .of_rest hagenda (.of_eq (.inl rfl) rfl hbacklog.symm (Nat.le_refl _)) hhanded
    | false =>
      let resumed : Daemon := { d with agenda := .replay :: rest, backlog := backlog }
      have hreplay : replay { d with agenda := rest } now = resumed.domainEvent now event := by
        simp only [replay, hbacklog, hfencing, Bool.false_eq_true, if_false]
        rfl
      have hhanded : d.handed? input = event.input? resumed.daemons.running? := by
        simp [handed?, hagenda, hbacklog, hfencing, resumed]
      have hruns : resumed.runsDue = d.runsDue := by simp [runsDue, hagenda, resumed]
      have hheld : resumed.changesHeld + event.isMembership.toNat = d.changesHeld := by
        simp only [changesHeld, hbacklog, List.countP_cons, resumed]
        cases event.isMembership <;> rfl
      rw [← hbacklog, hreplay]
      cases hinput : event.input? resumed.daemons.running? with
      | none =>
        refine .of_quiet (quiet_domainEvent hinput) (hhanded.trans hinput) rfl rfl ?_
          (Nat.le_of_eq hruns)
        omega
      | some i =>
        have hhands : resumed.Hands (d.domain.step now i).1 (resumed.domainEvent now event) :=
          hands_domainEvent hinput
        refine .of_hands hhands (hhanded.trans hinput) rfl hruns ?_
        rw [GroupEvent.isMembership_input? hinput]
        omega

theorem steps_perform {a : Action} {rest : List Task} (hagenda : d.agenda = .perform a :: rest) :
    d.Steps now input (perform { d with agenda := rest } a) := by
  have hhanded : d.handed? input = none := by simp [handed?, hagenda]
  cases a with
  | startFencing nodesJoined =>
    refine ⟨rfl, fun i hi => by simp [hhanded] at hi, fun _ => ⟨.inl rfl, ?_, ?_, ?_⟩⟩
    · simp [perform, runsDue, hagenda, DaemonEffect.run?, List.countP_cons, Task.startsRun,
        Action.startsRun]
    · simp [perform]
    · exact Nat.le_add_right _ _
  | send flags message =>
    exact .of_rest hagenda (.of_eq (.inl rfl) rfl rfl (Nat.le_of_eq (runsDue_first rfl))) hhanded
  | evict node =>
    exact .of_rest hagenda (.of_eq (.inl rfl) rfl rfl (Nat.le_of_eq (runsDue_first rfl))) hhanded
  | setStateful => exact .of_rest hagenda (.of_eq (.inl rfl) rfl rfl (Nat.le_refl _)) hhanded
  | left =>
    exact .of_rest hagenda
      (.of_tell (.inl rfl) rfl rfl (Nat.le_refl _) (by simp [Notice.OutOfTurn])) hhanded

theorem steps_refresh {rest : List Task} (hagenda : d.agenda = .refresh :: rest)
    (snapshot : Except Error ClusterSnapshot) :
    d.Steps now (.snapshot snapshot)
      (proceed { d with agenda := rest } now .refresh (.snapshot snapshot)) := by
  cases snapshot with
  | ok s =>
    have hhanded : d.handed? (.snapshot (.ok s)) = some (.cluster s) := by
      simp [handed?, hagenda]
    have hhands := hands_reacted { d with agenda := rest } (d.domain.step now (.cluster s)).1
    refine .of_hands hhands hhanded rfl ?_ (Nat.le_add_right _ _)
    simp [runsDue, hagenda, Task.startsRun]
  | error e =>
    exact .of_rest hagenda
      (.of_tell (.inl rfl) rfl rfl (Nat.le_refl _) (by simp [Notice.OutOfTurn]))
      (by simp [handed?, hagenda])

/-- Every step of a daemon hands its domain at most the one input that is due. -/
theorem steps_step (d : Daemon) (now : Seconds) (input : DaemonInput) :
    d.Steps now input (d.step now input) := by
  cases hagenda : d.agenda with
  | nil =>
    cases input with
    | event e =>
      simp only [step, hagenda]
      exact d.steps_event now e hagenda
    | turn | answered a | snapshot s =>
      simp only [step, hagenda]
      refine .of_same (.of_eq (.inl rfl) rfl rfl (Nat.le_refl _)) ?_
      simp [handed?, hagenda]
  | cons task rest =>
    have hstep : d.step now input = proceed { d with agenda := rest } now task input := by
      simp [step, hagenda]
    rw [hstep]
    have hidle (hhanded : d.handed? input = none) :
        d.Steps now input ({ d with agenda := rest }, []) :=
      .of_rest hagenda (.of_eq (.inl rfl) rfl rfl (Nat.le_refl _)) hhanded
    cases task with
    | perform a => exact steps_perform hagenda
    | replay => exact steps_replay hagenda
    | propose => exact .of_rest hagenda (quiet_propose _) (by simp [handed?, hagenda])
    | enter => exact .of_rest hagenda (quiet_enter _) (by simp [handed?, hagenda])
    | quit result =>
      exact .of_rest hagenda (.of_eq (.inl rfl) rfl rfl (Nat.le_refl _))
        (by simp [handed?, hagenda])
    | pause millis => exact hidle (by simp [handed?, hagenda])
    | refresh =>
      cases input with
      | snapshot s => exact steps_refresh hagenda s
      | _ => exact hidle (by simp [handed?, hagenda])
    | evict node | send s purpose | join j | leave group =>
      have hhanded : d.handed? input = none := by simp [handed?, hagenda]
      cases input with
      | answered a =>
        refine .of_rest hagenda ?_ hhanded
        first
        | exact quiet_sendAnswered _ _ _ _
        | exact quiet_joinAnswered _ _ _
        | cases a <;>
            exact .of_tell (.inl rfl) rfl rfl (Nat.le_refl _)
              (by simp [complaint, Notice.OutOfTurn])
      | _ => exact hidle hhanded

end

end Daemon

end ClusterFence
