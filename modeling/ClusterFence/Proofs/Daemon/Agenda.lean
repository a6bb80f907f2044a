import ClusterFence.Proofs.Daemon.Handed

namespace ClusterFence

/-- The action that a task is to carry out. -/
def Task.action? : Task → Option Action
  | .perform a => some a
  | _ => none

/-- The task waits until there is no action left: it may hand the domain something, or stop the
    daemon. -/
def Task.waits : Task → Bool
  | .perform _ | .evict _ | .pause _ | .send _ _ => false
  | _ => true

namespace Daemon

/-- The actions that are still to be carried out. -/
def toPerform (d : Daemon) : List Action := d.agenda.filterMap Task.action?

/-- The action that is carried out next. -/
def carried? (d : Daemon) : Option Action := d.agenda.head?.bind Task.action?

/-- Nothing is carried out after a task that waits. -/
def Arranged (d : Daemon) : Prop :=
  d.agenda.Pairwise fun task later => task.waits = true → later.action? = none

section

variable {d d' : Daemon}

theorem runsDue_eq_countP (d : Daemon) : d.runsDue = d.toPerform.countP Action.startsRun := by
  unfold runsDue toPerform
  induction d.agenda with
  | nil => rfl
  | cons task rest ih =>
    cases task with
    | perform a =>
      simp only [List.countP_cons, List.filterMap_cons, Task.action?, ih]
      rfl
    | _ => rw [List.countP_cons_of_neg (by simp [Task.startsRun]), List.filterMap_cons_none rfl, ih]

theorem arranged_of_toPerform_nil (h : d.toPerform = []) : d.Arranged := by
  unfold toPerform at h
  rw [List.filterMap_eq_nil_iff] at h
  unfold Arranged
  apply List.pairwise_of_forall_mem_list
  intro _ _ later hlater _
  exact h later hlater

@[simp] theorem toPerform_first (d : Daemon) (tasks : List Task) :
    (d.first tasks).toPerform = tasks.filterMap Task.action? ++ d.toPerform :=
  List.filterMap_append

/-- A task that waits is followed by no action. -/
theorem toPerform_rest {task : Task} {rest : List Task} (h : d.Arranged)
    (hagenda : d.agenda = task :: rest) (hwaits : task.waits = true) :
    toPerform { d with agenda := rest } = [] := by
  unfold Arranged at h
  rw [hagenda, List.pairwise_cons] at h
  exact List.filterMap_eq_nil_iff.2 fun later hlater => h.1 later hlater hwaits

@[simp] theorem toPerform_reacted (d : Daemon) (r : Reaction) :
    (d.reacted r).1.toPerform = r.actions ++ d.toPerform := by
  have hperform : (r.actions.map Task.perform).filterMap Task.action? = r.actions := by
    rw [List.filterMap_map]
    exact List.filterMap_some
  exact (toPerform_first _ _).trans (congrArg (· ++ d.toPerform) hperform)

theorem arranged_reacted (h : d.Arranged) (r : Reaction) : (d.reacted r).1.Arranged := by
  refine List.pairwise_append.2 ⟨?_, h, ?_⟩
  · exact List.pairwise_map.2 (List.pairwise_of_forall fun _ _ hwaits => nomatch hwaits)
  · intro task htask _ _ hwaits
    obtain ⟨a, -, rfl⟩ := List.mem_map.1 htask
    cases hwaits

/-- What a step carries out, and what is still to be carried out after it. -/
structure Performs (d : Daemon) (now : Seconds) (input : DaemonInput) (s : DaemonStep) : Prop where
  arranged : s.1.Arranged
  carried : ∀ a, d.carried? = some a → d.toPerform = a :: s.1.toPerform
  handed : ∀ i, d.handed? input = some i →
    d.toPerform = [] ∧ s.1.toPerform = (d.domain.step now i).1.actions
  kept : d.carried? = none → d.handed? input = none →
    s.1.toPerform = d.toPerform ∨
      d.toPerform = [] ∧ ∃ victim, s.1.toPerform = [Domain.externalAction victim]

variable {now : Seconds} {input : DaemonInput} {s : DaemonStep}

theorem carried?_of_toPerform_nil (h : d.toPerform = []) : d.carried? = none := by
  unfold toPerform at h
  unfold carried?
  cases hagenda : d.agenda with
  | nil => rfl
  | cons task rest => exact List.filterMap_eq_nil_iff.1 h task (hagenda ▸ List.mem_cons_self)

theorem toPerform_of_carried? {a : Action} (h : d.carried? = some a) :
    ∃ rest, d.toPerform = a :: rest := by
  obtain ⟨task, hhead, htask⟩ := Option.bind_eq_some_iff.1 h
  obtain ⟨rest, hagenda⟩ := List.head?_eq_some_iff.1 hhead
  unfold toPerform
  rw [hagenda, List.filterMap_cons_some htask]
  exact ⟨_, rfl⟩

/-- Nothing was to be carried out, and nothing is. -/
theorem Performs.of_nil (hbefore : d.toPerform = []) (hafter : s.1.toPerform = [])
    (hhanded : d.handed? input = none) : d.Performs now input s where
  arranged := arranged_of_toPerform_nil hafter
  carried a ha := by
    rw [carried?_of_toPerform_nil hbefore] at ha
    cases ha
  handed i hi := by
    rw [hhanded] at hi
    cases hi
  kept _ _ := .inl (hafter.trans hbefore.symm)

/-- Nothing was to be carried out, and now it is what the domain asks for. -/
theorem Performs.of_handed {i : DomainInput} (hbefore : d.toPerform = [])
    (hhanded : d.handed? input = some i) (harranged : s.1.Arranged)
    (hafter : s.1.toPerform = (d.domain.step now i).1.actions) : d.Performs now input s where
  arranged := harranged
  carried a ha := by
    rw [carried?_of_toPerform_nil hbefore] at ha
    cases ha
  handed i' hi' := by
    rw [hhanded, Option.some.injEq] at hi'
    rw [← hi']
    exact ⟨hbefore, hafter⟩
  kept _ hnone := by
    rw [hhanded] at hnone
    cases hnone

theorem toPerform_first_of_nil (h : d.toPerform = []) {tasks : List Task}
    (htasks : tasks.filterMap Task.action? = []) : (d.first tasks).toPerform = [] := by
  rw [toPerform_first, htasks, h, List.nil_append]

theorem toPerform_depart (d : Daemon) (result : Answer) : (d.depart result).toPerform = [] := by
  unfold depart
  split <;> rfl

theorem toPerform_fail (h : d.toPerform = []) (e : Error) : (d.fail e).1.toPerform = [] := by
  unfold fail
  split
  · exact d.toPerform_depart (.error e)
  · exact h

theorem toPerform_daemonEvent (h : d.toPerform = []) (now : Seconds) (event : GroupEvent) :
    (d.daemonEvent now event).1.toPerform = [] := by
  unfold daemonEvent
  cases event with
  | membership m =>
    simp only [daemonMembership]
    split
    · exact toPerform_first_of_nil h rfl
    · exact h
  | deliver sender data =>
    simp only [receiveDaemonMessage]
    split
    · exact h
    · split
      · simp only [receiveOffer]
        split
        · exact h
        · exact toPerform_first_of_nil h rfl
        · exact toPerform_first_of_nil h rfl
      · exact h
  | ring node seq => exact h

theorem toPerform_propose (h : d.toPerform = []) : d.propose.1.toPerform = [] := by
  unfold propose
  split
  · exact h
  · exact toPerform_first_of_nil h rfl
  · exact h

theorem toPerform_enter (h : d.toPerform = []) : d.enter.1.toPerform = [] := by
  unfold enter
  split
  · split
    · exact toPerform_fail h _
    · exact toPerform_first_of_nil h rfl
  · exact h

theorem toPerform_joinAnswered (h : d.toPerform = []) (j : Joining) (a : Answer) :
    (d.joinAnswered j a).1.toPerform = [] := by
  unfold joinAnswered
  split
  · exact toPerform_first_of_nil h rfl
  · exact h
  · split
    · exact h
    · exact toPerform_fail h _

/-- An event of the domain group leads to what the domain asks for. -/
theorem toPerform_domainEvent (h : d.toPerform = []) {event : GroupEvent} {i : DomainInput}
    (hinput : event.input? d.daemons.running? = some i) :
    (d.domainEvent now event).1.Arranged ∧
      (d.domainEvent now event).1.toPerform = (d.domain.step now i).1.actions := by
  have hreacted (r : Reaction) :
      (d.reacted r).1.Arranged ∧ (d.reacted r).1.toPerform = r.actions := by
    rw [toPerform_reacted, h, List.append_nil]
    exact ⟨arranged_reacted (arranged_of_toPerform_nil h) r, rfl⟩
  cases event with
  | membership m =>
    rw [GroupEvent.input?, Option.some.injEq] at hinput
    subst hinput
    simp only [domainEvent, Domain.step]
    split
    · rename_i r hr
      rw [hr]
      exact hreacted r
    · rename_i r e hr
      rw [hr, actions_of_refused hr]
      exact ⟨arranged_of_toPerform_nil h, h⟩
  | ring node seq =>
    rw [GroupEvent.input?, Option.some.injEq] at hinput
    subst hinput
    exact hreacted _
  | deliver sender data =>
    simp only [GroupEvent.input?] at hinput
    split at hinput
    · rename_i e he
      rw [Option.some.injEq] at hinput
      subst hinput
      simp only [domainEvent, he]
      exact hreacted _
    · cases hinput

/-- A message that cannot be read leads to nothing. -/
theorem toPerform_domainEvent_none (h : d.toPerform = []) {event : GroupEvent}
    (hinput : event.input? d.daemons.running? = none) :
    (d.domainEvent now event).1.toPerform = [] := by
  cases event with
  | membership m => cases hinput
  | ring node seq => cases hinput
  | deliver sender data =>
    simp only [GroupEvent.input?] at hinput
    split at hinput
    · cases hinput
    · rename_i e he
      simp only [domainEvent, he]
      exact h

theorem performs_event (e : DaemonEvent) (hagenda : d.agenda = []) :
    d.Performs now (.event e) (d.receive now e) := by
  have hnil : d.toPerform = [] := by rw [toPerform, hagenda, List.filterMap_nil]
  cases e with
  | group name event =>
    simp only [receive]
    split
    · rename_i hname
      refine .of_nil hnil (toPerform_daemonEvent hnil now event) ?_
      simp [handed?, hagenda, eq_of_beq hname]
    split
    · rename_i hdaemon hname
      rw [beq_iff_eq] at hdaemon hname
      subst hname
      cases hfencing : d.domain.fencing with
      | true => exact .of_nil hnil hnil (by simp [handed?, hagenda, hfencing])
      | false =>
        have hhanded : d.handed? (.event (.group d.config.domainGroup event)) =
            event.input? d.daemons.running? := by
          simp [handed?, hagenda, hdaemon, hfencing]
        cases hinput : event.input? d.daemons.running? with
        | none => exact .of_nil hnil (toPerform_domainEvent_none hnil hinput) (hhanded.trans hinput)
        | some i =>
          obtain ⟨harranged, hactions⟩ := toPerform_domainEvent hnil hinput
          exact .of_handed hnil (hhanded.trans hinput) harranged hactions
    · rename_i hname
      rw [beq_iff_eq] at hname
      exact .of_nil hnil hnil (by simp [handed?, hagenda, hname])
  | clusterChanged =>
    exact .of_nil hnil (toPerform_first_of_nil hnil rfl) (by simp [handed?, hagenda])
  | fencing report =>
    have hhanded : d.handed? (.event (.fencing report)) = some report.input := by
      simp [handed?, hagenda]
    have hreplay : (d.first [.replay]).toPerform = [] := toPerform_first_of_nil hnil rfl
    have hreacted (r : Reaction) : ((d.first [.replay]).reacted r).1.Arranged ∧
        ((d.first [.replay]).reacted r).1.toPerform = r.actions := by
      rw [toPerform_reacted, hreplay, List.append_nil]
      exact ⟨arranged_reacted (arranged_of_toPerform_nil hreplay) r, rfl⟩
    cases report with
    | attempt victim => exact .of_handed hnil hhanded (arranged_of_toPerform_nil hreplay) hreplay
    | resolved victim how reduced => exact .of_handed hnil hhanded (hreacted _).1 (hreacted _).2
    | finished => exact .of_handed hnil hhanded (hreacted _).1 (hreacted _).2
  | fencedOutside victim =>
    simp only [receive]
    have hhanded : d.handed? (.event (.fencedOutside victim)) = none := by simp [handed?, hagenda]
    split
    · have hfirst : (d.first [.perform (Domain.externalAction victim)]).toPerform =
          [Domain.externalAction victim] := by
        rw [toPerform_first, hnil]
        rfl
      refine ⟨?_, ?_, ?_, fun _ _ => .inr ⟨hnil, victim, hfirst⟩⟩
      · simp [Arranged, first, hagenda]
      · simp [carried?, hagenda]
      · simp [hhanded]
    · exact .of_nil hnil hnil hhanded
  | shutdown =>
    exact .of_nil hnil (d.toPerform_depart _) (by simp [handed?, hagenda])

theorem performs_replay {rest : List Task} (h : d.Arranged) (hagenda : d.agenda = .replay :: rest) :
    d.Performs now input (replay { d with agenda := rest } now) := by
  have hrest := toPerform_rest h hagenda rfl
  have hnil : d.toPerform = [] := by
    rw [toPerform, hagenda, List.filterMap_cons_none rfl]
    exact hrest
  cases hbacklog : d.backlog with
  | nil =>
    simp only [replay]
    exact .of_nil hnil hrest (by simp [handed?, hagenda, hbacklog])
  | cons event backlog =>
    cases hfencing : d.domain.fencing with
    | true =>
      simp only [replay, hfencing, if_true]
      exact .of_nil hnil hrest (by simp [handed?, hagenda, hbacklog, hfencing])
    | false =>
      let resumed : Daemon := { d with agenda := .replay :: rest, backlog := backlog }
      have hresumed : resumed.toPerform = [] := hrest
      have hreplay : replay { d with agenda := rest } now = resumed.domainEvent now event := by
        simp only [replay, hbacklog, hfencing, Bool.false_eq_true, if_false]
        rfl
      have hhanded : d.handed? input = event.input? resumed.daemons.running? := by
        simp [handed?, hagenda, hbacklog, hfencing, resumed]
      rw [← hbacklog, hreplay]
      cases hinput : event.input? resumed.daemons.running? with
      | none =>
        exact .of_nil hnil (toPerform_domainEvent_none hresumed hinput) (hhanded.trans hinput)
      | some i =>
        obtain ⟨harranged, hactions⟩ := toPerform_domainEvent hresumed hinput
        exact .of_handed hnil (hhanded.trans hinput) harranged hactions

theorem performs_refresh {rest : List Task} (h : d.Arranged)
    (hagenda : d.agenda = .refresh :: rest) (snapshot : Except Error ClusterSnapshot) :
    d.Performs now (.snapshot snapshot)
      (proceed { d with agenda := rest } now .refresh (.snapshot snapshot)) := by
  have hrest := toPerform_rest h hagenda rfl
  have hnil : d.toPerform = [] := by
    rw [toPerform, hagenda, List.filterMap_cons_none rfl]
    exact hrest
  cases snapshot with
  | ok s =>
    have hhanded : d.handed? (.snapshot (.ok s)) = some (.cluster s) := by simp [handed?, hagenda]
    refine .of_handed hnil hhanded ?_ ?_
    · exact arranged_reacted (arranged_of_toPerform_nil hrest) _
    · simp only [proceed, toPerform_reacted, hrest, List.append_nil]
      rfl
  | error e => exact .of_nil hnil hrest (by simp [handed?, hagenda])

/-- An action is carried out, which takes no more than to send a message or to evict a node. -/
theorem performs_perform {a : Action} {rest : List Task} (h : d.Arranged)
    (hagenda : d.agenda = .perform a :: rest) :
    d.Performs now input (perform { d with agenda := rest } a) := by
  have hrest : rest.Pairwise fun task later => task.waits = true → later.action? = none := by
    unfold Arranged at h
    rw [hagenda] at h
    exact (List.pairwise_cons.1 h).2
  have hafter : (perform { d with agenda := rest } a).1.Arranged ∧
      (perform { d with agenda := rest } a).1.toPerform = rest.filterMap Task.action? := by
    unfold Arranged
    cases a with
    | send flags message =>
      exact ⟨List.pairwise_cons.2 ⟨fun _ _ hwaits => (nomatch hwaits), hrest⟩, rfl⟩
    | evict node => exact ⟨List.pairwise_cons.2 ⟨fun _ _ hwaits => (nomatch hwaits), hrest⟩, rfl⟩
    | setStateful => exact ⟨hrest, rfl⟩
    | startFencing nodesJoined => exact ⟨hrest, rfl⟩
    | left => exact ⟨hrest, rfl⟩
  have hcarried : d.carried? = some a := by simp [carried?, hagenda, Task.action?]
  have hbefore : d.toPerform = a :: rest.filterMap Task.action? := by
    simp [toPerform, hagenda, Task.action?]
  refine ⟨hafter.1, ?_, ?_, ?_⟩
  · intro a' ha'
    rw [hcarried, Option.some.injEq] at ha'
    rw [hbefore, hafter.2, ha']
  · simp [handed?, hagenda]
  · simp [hcarried]

/-- A task that waits, and neither hands the domain anything nor asks for anything. -/
theorem Performs.of_waits {task : Task} {rest : List Task} (h : d.Arranged)
    (hagenda : d.agenda = task :: rest) (hwaits : task.waits = true)
    (hafter : toPerform { d with agenda := rest } = [] → s.1.toPerform = [])
    (hhanded : d.handed? input = none) : d.Performs now input s := by
  have hrest := toPerform_rest h hagenda hwaits
  refine .of_nil ?_ (hafter hrest) hhanded
  have hnone : task.action? = none := by cases task <;> first | rfl | cases hwaits
  rw [toPerform, hagenda, List.filterMap_cons_none hnone]
  exact hrest

/-- A task that does not wait, and is no action: others may take its place. -/
theorem Performs.of_rest {task : Task} {rest tasks : List Task} (h : d.Arranged)
    (hagenda : d.agenda = task :: rest) (hnone : task.action? = none)
    (htasks : ∀ t ∈ tasks, t.waits = false ∧ t.action? = none)
    (hafter : s.1.agenda = tasks ++ rest) (hhanded : d.handed? input = none) :
    d.Performs now input s := by
  have hrest : rest.Pairwise fun task later => task.waits = true → later.action? = none := by
    unfold Arranged at h
    rw [hagenda] at h
    exact (List.pairwise_cons.1 h).2
  refine ⟨?_, ?_, ?_, fun _ _ => .inl ?_⟩
  · unfold Arranged
    rw [hafter]
    refine List.pairwise_append.2 ⟨?_, hrest, ?_⟩
    · exact List.pairwise_of_forall_mem_list fun _ _ later hlater _ => (htasks later hlater).2
    · intro t ht _ _ hwaits
      rw [(htasks t ht).1] at hwaits
      cases hwaits
  · simp [carried?, hagenda, hnone]
  · simp [hhanded]
  · have htasksNone := List.filterMap_eq_nil_iff.2 fun t ht => (htasks t ht).2
    rw [toPerform, hafter, List.filterMap_append, htasksNone, toPerform, hagenda,
      List.filterMap_cons_none hnone, List.nil_append]

/-- Every step carries out the next action or leaves those that are due. What the domain asks for
    is due once nothing else is. -/
theorem performs_step (h : d.Arranged) (now : Seconds) (input : DaemonInput) :
    d.Performs now input (d.step now input) := by
  cases hagenda : d.agenda with
  | nil =>
    have hnil : d.toPerform = [] := by rw [toPerform, hagenda, List.filterMap_nil]
    cases input with
    | event e =>
      simp only [step, hagenda]
      exact performs_event e hagenda
    | turn | answered a | snapshot s =>
      simp only [step, hagenda]
      exact .of_nil hnil hnil (by simp [handed?, hagenda])
  | cons task rest =>
    have hstep : d.step now input = proceed { d with agenda := rest } now task input := by
      simp [step, hagenda]
    rw [hstep]
    cases task with
    | perform a => exact performs_perform h hagenda
    | replay => exact performs_replay h hagenda
    | refresh =>
      cases input with
      | snapshot s => exact performs_refresh h hagenda s
      | _ => exact .of_waits h hagenda rfl id (by simp [handed?, hagenda])
    | propose => exact .of_waits h hagenda rfl toPerform_propose (by simp [handed?, hagenda])
    | enter => exact .of_waits h hagenda rfl toPerform_enter (by simp [handed?, hagenda])
    | quit result => exact .of_waits h hagenda rfl id (by simp [handed?, hagenda])
    | leave group =>
      have hhanded : d.handed? input = none := by simp [handed?, hagenda]
      cases input <;> exact .of_waits h hagenda rfl id hhanded
    | join j =>
      have hhanded : d.handed? input = none := by simp [handed?, hagenda]
      cases input with
      | answered a => exact .of_waits h hagenda rfl (toPerform_joinAnswered · j a) hhanded
      | _ => exact .of_waits h hagenda rfl id hhanded
    | pause millis =>
      exact .of_rest h hagenda rfl (List.forall_mem_nil _) rfl (by simp [handed?, hagenda])
    | evict node =>
      have hhanded : d.handed? input = none := by simp [handed?, hagenda]
      cases input <;> exact .of_rest h hagenda rfl (List.forall_mem_nil _) rfl hhanded
    | send s purpose =>
      have hhanded : d.handed? input = none := by simp [handed?, hagenda]
      cases input with
      | answered a =>
        simp only [proceed, sendAnswered]
        split
        · rename_i pause notices next _
          have htasks : ∀ t ∈ [Task.pause pause, .send next purpose],
              t.waits = false ∧ t.action? = none := by
            simp [Task.waits, Task.action?]
          exact .of_rest h hagenda rfl htasks rfl hhanded
        · exact .of_rest h hagenda rfl (List.forall_mem_nil _) rfl hhanded
        · exact .of_rest h hagenda rfl (List.forall_mem_nil _) rfl hhanded
      | _ => exact .of_rest h hagenda rfl (List.forall_mem_nil _) rfl hhanded

/-- The effects of a step start no run but that which an action asks for when it is carried out. -/
theorem runs_step (h : d.Arranged) (now : Seconds) (input : DaemonInput) :
    (d.step now input).2.filterMap DaemonEffect.run? =
      match d.carried? with
      | some (.startFencing nodesJoined) =>
        [{ settings := .ofConfig d.config, nodesJoined, overridable := d.overridable }]
      | _ => [] := by
  have hperforms := performs_step h now input
  have hsteps := d.steps_step now input
  cases hcarried : d.carried? with
  | some a =>
    obtain ⟨task, hhead, htask⟩ := Option.bind_eq_some_iff.1 hcarried
    obtain ⟨rest, hagenda⟩ := List.head?_eq_some_iff.1 hhead
    cases task with
    | perform action =>
      rw [Task.action?, Option.some.injEq] at htask
      simp only [step, hagenda, proceed, htask]
      cases a <;> rfl
    | _ => cases htask
  | none =>
    rw [← List.length_eq_zero_iff]
    have hdue := d.runsDue_eq_countP
    have hdueAfter := (d.step now input).1.runsDue_eq_countP
    cases hhanded : d.handed? input with
    | some i =>
      obtain ⟨-, hruns, -⟩ := hsteps.handed i hhanded
      obtain ⟨hbefore, hafter⟩ := hperforms.handed i hhanded
      rw [hbefore, List.countP_nil] at hdue
      rw [hafter] at hdueAfter
      omega
    | none =>
      obtain ⟨-, hruns, -⟩ := hsteps.kept hhanded
      obtain hsame | ⟨hbefore, -⟩ := hperforms.kept hcarried hhanded
      · rw [hsame, ← hdue] at hdueAfter
        omega
      · rw [hbefore, List.countP_nil] at hdue
        omega

end

end Daemon

end ClusterFence
