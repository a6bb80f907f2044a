import ClusterFence.Proofs.Daemon.Transition
import ClusterFence.Proofs.Negotiation.Group

namespace ClusterFence

/-- No change is pending, and no fencing is outstanding. -/
def Domain.Untouched (d : Domain) : Prop := d.changes.pending = [] ∧ d.fencing = false

theorem Domain.untouched_new (config : Config) : (Domain.new config).Untouched := by
  unfold new
  split <;> exact ⟨rfl, rfl⟩

/-- A snapshot of the cluster alone brings no change. -/
theorem Domain.Untouched.cluster {d : Domain} (h : d.Untouched) (now : Seconds)
    (s : ClusterSnapshot) :
    (d.step now (.cluster s)).1.domain.Untouched ∧ (d.step now (.cluster s)).1.actions = [] := by
  obtain ⟨hpending, hfencing⟩ := h
  simp [Domain.step, updateCluster, Reaction.after, advance, ChangeQueue.current?, Untouched,
    hpending, hfencing]

namespace DaemonGroup

/-- The numbers of the version that is agreed on, once there is one that we can run. -/
def agreed? (g : DaemonGroup) : Option (UInt16 × UInt16) :=
  g.running?.bind fun run =>
    if run.runnableUnder g.ours.max then some (run.major, run.minor) else none

variable {g g' : DaemonGroup} {p : UInt16 × UInt16}

theorem agreed?_eq_some_iff :
    g.agreed? = some p ↔ ∃ run, g.running? = some run ∧ run.runnableUnder g.ours.max = true ∧
      p = (run.major, run.minor) := by
  unfold agreed?
  rw [Option.bind_eq_some_iff]
  refine exists_congr fun run => and_congr_right fun _ => ?_
  cases run.runnableUnder g.ours.max <;> simp [eq_comm]

/-- What is agreed on stays agreed on, and our own highest version is what it was. -/
def Holds (g g' : DaemonGroup) : Prop :=
  g'.ours.max = g.ours.max ∧ ∀ p, g.agreed? = some p → g'.agreed? = some p

theorem Holds.agreed_eq_none (h : g.Holds g') (hnone : g'.agreed? = none) : g.agreed? = none := by
  rw [Option.eq_none_iff_forall_ne_some]
  intro p hp
  rw [h.2 p hp] at hnone
  cases hnone

theorem Holds.of_ours (h : g'.ours = g.ours) : g.Holds g' := by
  unfold Holds agreed? running?
  rw [h]
  exact ⟨rfl, fun _ => id⟩

theorem holds_changeMembers (g : DaemonGroup) (members : List NodeId) (now : Seconds) :
    g.Holds (g.changeMembers members now) := .of_ours rfl

theorem holds_propose (g : DaemonGroup) : g.Holds g.propose.1 := by
  rw [propose_fst]
  exact .of_ours rfl

theorem holds_setStateful (g : DaemonGroup) : g.Holds g.setStateful := by
  have hsame : g.setStateful.agreed? = g.agreed? := by
    have hset : g.setStateful.ours.run.isSet = g.ours.run.isSet := rfl
    rw [agreed?, agreed?, running?, running?, hset]
    split <;> rfl
  exact ⟨rfl, fun p h => hsame ▸ h⟩

/-- An announcement changes the version only while none is agreed on. -/
theorem holds_receiveOffer {sender : NodeId} {o : Offer} {quorate : Bool} {quorateTime : Seconds}
    {verdict : OfferVerdict}
    (h : g.receiveOffer sender o quorate quorateTime = .ok (g', verdict)) : g.Holds g' := by
  have hears := g.hears_receiveOffer sender o quorate quorateTime
  rw [h] at hears
  cases hears with
  | merged => exact .of_ours rfl
  | held n =>
    obtain ⟨-, hsame⟩ | ⟨hunset, -, -⟩ := g.adopt_cases o.run
    · rw [hsame]
      exact .of_ours rfl
    · refine ⟨rfl, fun p hp => ?_⟩
      simp [agreed?, running?, hunset] at hp

theorem isSome_running? (g : DaemonGroup) : g.running?.isSome = g.ours.run.isSet := by
  unfold running?
  cases g.ours.run.isSet <;> rfl

/-- Who is evicted tells of no version that we would take up. -/
theorem ours_of_evict {sender node : NodeId} {o : Offer} {quorate : Bool} {quorateTime : Seconds}
    (h : g.receiveOffer sender o quorate quorateTime = .ok (g', .evict node)) :
    g'.ours = g.ours := by
  have hears := g.hears_receiveOffer sender o quorate quorateTime
  rw [h] at hears
  cases hears
  rfl

end DaemonGroup

/-- The task is in place under what is agreed on: it is about the daemon group, or there is a
    version to enter the domain with, and a message for it is of that version. -/
def Task.InPlace (group : GroupName) (agreed : Option (UInt16 × UInt16)) : Task → Prop
  | .perform _ | .replay => agreed.isSome = true
  | .send s _ => s.group = .daemon ∨ s.group = group ∧ ∃ e : Envelope, s.data = e.encode ∧
      agreed = some (e.header.version.major, e.header.version.minor)
  | .join j => j.group = .daemon ∨ j.group = group ∧ agreed.isSome = true
  | .quit result => ∀ e, result = .error e → e.isFatal = true
  | .refresh | .evict _ | .propose | .enter | .pause _ | .leave _ => True

theorem Task.InPlace.mono {group : GroupName} {agreed agreed' : Option (UInt16 × UInt16)}
    (hagreed : ∀ p, agreed = some p → agreed' = some p) {task : Task}
    (h : task.InPlace group agreed) : task.InPlace group agreed' := by
  have hsome (h : agreed.isSome = true) : agreed'.isSome = true := by
    obtain ⟨p, hp⟩ := Option.isSome_iff_exists.1 h
    rw [hagreed p hp, Option.isSome_some]
  cases task with
  | perform | replay => exact hsome h
  | send s purpose =>
    exact h.imp_right (.imp_right (.imp fun e => .imp_right (hagreed _)))
  | join j => exact h.imp_right (.imp_right hsome)
  | quit result => exact h
  | refresh | evict | propose | enter | pause | leave => trivial

namespace Daemon

/-- What the daemon is about to do is in place, and while there is no version to enter the domain
    with, nothing has come from there. -/
structure Entitled (d : Daemon) : Prop where
  max : d.daemons.ours.max = Version.highest
  tasks : ∀ task ∈ d.agenda, task.InPlace d.config.domainGroup d.daemons.agreed?
  result : ∀ e, d.result = some (.error e) → e.isFatal = true
  outside : d.daemons.agreed? = none →
    d.joined = false ∧ d.backlog = [] ∧ d.domain.Untouched

theorem entitled_new (config : Config) (overridable : Bool) :
    (Daemon.new config overridable).Entitled where
  max := rfl
  tasks task htask := by
    simp only [Daemon.new, List.mem_cons, List.not_mem_nil, or_false] at htask
    obtain rfl | rfl := htask
    · trivial
    · exact .inl rfl
  result := by simp [Daemon.new]
  outside _ := ⟨rfl, rfl, Domain.untouched_new config⟩

section

variable {d d' : Daemon} {now : Seconds} {input : DaemonInput}

/-- The daemon has come to know more, or has other things to do, and all else is as it was. -/
theorem Entitled.of_frame (h : d.Entitled) (hholds : d.daemons.Holds d'.daemons)
    (hframe : d'.config = d.config ∧ d'.joined = d.joined ∧ d'.backlog = d.backlog ∧
      d'.domain = d.domain ∧ d'.result = d.result)
    (htasks : ∀ task ∈ d'.agenda,
      task ∈ d.agenda ∨ task.InPlace d'.config.domainGroup d'.daemons.agreed?) :
    d'.Entitled := by
  obtain ⟨hconfig, hjoined, hbacklog, hdomain, hresult⟩ := hframe
  refine ⟨hholds.1.trans h.max, fun task htask => ?_, ?_, fun hnone => ?_⟩
  · obtain htask | htask := htasks task htask
    · rw [hconfig]
      exact (h.tasks task htask).mono hholds.2
    · exact htask
  · rw [hresult]
    exact h.result
  · rw [hjoined, hbacklog, hdomain]
    exact h.outside (hholds.agreed_eq_none hnone)

/-- Once there is a version to enter the domain with, only the tasks have to be looked at. -/
theorem Entitled.of_agreed (h : d.Entitled) {p : UInt16 × UInt16}
    (hagreed : d.daemons.agreed? = some p)
    (hframe : d'.config = d.config ∧ d'.daemons = d.daemons ∧ d'.result = d.result)
    (htasks : ∀ task ∈ d'.agenda,
      task ∈ d.agenda ∨ task.InPlace d.config.domainGroup (some p)) : d'.Entitled := by
  obtain ⟨hconfig, hdaemons, hresult⟩ := hframe
  refine ⟨hdaemons ▸ h.max, fun task htask => ?_, ?_, fun hnone => ?_⟩
  · rw [hconfig, hdaemons, hagreed]
    obtain htask | htask := htasks task htask
    · exact hagreed ▸ h.tasks task htask
    · exact htask
  · rw [hresult]
    exact h.result
  · rw [hdaemons, hagreed] at hnone
    cases hnone

theorem Entitled.rest (h : d.Entitled) {task : Task} {rest : List Task}
    (next : d.agenda = task :: rest) : Entitled { d with agenda := rest } where
  max := h.max
  tasks t ht := h.tasks t (next ▸ List.mem_cons_of_mem _ ht)
  result := h.result
  outside := h.outside

/-- The run ends in an error only when it is fatal. -/
theorem Entitled.ended (h : d.Entitled) {result : Answer}
    (hfatal : ∀ e, result = .error e → e.isFatal = true) :
    Entitled { d with result := some result } where
  max := h.max
  tasks := h.tasks
  result e he := hfatal e (Option.some.inj he)
  outside := h.outside

/-- A message of the domain goes out under the version that is agreed on. -/
theorem inPlace_messageTask {p : UInt16 × UInt16} (hagreed : d.daemons.agreed? = some p)
    (flags : MessageFlags) (message : Message) :
    (d.messageTask flags message).InPlace d.config.domainGroup (some p) := by
  obtain ⟨run, hrunning, -, rfl⟩ := DaemonGroup.agreed?_eq_some_iff.1 hagreed
  refine .inr ⟨rfl, _, rfl, ?_⟩
  rw [hrunning, Option.getD_some]

/-- An input is handed over to the domain, which can ask for something only when there is a version
    to enter it with. -/
theorem Entitled.handsOver (h : d.Entitled) (now : Seconds) {i? : Option DomainInput}
    (hoccasion : d.daemons.agreed?.isSome = true ∨ ∃ s, i? = some (.cluster s)) :
    (d.handsOver now i?).Entitled := by
  cases hagreed : d.daemons.agreed? with
  | some p =>
    refine h.of_agreed hagreed ⟨?_, ?_, ?_⟩ fun task htask => ?_
    · exact config_handsOver d now i?
    · exact daemons_handsOver d now i?
    · exact result_handsOver d now i?
    · rw [agenda_handsOver, List.mem_append] at htask
      refine htask.symm.imp_right fun htask => ?_
      obtain ⟨a, -, rfl⟩ := List.mem_map.1 htask
      rfl
  | none =>
    obtain hsome | ⟨s, rfl⟩ := hoccasion
    · simp [hagreed] at hsome
    obtain ⟨hjoined, hbacklog, huntouched⟩ := h.outside hagreed
    obtain ⟨hdomain, hactions⟩ := huntouched.cluster now s
    refine ⟨h.max, ?_, h.result, fun _ => ⟨hjoined, hbacklog, hdomain⟩⟩
    rw [agenda_handsOver, asks, hactions]
    exact h.tasks

theorem daemons_daemonMembership (d : Daemon) (m : Membership) (now : Seconds) :
    (d.daemonMembership m now).daemons =
      d.daemons.changeMembers (m.members.map (·.node)) now := by
  unfold daemonMembership
  dsimp only
  split <;> rfl

theorem Goes.config (hgoes : d.Goes now input d') : d'.config = d.config := by
  cases hgoes with
  | regroups m => exact (d.daemonMembership_frame m now).1
  | performs a rest => exact (perform_frame { d with agenda := rest } a).1
  | applies | reports | catchesUp | replays => exact config_handsOver _ now _
  | shutsDown | balks | turnedAway => rw [depart_eq]
  | _ => rfl

/-- A version that is agreed on stays. -/
theorem Goes.agreed (hgoes : d.Goes now input d') : d.daemons.Holds d'.daemons := by
  cases hgoes with
  | regroups m =>
    rw [daemons_daemonMembership]
    exact d.daemons.holds_changeMembers _ now
  | hears o daemons verdict _ received => exact DaemonGroup.holds_receiveOffer received
  | performs a rest =>
    cases a with
    | setStateful => exact d.daemons.holds_setStateful
    | _ => exact .of_ours rfl
  | proposes => exact d.daemons.holds_propose
  | applies | reports | catchesUp | replays =>
    rw [daemons_handsOver]
    exact .of_ours rfl
  | shutsDown | balks | turnedAway =>
    rw [depart_eq]
    exact .of_ours rfl
  | _ => exact .of_ours rfl

/-- The daemon is given an event of its domain group, or a report of a fencing run. -/
def ofDomain (group : GroupName) (input : DaemonInput) : Prop :=
  (input.domainEvent? group).isSome = true ∨ ∃ report, input = .event (.fencing report)

/-- A daemon that departs has nothing to do but to leave, and to end with a fatal error if with
    any. -/
theorem Entitled.depart (h : d.Entitled) {result : Answer}
    (hresult : ∀ e, result = .error e → e.isFatal = true) : (d.depart result).Entitled := by
  rw [depart_eq]
  refine ⟨h.max, fun task htask => ?_, h.result, fun hnone => ?_⟩
  · obtain htask | htask := List.mem_append.1 htask
    · split at htask
      · rw [List.mem_singleton.1 htask]
        trivial
      · cases htask
    · simp only [List.mem_cons, List.not_mem_nil, or_false] at htask
      obtain rfl | rfl := htask
      · trivial
      · exact hresult
  · obtain ⟨hjoined, hbacklog, huntouched⟩ := h.outside hnone
    rw [hjoined]
    exact ⟨rfl, hbacklog, huntouched⟩

/-- Other tasks take the place of the next one, and nothing else changes but what is known of the
    daemons. -/
theorem Entitled.replaces (h : d.Entitled) (hholds : d.daemons.Holds d'.daemons) {task : Task}
    {rest : List Task} (tasks : List Task) (next : d.agenda = task :: rest)
    (hagenda : d'.agenda = tasks ++ rest)
    (hframe : d'.config = d.config ∧ d'.joined = d.joined ∧ d'.backlog = d.backlog ∧
      d'.domain = d.domain ∧ d'.result = d.result)
    (htasks : ∀ t ∈ tasks, t.InPlace d'.config.domainGroup d'.daemons.agreed?) : d'.Entitled := by
  refine h.of_frame hholds hframe fun t ht => ?_
  rw [hagenda, List.mem_append] at ht
  obtain ht | ht := ht
  · exact .inr (htasks t ht)
  · exact .inl (next ▸ List.mem_cons_of_mem _ ht)

/-- Something more is to be done first, which only needs a version to enter the domain with. -/
theorem Entitled.first (h : d.Entitled) (hsome : d.daemons.agreed?.isSome = true) {task : Task}
    (htask : ∀ p, task.InPlace d.config.domainGroup (some p)) : (d.first [task]).Entitled := by
  obtain ⟨p, hagreed⟩ := Option.isSome_iff_exists.1 hsome
  refine h.of_agreed hagreed ⟨rfl, rfl, rfl⟩ fun t ht => ?_
  obtain rfl | ht := List.mem_cons.1 ht
  · exact .inr (htask p)
  · exact .inl ht

theorem Entitled.daemonMembership (h : d.Entitled) (m : Membership) (now : Seconds) :
    (d.daemonMembership m now).Entitled := by
  have hholds : d.daemons.Holds (d.daemonMembership m now).daemons := by
    rw [daemons_daemonMembership]
    exact d.daemons.holds_changeMembers _ now
  refine h.of_frame hholds (d.daemonMembership_frame m now) fun task htask => ?_
  unfold Daemon.daemonMembership at htask
  dsimp only at htask
  split at htask
  · obtain htask | htask := List.mem_append.1 htask
    · rw [List.mem_singleton.1 htask]
      exact .inr (.inl rfl)
    · exact .inl htask
  · exact .inl htask

/-- What follows an announcement is in place, whatever version it agrees on. -/
theorem Entitled.hears (h : d.Entitled) (hidle : d.agenda = []) {daemons : DaemonGroup}
    (hholds : d.daemons.Holds daemons) {tasks : List Task}
    (hevicts : tasks = [] ∨ ∃ node, tasks = [.evict node]) :
    ({ d with daemons }.first (tasks ++ [Task.propose, Task.enter])).Entitled := by
  refine h.of_frame hholds ⟨rfl, rfl, rfl, rfl, rfl⟩ fun task htask => .inr ?_
  simp only [Daemon.first, hidle, List.append_nil, List.mem_append, List.mem_cons,
    List.not_mem_nil, or_false] at htask
  obtain htask | rfl | rfl := htask
  · obtain rfl | ⟨node, rfl⟩ := hevicts
    · cases htask
    · rw [List.mem_singleton.1 htask]
      trivial
  · trivial
  · trivial

/-- To carry out what the domain has asked for needs a version to enter it with, which there is. -/
theorem Entitled.perform (h : d.Entitled) {a : Action} {rest : List Task}
    (next : d.agenda = .perform a :: rest) :
    (Daemon.perform { d with agenda := rest } a).1.Entitled := by
  have hsome : d.daemons.agreed?.isSome = true := h.tasks (.perform a) (next ▸ List.mem_cons_self)
  obtain ⟨p, hagreed⟩ := Option.isSome_iff_exists.1 hsome
  have hrest := h.rest next
  cases a with
  | send flags message =>
    refine h.of_agreed hagreed ⟨rfl, rfl, rfl⟩ fun task htask => ?_
    obtain rfl | htask := List.mem_cons.1 htask
    · exact .inr (inPlace_messageTask hagreed flags message)
    · exact .inl (next ▸ List.mem_cons_of_mem _ htask)
  | evict node => exact hrest.first hsome fun _ => trivial
  | setStateful =>
    exact h.replaces d.daemons.holds_setStateful [] next rfl ⟨rfl, rfl, rfl, rfl, rfl⟩ (by simp)
  | startFencing nodesJoined => exact hrest.of_agreed hagreed ⟨rfl, rfl, rfl⟩ fun _ => .inl
  | left => exact hrest.of_agreed hagreed ⟨rfl, rfl, rfl⟩ fun _ => .inl

/-- The group service lets us into a group. -/
theorem Entitled.joins (h : d.Entitled) {j : Joining} {rest : List Task}
    (next : d.agenda = .join j :: rest) :
    Entitled { d with agenda := rest, joined := d.joined || j.group != .daemon } := by
  have hjoin : (Task.join j).InPlace d.config.domainGroup d.daemons.agreed? :=
    h.tasks (.join j) (next ▸ List.mem_cons_self)
  obtain hgroup | ⟨-, hsome⟩ := hjoin
  · refine h.replaces (.of_ours rfl) [] next rfl ⟨rfl, ?_, rfl, rfl, rfl⟩ (by simp)
    simp [hgroup]
  · obtain ⟨p, hagreed⟩ := Option.isSome_iff_exists.1 hsome
    exact (h.rest next).of_agreed hagreed ⟨rfl, rfl, rfl⟩ fun _ => .inl

/-- A daemon with nothing left to do takes up an event. -/
theorem entitled_of_goes_idle (h : d.Entitled) (hidle : d.agenda = []) (hgoes : d.Goes now input d')
    (hoccasion : ofDomain d.config.domainGroup input → d.daemons.agreed?.isSome = true) :
    d'.Entitled := by
  have hdomain (event : GroupEvent) :
      ofDomain d.config.domainGroup (.event (.group d.config.domainGroup event)) :=
    .inl (by simp [DaemonInput.domainEvent?, DaemonEvent.domainEvent?])
  cases hgoes with
  | regroups m idle => exact h.daemonMembership m now
  | hears o daemons verdict idle received tasks evicts =>
    refine h.hears idle (DaemonGroup.holds_receiveOffer received) (evicts.imp_right ?_)
    rintro ⟨node, -, htasks⟩
    exact ⟨node, htasks⟩
  | overlooks => exact h
  | refreshes idle =>
    refine h.of_frame (.of_ours rfl) ⟨rfl, rfl, rfl, rfl, rfl⟩ fun task htask => ?_
    obtain rfl | htask := List.mem_cons.1 htask
    · exact .inr trivial
    · exact .inl htask
  | holds event idle fencing =>
    obtain ⟨p, hagreed⟩ := Option.isSome_iff_exists.1 (hoccasion (hdomain event))
    exact h.of_agreed hagreed ⟨rfl, rfl, rfl⟩ fun task => .inl
  | applies event idle fencing => exact h.handsOver now (.inl (hoccasion (hdomain event)))
  | reports report idle =>
    have hsome := hoccasion (.inr ⟨report, rfl⟩)
    have hreplay : (d.first [.replay]).Entitled := h.first hsome fun _ => rfl
    exact hreplay.handsOver now (.inl hsome)
  | tells victim idle joined =>
    cases hagreed : d.daemons.agreed? with
    | none =>
      rw [(h.outside hagreed).1] at joined
      cases joined
    | some p => exact h.first (by rw [hagreed, Option.isSome_some]) fun _ => rfl
  | shutsDown idle => exact h.depart (by simp)
  | _ => simp_all

/-- A daemon does the next thing that it has to do. -/
theorem entitled_of_goes_busy (h : d.Entitled) (hbusy : d.agenda ≠ [])
    (hgoes : d.Goes now input d') : d'.Entitled := by
  have hholds := hgoes.agreed
  have hfirst {task : Task} {rest : List Task} (next : d.agenda = task :: rest) :
      task.InPlace d.config.domainGroup d.daemons.agreed? :=
    h.tasks task (next ▸ List.mem_cons_self)
  cases hgoes with
  | performs a rest _ next => exact h.perform next
  | catchesUp s rest next => exact (h.rest next).handsOver now (.inr ⟨s, rfl⟩)
  | replays event backlog rest _ next held fencing =>
    obtain ⟨p, hagreed⟩ := Option.isSome_iff_exists.1 (hfirst next)
    have hbacklog : Entitled { d with backlog } :=
      h.of_agreed hagreed ⟨rfl, rfl, rfl⟩ fun task => .inl
    exact hbacklog.handsOver now (.inl (hfirst next))
  | proposes rest tasks _ next offers =>
    refine h.replaces hholds tasks next rfl ⟨rfl, rfl, rfl, rfl, rfl⟩ fun task htask => ?_
    obtain rfl | ⟨o, -, rfl⟩ := offers
    · cases htask
    · rw [List.mem_singleton.1 htask]
      exact .inl rfl
  | enters run rest _ next outside running runnable =>
    refine h.replaces hholds [.join _] next rfl ⟨rfl, rfl, rfl, rfl, rfl⟩ fun task htask => ?_
    rw [List.mem_singleton.1 htask]
    have hagreed := DaemonGroup.agreed?_eq_some_iff.2 ⟨run, running, runnable, rfl⟩
    exact .inr ⟨rfl, by rw [Daemon.first, hagreed, Option.isSome_some]⟩
  | balks run rest _ next => exact h.depart fun e he => Except.error.inj he ▸ rfl
  | resends s purpose e rest next =>
    have hsend := hfirst next
    refine h.replaces hholds [.pause _, .send _ _] next rfl ⟨rfl, rfl, rfl, rfl, rfl⟩ ?_
    exact List.forall_mem_cons.2 ⟨trivial, List.forall_mem_singleton.2 hsend⟩
  | rejoins j e rest next =>
    have hjoin := hfirst next
    refine h.replaces hholds [.pause _, .join _] next rfl ⟨rfl, rfl, rfl, rfl, rfl⟩ ?_
    exact List.forall_mem_cons.2 ⟨trivial, List.forall_mem_singleton.2 hjoin⟩
  | joins j rest next => exact h.joins next
  | shutOut j e rest next =>
    exact (h.rest next).ended fun e he => Except.error.inj he ▸ rfl
  | turnedAway j e rest next => exact h.depart fun e he => Except.error.inj he ▸ rfl
  | quits result rest _ next => exact (h.rest next).ended (hfirst next)
  | passes task rest _ next => exact h.rest next
  | _ => exact absurd ‹d.agenda = []› hbusy

theorem entitled_of_goes (h : d.Entitled) (hgoes : d.Goes now input d')
    (hoccasion : ofDomain d.config.domainGroup input → d.daemons.agreed?.isSome = true) :
    d'.Entitled := by
  by_cases hidle : d.agenda = []
  · exact entitled_of_goes_idle h hidle hgoes hoccasion
  · exact entitled_of_goes_busy h hidle hgoes

/-- What a daemon that cannot run the version that is agreed on has still to do, when it ends after
    so many more steps. -/
def lastTasks (d : Daemon) : Nat → List Task
  | 0 => [.quit (.error d.versionError)]
  | 1 => [.leave .daemon, .quit (.error d.versionError)]
  | 2 => [.enter]
  | _ => [.propose, .enter]

/-- The daemon ends after so many steps, because it cannot run the version that is agreed on. -/
def Parts (d : Daemon) : Nat → Prop
  | 0 => d.result = some (.error d.versionError)
  | steps + 1 => d.result = none ∧ d.agenda = d.lastTasks steps

/-- A version is agreed on, and we cannot run it. -/
def Stranded (d : Daemon) : Prop := d.daemons.running?.isSome = true ∧ d.daemons.agreed? = none

theorem versionError_of_ours (h : d'.daemons.ours = d.daemons.ours) :
    d'.versionError = d.versionError := by
  rw [versionError, versionError, h]

theorem Stranded.of_ours (h : d.Stranded) (hours : d'.daemons.ours = d.daemons.ours) :
    d'.Stranded := by
  unfold Stranded DaemonGroup.agreed? DaemonGroup.running? at h ⊢
  rwa [hours]

/-- Each step brings the end nearer. -/
theorem Parts.pred_of_goes {steps : Nat} (h : d.Parts steps) (hsteps : steps ≤ 4)
    (hfits : d.fits input = true) (hstranded : d.Stranded) (houtside : d.joined = false)
    (hgoes : d.Goes now input d') :
    d'.Parts (steps - 1) ∧ d'.daemons.ours = d.daemons.ours := by
  have hopen := isOpen_of_fits hfits
  obtain ⟨hset, hunrunnable⟩ := hstranded
  match steps, h with
  | 0, h =>
    rw [Parts] at h
    simp [h] at hopen
  | 1, ⟨hresult, hagenda⟩ =>
    cases hgoes with
    | quits result rest _ next =>
      rw [hagenda, lastTasks, List.cons.injEq, Task.quit.injEq] at next
      rw [← next.1]
      exact ⟨rfl, rfl⟩
    | _ => simp_all [lastTasks, Task.isPlain]
  | 2, ⟨hresult, hagenda⟩ =>
    cases hgoes with
    | passes task rest _ next =>
      rw [hagenda, lastTasks, List.cons.injEq] at next
      exact ⟨⟨hresult, next.2.symm⟩, rfl⟩
    | _ => simp_all [lastTasks]
  | 3, ⟨hresult, hagenda⟩ =>
    cases hgoes with
    | balks run rest _ next outside =>
      rw [depart_eq, outside]
      exact ⟨⟨hresult, rfl⟩, rfl⟩
    | enters run rest _ next outside running runnable =>
      rw [DaemonGroup.agreed?_eq_some_iff.2 ⟨run, running, runnable, rfl⟩] at hunrunnable
      cases hunrunnable
    | _ => simp_all [lastTasks]
  | 4, ⟨hresult, hagenda⟩ =>
    cases hgoes with
    | proposes rest tasks _ next offers =>
      have hnone : d.daemons.propose = (d.daemons, .ok none) := by
        rw [DaemonGroup.isSome_running?] at hset
        rw [DaemonGroup.propose, DaemonGroup.mayPropose, hset]
        rfl
      have htasks : d.lastTasks 3 = [.propose, .enter] := rfl
      rw [hagenda, htasks, List.cons.injEq] at next
      obtain rfl | ⟨o, hoffer, -⟩ := offers
      · rw [hnone]
        exact ⟨⟨hresult, next.2.symm⟩, rfl⟩
      · rw [hnone] at hoffer
        cases hoffer
    | _ => simp_all [lastTasks, Task.isPlain]

/-- A version is agreed on only when one is heard of, and next it is seen whether we can run it. -/
theorem Goes.agenda_of_running (hgoes : d.Goes now input d')
    (hbefore : d.daemons.running?.isSome = false)
    (hafter : d'.daemons.running?.isSome = true) :
    d'.result = d.result ∧ d'.agenda = [.propose, .enter] := by
  rw [DaemonGroup.isSome_running?] at hbefore hafter
  have hsame (h : d'.daemons.ours.run.isSet = d.daemons.ours.run.isSet) :
      d'.result = d.result ∧ d'.agenda = [.propose, .enter] := by
    rw [h, hbefore] at hafter
    cases hafter
  cases hgoes with
  | hears o daemons verdict idle received tasks evicts =>
    obtain rfl | ⟨node, rfl, rfl⟩ := evicts
    · simp [first, idle]
    · exact hsame (congrArg (·.run.isSet) (DaemonGroup.ours_of_evict received))
  | regroups m idle =>
    refine hsame ?_
    rw [daemons_daemonMembership]
    rfl
  | performs a rest _ next => exact hsame (by cases a <;> rfl)
  | proposes =>
    refine hsame ?_
    rw [first, DaemonGroup.propose_fst]
  | shutsDown | balks | turnedAway => exact hsame (by rw [depart_eq])
  | applies | reports | catchesUp | replays =>
    refine hsame ?_
    rw [daemons_handsOver]
    first | done | rfl
  | _ => exact hsame rfl

end

end Daemon

end ClusterFence
