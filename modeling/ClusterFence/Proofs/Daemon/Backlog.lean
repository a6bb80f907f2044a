import ClusterFence.Proofs.Daemon.Lifecycle
import ClusterFence.Proofs.Daemon.Hearing
import ClusterFence.Proofs.Daemon.Transition

namespace ClusterFence

theorem Domain.fencing_new (config : Config) : (Domain.new config).fencing = false := by
  unfold new
  split <;> rfl

namespace Daemon

/-- The event of the domain group that is not held back any longer when the daemon goes on. -/
def applies? (d : Daemon) (input : DaemonInput) : Option GroupEvent :=
  if d.domain.fencing then none
  else
    match d.agenda with
    | [] => input.domainEvent? d.config.domainGroup
    | .replay :: _ => d.backlog.head?
    | _ => none

/-- What becomes of the domain in a step that takes up no event of its group. -/
def Reacts (d : Daemon) (now : Seconds) (input : DaemonInput) (domain : Domain) : Prop :=
  domain = d.domain ∨ domain = d.domain.setLeaving ∨
    (∃ report, input = .event (.fencing report) ∧
      domain = (d.domain.step now report.input).1.domain) ∨
    ∃ s, input = .snapshot (.ok s) ∧ domain = (d.domain.step now (.cluster s)).1.domain

/-- A step takes up the event of the domain group that has waited longest, or no such event. One
    that comes joins those that wait. -/
def TakesUp (d : Daemon) (now : Seconds) (input : DaemonInput) (d' : Daemon) : Prop :=
  let waiting := d.backlog ++ (input.domainEvent? d.config.domainGroup).toList
  match d.applies? input with
  | some event =>
    event :: d'.backlog = waiting ∧
      d'.domain = (d.handsOver now (event.input? d.daemons.running?)).domain
  | none => d'.backlog = waiting ∧ d.Reacts now input d'.domain

section

variable {d d' : Daemon} {now : Seconds} {input : DaemonInput}

theorem applies?_of_idle (idle : d.agenda = []) (input : DaemonInput) :
    d.applies? input =
      if d.domain.fencing then none else input.domainEvent? d.config.domainGroup := by
  simp [applies?, idle]

theorem applies?_of_busy {task : Task} {rest : List Task} (next : d.agenda = task :: rest)
    (hreplay : task ≠ .replay) (input : DaemonInput) : d.applies? input = none := by
  unfold applies?
  rw [next]
  cases task <;> first | exact ite_self none | exact absurd rfl hreplay

theorem domainEvent?_of_busy {task : Task} {rest : List Task} (h : d.fits input = true)
    (next : d.agenda = task :: rest) (group : GroupName) : input.domainEvent? group = none := by
  cases input with
  | event e => exact absurd rfl (not_event_of_fits h next e)
  | _ => rfl

/-- What is held back, and what is still to be looked at. Something is held back only while fencing
    is outstanding or what is held back is still to be looked at, and until then the daemon does
    nothing that could bring it more, or stop it. -/
structure Orderly (d : Daemon) : Prop where
  held : d.backlog = [] ∨ d.domain.fencing = true ∨ .replay ∈ d.agenda
  apart : .replay ∈ d.agenda → ∀ task ∈ d.agenda, task.waits = true → task = .replay

theorem Orderly.held_of_idle (h : d.Orderly) (idle : d.agenda = []) :
    d.backlog = [] ∨ d.domain.fencing = true := by
  simpa [idle] using h.held

/-- What waits, and is not the look at what is held back, comes when nothing is to be looked at. -/
theorem Orderly.held_of_waits (h : d.Orderly) {task : Task} {rest : List Task}
    (next : d.agenda = task :: rest) (hwaits : task.waits = true) (hreplay : task ≠ .replay) :
    .replay ∉ d.agenda ∧ (d.backlog = [] ∨ d.domain.fencing = true) := by
  have hnone : .replay ∉ d.agenda := fun hmem =>
    hreplay (h.apart hmem task (next ▸ List.mem_cons_self) hwaits)
  refine ⟨hnone, ?_⟩
  obtain hheld | hheld | hheld := h.held
  · exact .inl hheld
  · exact .inr hheld
  · exact absurd hheld hnone

theorem Orderly.of_empty (hheld : d.backlog = [] ∨ d.domain.fencing = true)
    (hnone : .replay ∉ d.agenda) : d.Orderly where
  held := hheld.imp_right .inl
  apart hmem := absurd hmem hnone

/-- Other tasks may take the place of the next one. -/
theorem Orderly.of_rest (h : d.Orderly) {task : Task} {rest : List Task} (tasks : List Task)
    (next : d.agenda = task :: rest) (hreplay : task ≠ .replay)
    (htasks : ∀ t ∈ tasks, t.waits = false ∨ task.waits = true ∧ t ≠ .replay)
    (hagenda : d'.agenda = tasks ++ rest) (hbacklog : d'.backlog = d.backlog)
    (hfencing : d'.domain.fencing = d.domain.fencing) : d'.Orderly := by
  have hagain : .replay ∈ tasks ++ rest → .replay ∈ d.agenda ∧ ∀ t ∈ tasks, t.waits = false := by
    intro hmem
    have hmem : .replay ∈ d.agenda := by
      rw [next]
      refine List.mem_cons_of_mem _ ((List.mem_append.1 hmem).resolve_left fun htask => ?_)
      obtain hplain | ⟨-, hne⟩ := htasks _ htask
      · cases hplain
      · exact hne rfl
    refine ⟨hmem, fun t ht => (htasks t ht).resolve_right ?_⟩
    rintro ⟨hwaits, -⟩
    exact (h.held_of_waits next hwaits hreplay).1 hmem
  refine ⟨?_, fun hmem t ht hwaits => ?_⟩
  · rw [hbacklog, hfencing, hagenda]
    refine h.held.imp_right (.imp_right fun hmem => List.mem_append_right _ ?_)
    rw [next] at hmem
    exact (List.mem_cons.1 hmem).resolve_left hreplay.symm
  · rw [hagenda] at hmem ht
    obtain ⟨hmem, hplain⟩ := hagain hmem
    obtain ht | ht := List.mem_append.1 ht
    · rw [hplain t ht] at hwaits
      cases hwaits
    · exact h.apart hmem t (next ▸ List.mem_cons_of_mem _ ht) hwaits

theorem waits_of_mem_perform {actions : List Action} {task : Task}
    (h : task ∈ actions.map Task.perform) : task.waits = false := by
  obtain ⟨a, -, rfl⟩ := List.mem_map.1 h
  rfl

/-- What the domain asks for comes before all else, and nothing new is held back. -/
theorem Orderly.handsOver (h : d.Orderly) (now : Seconds) {i? : Option DomainInput}
    (hheld : (d.handsOver now i?).backlog = [] ∨ (d.handsOver now i?).domain.fencing = true ∨
      .replay ∈ d.agenda) : (d.handsOver now i?).Orderly := by
  refine ⟨hheld.imp_right (.imp_right fun hmem => ?_), fun hmem task htask hwaits => ?_⟩
  · rw [agenda_handsOver]
    exact List.mem_append_right _ hmem
  · rw [agenda_handsOver, List.mem_append] at hmem htask
    have hreplay : .replay ∈ d.agenda := hmem.resolve_left fun hmem => by
      cases waits_of_mem_perform hmem
    obtain htask | htask := htask
    · rw [waits_of_mem_perform htask] at hwaits
      cases hwaits
    · exact h.apart hreplay task htask hwaits

theorem Orderly.depart (hheld : d.backlog = [] ∨ d.domain.fencing = true) (result : Answer) :
    (d.depart result).Orderly := by
  refine .of_empty ?_ ?_
  · rw [backlog_depart]
    obtain hdomain | hdomain := d.domain_depart result <;> rw [hdomain] <;> exact hheld
  · unfold Daemon.depart
    split <;> simp

/-- To carry out an action takes no more than a task that does not wait. -/
theorem Orderly.perform (h : d.Orderly) {a : Action} {rest : List Task}
    (next : d.agenda = .perform a :: rest) :
    (Daemon.perform { d with agenda := rest } a).1.Orderly := by
  have hrest {d' : Daemon} (tasks : List Task) (htasks : ∀ t ∈ tasks, t.waits = false)
      (hagenda : d'.agenda = tasks ++ rest) (hbacklog : d'.backlog = d.backlog)
      (hfencing : d'.domain.fencing = d.domain.fencing) : d'.Orderly :=
    h.of_rest _ next (by simp) (fun t ht => .inl (htasks t ht)) hagenda hbacklog hfencing
  cases a with
  | send flags message => exact hrest [_] (by simp; rfl) rfl rfl rfl
  | evict node => exact hrest [.evict node] (by simp [Task.waits]) rfl rfl rfl
  | setStateful => exact hrest [] (by simp) rfl rfl rfl
  | startFencing nodesJoined => exact hrest [] (by simp) rfl rfl rfl
  | left => exact hrest [] (by simp) rfl rfl rfl

/-- To take up an event brings no more to hold back than is looked at later. -/
theorem orderly_of_goes_idle (h : d.Orderly) (hidle : d.agenda = [])
    (hgoes : d.Goes now input d') : d'.Orderly := by
  cases hgoes with
  | regroups m idle =>
    obtain ⟨-, -, hbacklog, hdomain, -⟩ := d.daemonMembership_frame m now
    refine .of_empty ?_ ?_
    · rw [hbacklog, hdomain]
      exact h.held_of_idle idle
    · unfold daemonMembership
      dsimp only
      split <;> simp [first, idle, offerTask]
  | hears o daemons verdict idle received tasks evicts =>
    refine .of_empty (h.held_of_idle idle) ?_
    obtain rfl | ⟨node, -, rfl⟩ := evicts <;> simp [first, idle]
  | overlooks => exact h
  | refreshes idle => exact .of_empty (h.held_of_idle idle) (by simp [first, idle])
  | holds event idle fencing => exact .of_empty (.inr fencing) (by simp [idle])
  | applies event idle fencing =>
    refine h.handsOver now (.inl ?_)
    rw [backlog_handsOver]
    exact (h.held_of_idle idle).resolve_right (by simp [fencing])
  | reports report idle =>
    have hfirst : (d.first [.replay]).Orderly := by
      refine ⟨.inr (.inr List.mem_cons_self), fun _ task htask _ => ?_⟩
      simpa [first, idle] using htask
    exact hfirst.handsOver now (.inr (.inr List.mem_cons_self))
  | tells victim idle joined =>
    exact .of_empty (h.held_of_idle idle) (by simp [first, idle])
  | shutsDown idle => exact .depart (h.held_of_idle idle) _
  | _ => simp_all

/-- To do the next thing brings nothing new to hold back. -/
theorem orderly_of_goes_busy (h : d.Orderly) (hbusy : d.agenda ≠ [])
    (hgoes : d.Goes now input d') : d'.Orderly := by
  cases hgoes with
  | performs a rest _ next => exact h.perform next
  | catchesUp s rest next =>
    obtain ⟨hnone, hheld⟩ := h.held_of_waits next rfl (by simp)
    have hrest : Orderly { d with agenda := rest } :=
      .of_empty hheld fun hmem => hnone (next ▸ List.mem_cons_of_mem _ hmem)
    refine hrest.handsOver now ?_
    rw [backlog_handsOver]
    refine hheld.imp_right fun hfencing => .inl ?_
    exact Domain.fencing_turn (Domain.turn_step _ now (.cluster s)) hfencing (by simp)
  | replays event backlog rest _ next held fencing =>
    have hmem : .replay ∈ d.agenda := next ▸ List.mem_cons_self
    have hrest : Orderly { d with backlog } := ⟨.inr (.inr hmem), h.apart⟩
    exact hrest.handsOver now (.inr (.inr hmem))
  | proposes rest tasks _ next offers =>
    refine h.of_rest tasks next (by simp) ?_ rfl rfl rfl
    obtain rfl | ⟨o, -, rfl⟩ := offers
    · simp
    · simp [offerTask, Task.waits]
  | enters run rest _ next =>
    exact h.of_rest [.join _] next (by simp) (by simp [Task.waits]) rfl rfl rfl
  | balks run rest _ next => exact .depart (h.held_of_waits next rfl (by simp)).2 _
  | resends s purpose e rest next =>
    exact h.of_rest [.pause _, .send _ _] next (by simp) (by simp [Task.waits]) rfl rfl rfl
  | rejoins j e rest next =>
    exact h.of_rest [.pause _, .join _] next (by simp) (by simp [Task.waits]) rfl rfl rfl
  | joins j rest next => exact h.of_rest [] next (by simp) (by simp) rfl rfl rfl
  | shutOut j e rest next => exact h.of_rest [] next (by simp) (by simp) rfl rfl rfl
  | turnedAway j e rest next => exact .depart (h.held_of_waits next rfl (by simp)).2 _
  | quits result rest _ next => exact h.of_rest [] next (by simp) (by simp) rfl rfl rfl
  | passes task rest _ next plain nothingHeld nowhere =>
    by_cases hreplay : task = .replay
    · have hnothing := nothingHeld hreplay
      refine ⟨hnothing.imp_right .inl, fun hmem t ht hwaits => ?_⟩
      exact h.apart (by rw [next, hreplay]; exact List.mem_cons_self) t
        (next ▸ List.mem_cons_of_mem _ ht) hwaits
    · exact h.of_rest [] next hreplay (by simp) rfl rfl rfl
  | _ => exact absurd ‹d.agenda = []› hbusy

theorem orderly_of_goes (h : d.Orderly) (hgoes : d.Goes now input d') : d'.Orderly := by
  by_cases hidle : d.agenda = []
  · exact orderly_of_goes_idle h hidle hgoes
  · exact orderly_of_goes_busy h hidle hgoes

theorem TakesUp.of_some {event : GroupEvent} (happlies : d.applies? input = some event)
    (hbacklog : event :: d'.backlog =
      d.backlog ++ (input.domainEvent? d.config.domainGroup).toList)
    (hdomain : d'.domain = (d.handsOver now (event.input? d.daemons.running?)).domain) :
    d.TakesUp now input d' := by
  unfold TakesUp
  rw [happlies]
  exact ⟨hbacklog, hdomain⟩

theorem TakesUp.of_none (happlies : d.applies? input = none)
    (hbacklog : d'.backlog = d.backlog ++ (input.domainEvent? d.config.domainGroup).toList)
    (hreacts : d.Reacts now input d'.domain) : d.TakesUp now input d' := by
  unfold TakesUp
  rw [happlies]
  exact ⟨hbacklog, hreacts⟩

/-- An event of another kind comes to a daemon with nothing left to do. -/
theorem TakesUp.of_other (hidle : d.agenda = [])
    (hother : input.domainEvent? d.config.domainGroup = none) (hbacklog : d'.backlog = d.backlog)
    (hreacts : d.Reacts now input d'.domain) : d.TakesUp now input d' := by
  refine .of_none ?_ ?_ hreacts
  · rw [applies?_of_idle hidle, hother, ite_self]
  · rw [hother, hbacklog]
    simp

/-- The next thing to do is something else than to look at what is held back. -/
theorem TakesUp.of_task (hfits : d.fits input = true) {task : Task} {rest : List Task}
    (hnext : d.agenda = task :: rest) (hreplay : task ≠ .replay) (hbacklog : d'.backlog = d.backlog)
    (hreacts : d.Reacts now input d'.domain) : d.TakesUp now input d' := by
  refine .of_none (applies?_of_busy hnext hreplay input) ?_ hreacts
  rw [domainEvent?_of_busy hfits hnext, hbacklog]
  simp

/-- Nothing is found to be held back, or fencing is outstanding. -/
theorem TakesUp.of_nothingHeld (hfits : d.fits input = true) {rest : List Task}
    (hnext : d.agenda = .replay :: rest) (hheld : d.backlog = [] ∨ d.domain.fencing = true)
    (hbacklog : d'.backlog = d.backlog) (hreacts : d.Reacts now input d'.domain) :
    d.TakesUp now input d' := by
  refine .of_none ?_ ?_ hreacts
  · obtain hnil | hfencing := hheld
    · simp [applies?, hnext, hnil]
    · simp [applies?, hfencing]
  · rw [domainEvent?_of_busy hfits hnext, hbacklog]
    simp

theorem takesUp_of_goes_idle (h : d.Orderly) (hidle : d.agenda = [])
    (hgoes : d.Goes now input d') : d.TakesUp now input d' := by
  cases hgoes with
  | applies event idle fencing =>
    have hnil : d.backlog = [] := (h.held_of_idle idle).resolve_right (by simp [fencing])
    refine .of_some ?_ ?_ rfl
    · simp [applies?_of_idle idle, fencing, DaemonInput.domainEvent?, DaemonEvent.domainEvent?]
    · simp [hnil, DaemonInput.domainEvent?, DaemonEvent.domainEvent?]
  | holds event idle fencing =>
    refine .of_none ?_ ?_ (.inl rfl)
    · rw [applies?_of_idle idle, if_pos fencing]
    · simp [DaemonInput.domainEvent?, DaemonEvent.domainEvent?]
  | reports report idle =>
    exact .of_other idle rfl (backlog_handsOver _ _ _) (.inr (.inr (.inl ⟨report, rfl, rfl⟩)))
  | shutsDown idle =>
    exact .of_other idle rfl (d.backlog_depart _) ((d.domain_depart _).imp_right .inl)
  | regroups m idle =>
    obtain ⟨-, -, hbacklog, hdomain, -⟩ := d.daemonMembership_frame m now
    exact .of_other idle (domainEvent?_daemon _ _) hbacklog (.inl hdomain)
  | hears o daemons verdict idle =>
    exact .of_other idle (domainEvent?_daemon _ _) rfl (.inl rfl)
  | overlooks e idle other => exact .of_other idle other rfl (.inl rfl)
  | refreshes idle => exact .of_other idle rfl rfl (.inl rfl)
  | tells victim idle => exact .of_other idle rfl rfl (.inl rfl)
  | _ => simp_all

theorem takesUp_of_goes_busy (hfits : d.fits input = true) (hbusy : d.agenda ≠ [])
    (hgoes : d.Goes now input d') : d.TakesUp now input d' := by
  cases hgoes with
  | replays event backlog rest input next held fencing =>
    have happlies : d.applies? input = some event := by simp [applies?, fencing, next, held]
    refine .of_some happlies ?_ ?_
    · rw [domainEvent?_of_busy hfits next, backlog_handsOver, held]
      simp
    · cases event.input? d.daemons.running? <;> rfl
  | catchesUp s rest next =>
    exact .of_task hfits next (by simp) (backlog_handsOver _ _ _)
      (.inr (.inr (.inr ⟨s, rfl, rfl⟩)))
  | balks run rest _ next =>
    exact .of_task hfits next (by simp) (d.backlog_depart _) ((d.domain_depart _).imp_right .inl)
  | turnedAway j e rest next =>
    exact .of_task hfits next (by simp) (d.backlog_depart _) ((d.domain_depart _).imp_right .inl)
  | performs a rest _ next =>
    obtain ⟨-, hdomain, hbacklog, -⟩ := perform_frame { d with agenda := rest } a
    exact .of_task hfits next (by simp) hbacklog (.inl hdomain)
  | passes task rest _ next plain nothingHeld =>
    by_cases hreplay : task = .replay
    · exact .of_nothingHeld hfits (hreplay ▸ next) (nothingHeld hreplay) rfl (.inl rfl)
    · exact .of_task hfits next hreplay rfl (.inl rfl)
  | proposes rest tasks _ next => exact .of_task hfits next (by simp) rfl (.inl rfl)
  | enters run rest _ next => exact .of_task hfits next (by simp) rfl (.inl rfl)
  | resends s purpose e rest next => exact .of_task hfits next (by simp) rfl (.inl rfl)
  | rejoins j e rest next => exact .of_task hfits next (by simp) rfl (.inl rfl)
  | joins j rest next => exact .of_task hfits next (by simp) rfl (.inl rfl)
  | shutOut j e rest next => exact .of_task hfits next (by simp) rfl (.inl rfl)
  | quits result rest _ next => exact .of_task hfits next (by simp) rfl (.inl rfl)
  | _ => exact absurd ‹d.agenda = []› hbusy

theorem takesUp_of_goes (h : d.Orderly) (hfits : d.fits input = true)
    (hgoes : d.Goes now input d') : d.TakesUp now input d' := by
  by_cases hidle : d.agenda = []
  · exact takesUp_of_goes_idle h hidle hgoes
  · exact takesUp_of_goes_busy hfits hidle hgoes

/-- The end of a run is heard of when nothing is left to be done. -/
theorem handed?_of_endsRun (hfits : d.fits input = true) (hends : input.endsRun = true) :
    d.handed? input = some .finished := by
  have hinput : input = .event (.fencing .finished) := by
    unfold DaemonInput.endsRun at hends
    split at hends
    · rfl
    · cases hends
  subst hinput
  cases hagenda : d.agenda with
  | nil => simp [handed?, hagenda, FencingReport.input]
  | cons task rest => exact absurd rfl (not_event_of_fits hfits hagenda _)

/-- Fencing is outstanding from when it is asked for until its end is heard of. An end that is
    heard of when no fencing is outstanding is nothing to the domain. -/
theorem fencing_handed (hfits : d.fits input = true) {i : DomainInput}
    (hhanded : d.handed? input = some i) (now : Seconds) :
    (d.domain.step now i).1.actions.countP Action.startsRun +
        (d.domain.fencing && !input.endsRun).toNat =
      (d.domain.step now i).1.domain.fencing.toNat := by
  by_cases hi : i = .finished
  · subst hi
    rw [eq_finished_of_handed? hhanded]
    cases hfencing : d.domain.fencing with
    | true =>
      have hturn : d.domain.InTurn .finished := hfencing
      have hruns := Domain.runs_turn hturn (d.domain.turn_step now .finished)
      rw [hfencing, if_pos rfl] at hruns
      simpa [DaemonInput.endsRun] using hruns
    | false => simp [Domain.step, Domain.finishFencing, hfencing]
  · have hends : input.endsRun = false := by
      rw [Bool.eq_false_iff]
      intro hends
      rw [handed?_of_endsRun hfits hends, Option.some.injEq] at hhanded
      exact hi hhanded.symm
    have hturn := inTurn_of_handed? hhanded (absurd · hi)
    have hruns := Domain.runs_turn hturn (d.domain.turn_step now i)
    rw [if_neg hi] at hruns
    simpa [hends] using hruns

/-- A step keeps the account of the run that is outstanding: it is under way, or still to be
    started. -/
theorem runs_step_eq (h : d.Arranged) (hfits : d.fits input = true) (now : Seconds)
    {underway : Bool} (hruns : underway.toNat + d.runsDue = d.domain.fencing.toNat) :
    let s := d.step now input
    (!(s.2.filterMap DaemonEffect.run?).isEmpty || underway && !input.endsRun).toNat +
      s.1.runsDue = s.1.domain.fencing.toNat := by
  have hperforms := performs_step h now input
  have hsteps := d.steps_step now input
  have hstarts := runs_step h now input
  have hdue := d.runsDue_eq_countP
  have hdueAfter := (d.step now input).1.runsDue_eq_countP
  have hle := Bool.toNat_le d.domain.fencing
  dsimp only
  cases hhanded : d.handed? input with
  | some i =>
    obtain ⟨hnil, hasked⟩ := hperforms.handed i hhanded
    rw [hnil, List.countP_nil] at hdue
    have hfencing := fencing_handed hfits hhanded now
    have hunderway : underway = d.domain.fencing := by
      cases underway <;> cases hfencing : d.domain.fencing <;> simp_all
    rw [hstarts, carried?_of_toPerform_nil hnil, hdueAfter, hasked, (hsteps.handed i hhanded).1,
      hunderway, ← hfencing]
    simp [Nat.add_comm]
  | none =>
    have hends : input.endsRun = false := by
      rw [Bool.eq_false_iff]
      intro hends
      rw [handed?_of_endsRun hfits hends] at hhanded
      cases hhanded
    have hfencing : (d.step now input).1.domain.fencing = d.domain.fencing := by
      obtain hdomain | hdomain := (hsteps.kept hhanded).1 <;> rw [hdomain]
      rfl
    rw [hends, hfencing, Bool.not_false, Bool.and_true, hstarts]
    cases hcarried : d.carried? with
    | some a =>
      rw [hperforms.carried a hcarried, List.countP_cons, ← hdueAfter] at hdue
      cases a with
      | startFencing nodesJoined =>
        -- there is only one run at a time
        have hidle : underway = false := by
          cases underway with
          | false => rfl
          | true =>
            simp only [Action.startsRun, if_true, Bool.toNat_true] at hdue hruns
            omega
        simp only [Action.startsRun, if_true] at hdue
        simp only [hidle, Bool.toNat_false, Bool.or_false, List.isEmpty_cons, Bool.not_false,
          Bool.toNat_true] at hruns ⊢
        omega
      | _ => simpa [Action.startsRun, hdue] using hruns
    | none =>
      obtain hsame | ⟨hnil, victim, hexternal⟩ := hperforms.kept hcarried hhanded
      · rw [hsame, ← hdue] at hdueAfter
        simpa [hdueAfter] using hruns
      · rw [hexternal] at hdueAfter
        rw [hnil] at hdue
        simp_all [Action.startsRun, Domain.externalAction]

end

end Daemon

/-- A daemon, the events of its domain group that it has been given and those of them that it has
    taken up, and whether a fencing run is outstanding: one was started, and its end was not heard
    of. -/
structure Ledger where
  daemon : Daemon
  given : List GroupEvent := []
  applied : List GroupEvent := []
  underway : Bool := false

namespace Ledger

def new (config : Config) (overridable : Bool) : Ledger :=
  { daemon := Daemon.new config overridable }

/-- The daemon goes on. It is not given what it does not want. -/
def move (l : Ledger) (now : Seconds) (input : DaemonInput) : Ledger :=
  if l.daemon.fits input then
    let (daemon, effects) := l.daemon.step now input
    { daemon
      given := l.given ++ (input.domainEvent? l.daemon.config.domainGroup).toList
      applied := l.applied ++ (l.daemon.applies? input).toList
      underway :=
        !(effects.filterMap DaemonEffect.run?).isEmpty || l.underway && !input.endsRun }
  else l

def play (l : Ledger) (inputs : List (Seconds × DaemonInput)) : Ledger :=
  inputs.foldl (fun l timed => l.move timed.1 timed.2) l

/-- What holds of a daemon and its ledger at any time. -/
structure Sound (l : Ledger) : Prop where
  orderly : l.daemon.Orderly
  arranged : l.daemon.Arranged
  order : l.applied ++ l.daemon.backlog = l.given
  runs : l.underway.toNat + l.daemon.runsDue = l.daemon.domain.fencing.toNat

theorem sound_new (config : Config) (overridable : Bool) : (new config overridable).Sound where
  orderly := .of_empty (.inl rfl) (by simp [new, Daemon.new])
  arranged := Daemon.arranged_of_toPerform_nil rfl
  order := rfl
  runs := by simp [new, Daemon.new, Daemon.runsDue, Task.startsRun, Domain.fencing_new]

theorem Sound.move {l : Ledger} (h : l.Sound) (now : Seconds) (input : DaemonInput) :
    (l.move now input).Sound := by
  unfold Ledger.move
  split
  case isFalse => exact h
  rename_i hfits
  have hgoes := Daemon.goes_step hfits now
  refine ⟨Daemon.orderly_of_goes h.orderly hgoes,
    (Daemon.performs_step h.arranged now input).arranged, ?_,
    Daemon.runs_step_eq h.arranged hfits now h.runs⟩
  have horder := h.order
  have htakes := Daemon.takesUp_of_goes h.orderly hfits hgoes
  dsimp only [Daemon.TakesUp] at htakes ⊢
  cases happlies : l.daemon.applies? input with
  | some event =>
    rw [happlies] at htakes
    rw [Option.toList_some, List.append_assoc, List.singleton_append, htakes.1,
      ← List.append_assoc, horder]
  | none =>
    rw [happlies] at htakes
    rw [Option.toList_none, List.append_nil, htakes.1, ← List.append_assoc, horder]

theorem Sound.play {l : Ledger} (h : l.Sound) (inputs : List (Seconds × DaemonInput)) :
    (l.play inputs).Sound := by
  induction inputs generalizing l with
  | nil => exact h
  | cons timed rest ih => exact ih (h.move timed.1 timed.2)

/-- Whatever a daemon is given, and at any time, the events of its domain group that it has taken up
    and those that it holds back are those that it was given, in their order. While a fencing run is
    outstanding it takes up none. When it waits for an event and no run is outstanding, it holds
    back none. To take one up is to hand it over to the domain; no other step does more to the
    domain than to leave the group, or to tell it a report or a snapshot. -/
theorem heldBack_play (config : Config) (overridable : Bool)
    (inputs : List (Seconds × DaemonInput)) :
    let l := (new config overridable).play inputs
    l.applied ++ l.daemon.backlog = l.given ∧
      (l.underway = true → ∀ input, l.daemon.applies? input = none) ∧
      (l.daemon.agenda = [] → l.underway = l.daemon.domain.fencing ∧
        (l.underway = false → l.daemon.backlog = [])) ∧
      ∀ now input, l.daemon.fits input = true →
        (∀ event, l.daemon.applies? input = some event →
          (l.daemon.step now input).1.domain =
            (l.daemon.handsOver now (event.input? l.daemon.daemons.running?)).domain) ∧
        (l.daemon.applies? input = none →
          l.daemon.Reacts now input (l.daemon.step now input).1.domain) := by
  intro l
  have h : l.Sound := (sound_new config overridable).play inputs
  have hruns := h.runs
  refine ⟨h.order, fun hunderway input => ?_, fun hidle => ?_, fun now input hfits => ?_⟩
  · have hfencing : l.daemon.domain.fencing = true := by
      cases hfencing : l.daemon.domain.fencing with
      | true => rfl
      | false => simp [hunderway, hfencing] at hruns
    rw [Daemon.applies?, if_pos hfencing]
  · have hsame : l.underway = l.daemon.domain.fencing := by
      rw [Daemon.runsDue, hidle, List.countP_nil, Nat.add_zero] at hruns
      cases hunderway : l.underway <;> cases hfencing : l.daemon.domain.fencing <;> simp_all
    refine ⟨hsame, fun hover => ?_⟩
    exact (h.orderly.held_of_idle hidle).resolve_right (by simp [← hsame, hover])
  · have htakes := Daemon.takesUp_of_goes h.orderly hfits (Daemon.goes_step hfits now)
    dsimp only [Daemon.TakesUp] at htakes
    refine ⟨fun event happlies => ?_, fun hnone => ?_⟩
    · rw [happlies] at htakes
      exact htakes.2
    · rw [hnone] at htakes
      exact htakes.2

/-- A lone node gets as far as to fence, and its ring changes twice before it hears that it is done
    with that. -/
def fencingHeard : List (Seconds × DaemonInput) :=
  let snapshot : DaemonInput :=
    .snapshot (.ok { quorate := true, ringSeq := 1, nodes := [⟨1, "node1", true, 1⟩] })
  let event (e : GroupEvent) : DaemonInput := .event (.group Station.soleConfig.domainGroup e)
  let report : ChangeReport :=
    { seq := 1
      summary := { counts := { members := 1, joined := 1 } }
      entries := [{ node := 1, flags := NodeEntry.memberFlag }] }
  let start : Envelope := ⟨{ sender := 1, flags := .joining }, .start report⟩
  [snapshot, .answered (.ok ()), event (.ring 1 1),
   event (.membership { members := [⟨1, .join⟩], left := [], joined := [⟨1, .join⟩] }), .turn,
   .answered (.ok ()), event (.deliver 1 start.encode), .turn, .turn, event (.ring 1 2),
   event (.ring 1 3), .event (.fencing .finished), .turn, .answered (.ok ()), .turn, .turn,
   .turn].map (10, ·)

/-- Both ring changes wait until the run is over. Then they are taken up, and nothing is held back
    any more. -/
theorem heldBack_play_fencingHeard :
    let during := (new Station.soleConfig false).play (fencingHeard.take 11)
    let after := (new Station.soleConfig false).play fencingHeard
    during.underway = true ∧ during.daemon.backlog = [.ring 1 2, .ring 1 3] ∧
      during.applied ++ [.ring 1 2, .ring 1 3] = during.given ∧
      (∀ input, during.daemon.applies? input = none) ∧
      after.daemon.agenda = [] ∧ after.underway = false ∧ after.daemon.backlog = [] ∧
      after.given = during.given ∧ after.applied = after.given := by
  have hduring := heldBack_play Station.soleConfig false (fencingHeard.take 11)
  have hafter := heldBack_play Station.soleConfig false fencingHeard
  have hfacts :
      let during := (new Station.soleConfig false).play (fencingHeard.take 11)
      let after := (new Station.soleConfig false).play fencingHeard
      during.underway = true ∧ during.daemon.backlog = [.ring 1 2, .ring 1 3] ∧
        after.given = during.given ∧ after.daemon.agenda.isEmpty = true ∧
        after.underway = false := by
    decide +kernel
  -- the ledgers are named once their facts are evaluated
  generalize (new Station.soleConfig false).play (fencingHeard.take 11) = during at *
  generalize (new Station.soleConfig false).play fencingHeard = after at *
  obtain ⟨hunderway, hheld, hgiven, hidle, hover⟩ := hfacts
  rw [List.isEmpty_iff] at hidle
  have hnil := (hafter.2.2.1 hidle).2 hover
  have horder := hafter.1
  rw [hnil, List.append_nil] at horder
  exact ⟨hunderway, hheld, hheld ▸ hduring.1, hduring.2.1 hunderway, hidle, hover, hnil, hgiven,
    horder⟩

end Ledger

end ClusterFence
