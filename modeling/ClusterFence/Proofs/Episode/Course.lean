import ClusterFence.Proofs.Episode.Pending

namespace ClusterFence

@[simp] theorem Action.countP_startsRun_evict (nodes : List NodeId) :
    (nodes.map evict).countP startsRun = 0 := by
  rw [List.countP_eq_zero]
  intro a ha
  obtain ⟨node, -, rfl⟩ := List.mem_map.1 ha
  exact Bool.false_ne_true

/-- The change of the outage is the one that the domain has completed last. -/
def Outage.Retired (o : Outage) (q : ChangeQueue) : Prop :=
  ∃ c, q.started = some c ∧ c.seq = q.changeSeq ∧ c.members.map (·.node) = o.survivors

/-- How far the survivor `p` has got, by its domain, by what it has said and by how often it asked
    for a fencing run. A survivor waits for the conditions, or for the STARTs of all; else it is
    through with the change, or it is the master, and fences before it is. -/
inductive Outage.Course (o : Outage) (p : NodeId) (order : List Posted) (d : Domain)
    (said : List (MessageFlags × Message)) (asked : Nat) : Prop
  | waiting {c} (current : o.Current p order d c) (phase : c.phase = .awaitingConditions)
      (fencing : d.fencing = false) (said_eq : said = []) (asked_eq : asked = 0)
  | starting {c start} (current : o.Current p order d c) (phase : c.phase = .awaitingStarts)
      (fencing : d.fencing = false) (said_eq : said = [start]) (isStart : start.2.kind = .start)
      (asked_eq : asked = 0)
  | fencing {c start rest} (current : o.Current p order d c) (allStarted : c.allStarted = true)
      (fencing : d.fencing = true) (elects : o.Elects order p) (master : d.master = p)
      (said_eq : said = start :: rest) (isStart : start.2.kind = .start)
      (reports : ∀ x ∈ rest, x.2.kind = .victimDone) (asked_eq : asked = 1)
  | deferring {start} (pending : d.changes.pending = []) (retired : o.Retired d.changes)
      (fencing : d.fencing = false) (elects : o.Elects order d.master)
      (other : d.master ≠ p) (said_eq : said = [start]) (isStart : start.2.kind = .start)
      (asked_eq : asked = 0)
  | finished {start rest} (pending : d.changes.pending = []) (retired : o.Retired d.changes)
      (fencing : d.fencing = false) (elects : o.Elects order p) (master : d.master = p)
      (said_eq : said = start :: rest) (isStart : start.2.kind = .start)
      (others : ∀ x ∈ rest, x.2.kind ≠ .start)
      (complete : ∃ x ∈ rest, x.2.kind = .complete) (asked_eq : asked = 1)

/-- The survivor's course once a reaction is carried out. -/
def Outage.CourseAfter (o : Outage) (p : NodeId) (order : List Posted) (r : Reaction)
    (said : List (MessageFlags × Message)) (asked : Nat) : Prop :=
  o.Course p order r.domain (said ++ Action.sent r.actions)
    (asked + r.actions.countP Action.startsRun)

namespace Domain

/-- There is nothing to get on with. -/
def Idle (d : Domain) : Prop := d.advance = { domain := d }

variable {d : Domain}

theorem idle_of_fencing (h : d.fencing = true) : d.Idle := by
  unfold Idle advance
  rw [h]
  rfl

theorem idle_of_pending_nil (h : d.changes.pending = []) : d.Idle := by
  unfold Idle advance ChangeQueue.current?
  rw [h]
  cases d.fencing <;> rfl

/-- To get on with the only change once more takes another START, or other conditions. -/
theorem idle_of_not_allStarted {c : Change} (hcurrent : d.changes.current? = some c)
    (hphase : c.phase = .awaitingStarts) (hmissing : c.allStarted = false) : d.Idle := by
  unfold Idle advance
  rw [hcurrent]
  cases d.fencing <;> simp [hphase, hmissing]

theorem idle_of_not_conditionsMet {c : Change} (hcurrent : d.changes.current? = some c)
    (hphase : c.phase = .awaitingConditions) (hunmet : d.conditionsMet = false) : d.Idle := by
  unfold Idle advance
  rw [hcurrent]
  cases d.fencing <;> simp [hphase, hunmet]

theorem advance_eq_sendStart {c : Change} (hfencing : d.fencing = false)
    (hcurrent : d.changes.current? = some c) (hphase : c.phase = .awaitingConditions)
    (hmet : d.conditionsMet = true) : d.advance = d.sendStart c := by
  simp [advance, hfencing, hcurrent, hphase, hmet]

theorem advance_eq_settle {c : Change} (hfencing : d.fencing = false)
    (hcurrent : d.changes.current? = some c) (hphase : c.phase = .awaitingStarts)
    (hall : c.allStarted = true) : d.advance = d.settle c := by
  simp [advance, hfencing, hcurrent, hphase, hall]

/-- Met conditions are something to get on with. -/
theorem not_idle_of_conditionsMet {c : Change} (hfencing : d.fencing = false)
    (hcurrent : d.changes.current? = some c) (hphase : c.phase = .awaitingConditions)
    (hmet : d.conditionsMet = true) : ¬ d.Idle := by
  intro hidle
  unfold Idle at hidle
  rw [advance_eq_sendStart hfencing hcurrent hphase hmet] at hidle
  have hactions := congrArg Reaction.actions hidle
  simp [sendStart] at hactions

/-- So are the STARTs of all. -/
theorem not_idle_of_allStarted {c : Change} (hfencing : d.fencing = false)
    (hcurrent : d.changes.current? = some c) (hphase : c.phase = .awaitingStarts)
    (hall : c.allStarted = true) : ¬ d.Idle := by
  intro hidle
  unfold Idle at hidle
  rw [advance_eq_settle hfencing hcurrent hphase hall] at hidle
  have hactions := congrArg Reaction.actions hidle
  unfold settle at hactions
  dsimp only at hactions
  split at hactions <;> simp at hactions

end Domain

namespace Outage

variable {o : Outage} {p : NodeId} {order : List Posted} {d d' : Domain} {c : Change}
  {said : List (MessageFlags × Message)} {asked : Nat}

/-- The current change is the one that is retired. -/
theorem Current.retired (h : o.Current p order d c) : o.Retired d.changes.retire := by
  refine ⟨c, ?_, ?_, h.nodes⟩
  · unfold ChangeQueue.retire
    rw [h.pending]
  · rw [ChangeQueue.changeSeq_retire]
    exact h.seq

/-- Our START goes out when the conditions are met; before it is in the order it is missing. -/
theorem Current.advance_conditions (h : o.Current p order d c) (hp : p ∈ o.survivors)
    (hphase : c.phase = .awaitingConditions) (hfencing : d.fencing = false)
    (hsilent : startFlags? order p = none) :
    o.CourseAfter p order d.advance [] 0 ∧ d.advance.domain.Idle := by
  cases hmet : d.conditionsMet with
  | false =>
    have hidle := Domain.idle_of_not_conditionsMet h.current? hphase hmet
    rw [Domain.Idle] at hidle
    rw [hidle]
    exact ⟨.waiting h hphase hfencing rfl rfl, hidle⟩
  | true =>
    have hadvance := Domain.advance_eq_sendStart hfencing h.current? hphase hmet
    have hcurrent : o.Current p order (d.sendStart c).domain
        { c with sentStart := true, phase := .awaitingStarts } :=
      h.updateCurrent ({ · with sentStart := true, phase := .awaitingStarts }) rfl rfl rfl rfl rfl
    have hmissing := hcurrent.not_allStarted hp hsilent
    rw [hadvance]
    refine ⟨.starting hcurrent rfl hfencing rfl rfl rfl, ?_⟩
    exact Domain.idle_of_not_allStarted hcurrent.current? rfl hmissing

/-- The change is settled as soon as all have started. -/
theorem Current.advance_starts (h : o.Current p order d c) (hus : d.us = p)
    (hphase : c.phase = .awaitingStarts) (hfencing : d.fencing = false)
    {start : MessageFlags × Message} (hstart : start.2.kind = .start) :
    o.CourseAfter p order d.advance [start] 0 ∧ d.advance.domain.Idle := by
  cases hall : c.allStarted with
  | false =>
    have hidle := Domain.idle_of_not_allStarted h.current? hphase hall
    rw [Domain.Idle] at hidle
    rw [hidle]
    exact ⟨.starting h hphase hfencing rfl hstart rfl, hidle⟩
  | true =>
    have helects := h.elects hall
    have hadvance := Domain.advance_eq_settle hfencing h.current? hphase hall
    rw [hadvance]
    unfold CourseAfter Domain.settle
    dsimp only
    by_cases hmaster : c.electMaster = p
    · rw [hus, if_pos (beq_iff_eq.2 hmaster)]
      have hcurrent : o.Current p order
          { d with
            master := c.electMaster
            changes := d.changes.updateCurrent ({ · with phase := .awaitingFencing })
            fencing := true } { c with phase := .awaitingFencing } :=
        h.updateCurrent ({ · with phase := .awaitingFencing }) rfl rfl rfl rfl rfl
      rw [hmaster] at helects
      refine ⟨.fencing hcurrent hall rfl helects hmaster rfl hstart ?_ rfl, ?_⟩
      · intro x hx
        cases hx
      · exact Domain.idle_of_fencing rfl
    · rw [hus, if_neg (mt beq_iff_eq.1 hmaster)]
      have hpending (d' : Domain) : d'.retireCurrent.changes.pending = [] := by
        simp [Domain.retireCurrent]
      have hcurrent : o.Current p order
          { d with
            master := c.electMaster
            changes := d.changes.updateCurrent ({ · with phase := .awaitingFencing }) }
          { c with phase := .awaitingFencing } :=
        h.updateCurrent ({ · with phase := .awaitingFencing }) rfl rfl rfl rfl rfl
      refine ⟨.deferring (hpending _) hcurrent.retired hfencing helects hmaster rfl hstart rfl, ?_⟩
      exact Domain.idle_of_pending_nil (hpending _)

namespace Course

/-- A later place in the order takes nothing back. -/
theorem append (h : o.Course p order d said asked) (more : List Posted) :
    o.Course p (order ++ more) d said asked := by
  cases h with
  | waiting current phase fencing said_eq asked_eq =>
    exact .waiting (current.append more) phase fencing said_eq asked_eq
  | starting current phase fencing said_eq isStart asked_eq =>
    exact .starting (current.append more) phase fencing said_eq isStart asked_eq
  | fencing current allStarted fencing elects master said_eq isStart reports asked_eq =>
    exact .fencing (current.append more) allStarted fencing (elects.append more) master said_eq
      isStart reports asked_eq
  | deferring pending retired fencing elects other said_eq isStart asked_eq =>
    exact .deferring pending retired fencing (elects.append more) other said_eq isStart asked_eq
  | finished pending retired fencing elects master said_eq isStart others complete asked_eq =>
    exact .finished pending retired fencing (elects.append more) master said_eq isStart others
      complete asked_eq

/-- Nothing but the changes, the fencing flag and the master matters. -/
theorem of_eq (h : o.Course p order d said asked) (hchanges : d'.changes = d.changes)
    (hfencing : d'.fencing = d.fencing) (hmaster : d'.master = d.master) :
    o.Course p order d' said asked := by
  cases h with
  | waiting current phase fencing said_eq asked_eq =>
    exact .waiting (current.of_changes_eq hchanges) phase (hfencing.trans fencing) said_eq asked_eq
  | starting current phase fencing said_eq isStart asked_eq =>
    exact .starting (current.of_changes_eq hchanges) phase (hfencing.trans fencing) said_eq isStart
      asked_eq
  | fencing current allStarted fencing elects master said_eq isStart reports asked_eq =>
    exact .fencing (current.of_changes_eq hchanges) allStarted (hfencing.trans fencing) elects
      (hmaster.trans master) said_eq isStart reports asked_eq
  | deferring pending retired fencing elects other said_eq isStart asked_eq =>
    rw [← hchanges] at pending retired
    rw [← hmaster] at elects other
    exact .deferring pending retired (hfencing.trans fencing) elects other said_eq isStart asked_eq
  | finished pending retired fencing elects master said_eq isStart others complete asked_eq =>
    rw [← hchanges] at pending retired
    exact .finished pending retired (hfencing.trans fencing) elects (hmaster.trans master) said_eq
      isStart others complete asked_eq

/-- No other change is pending than the one that the outage brings. -/
theorem current_or_nil (h : o.Course p order d said asked) :
    (∃ c, o.Current p order d c) ∨ d.changes.pending = [] := by
  cases h with
  | waiting current => exact .inl ⟨_, current⟩
  | starting current => exact .inl ⟨_, current⟩
  | fencing current => exact .inl ⟨_, current⟩
  | deferring pending => exact .inr pending
  | finished pending => exact .inr pending

/-- A survivor that fences was elected, and no START can count for its change any more. -/
theorem of_fencing (h : o.Course p order d said asked) (hfencing : d.fencing = true) :
    o.Elects order p ∧ ∃ c, o.Current p order d c ∧ c.allStarted = true := by
  cases h with
  | waiting _ _ fencing => simp [fencing] at hfencing
  | starting _ _ fencing => simp [fencing] at hfencing
  | fencing current allStarted fencing elects => exact ⟨elects, _, current, allStarted⟩
  | deferring _ _ fencing => simp [fencing] at hfencing
  | finished _ _ fencing => simp [fencing] at hfencing

/-- A survivor says one START, before anything else. -/
theorem said_cases (h : o.Course p order d said asked) : said = [] ∨
    ∃ start rest, said = start :: rest ∧ start.2.kind = .start ∧ ∀ x ∈ rest, x.2.kind ≠ .start := by
  cases h with
  | waiting current phase fencing said_eq => exact .inl said_eq
  | starting current phase fencing said_eq isStart =>
    exact .inr ⟨_, _, said_eq, isStart, by simp⟩
  | fencing current allStarted fencing elects master said_eq isStart reports =>
    refine .inr ⟨_, _, said_eq, isStart, ?_⟩
    intro x hx
    rw [reports x hx]
    exact MessageKind.noConfusion
  | deferring pending retired fencing elects other said_eq isStart =>
    exact .inr ⟨_, _, said_eq, isStart, by simp⟩
  | finished pending retired fencing elects master said_eq isStart others =>
    exact .inr ⟨_, _, said_eq, isStart, others⟩

/-- Who says anything but a START was elected. -/
theorem elects_of_not_start (h : o.Course p order d said asked) {x : MessageFlags × Message}
    (hx : x ∈ said) (hkind : x.2.kind ≠ .start) : o.Elects order p := by
  cases h with
  | waiting current phase fencing said_eq => simp [said_eq] at hx
  | starting current phase fencing said_eq isStart =>
    rw [said_eq, List.mem_singleton] at hx
    rw [hx] at hkind
    exact absurd isStart hkind
  | fencing current allStarted fencing elects => exact elects
  | deferring pending retired fencing elects other said_eq isStart =>
    rw [said_eq, List.mem_singleton] at hx
    rw [hx] at hkind
    exact absurd isStart hkind
  | finished pending retired fencing elects => exact elects

/-- Who asked for a fencing run did so once, and was elected. -/
theorem asked_le_one (h : o.Course p order d said asked) : asked ≤ 1 := by
  cases h <;> omega

theorem elects_of_asked (h : o.Course p order d said asked) (hasked : 0 < asked) :
    o.Elects order p := by
  cases h with
  | waiting _ _ _ _ asked_eq => omega
  | starting _ _ _ _ _ asked_eq => omega
  | fencing current allStarted fencing elects => exact elects
  | deferring _ _ _ _ _ _ _ asked_eq => omega
  | finished pending retired fencing elects => exact elects

/-- Who says more than its START has asked for a fencing run. -/
theorem asked_of_not_start (h : o.Course p order d said asked) {x : MessageFlags × Message}
    (hx : x ∈ said) (hkind : x.2.kind ≠ .start) : asked = 1 := by
  cases h with
  | waiting current phase fencing said_eq => simp [said_eq] at hx
  | starting current phase fencing said_eq isStart =>
    rw [said_eq, List.mem_singleton] at hx
    rw [hx] at hkind
    exact absurd isStart hkind
  | fencing current allStarted fencing elects master said_eq isStart reports asked_eq =>
    exact asked_eq
  | deferring pending retired fencing elects other said_eq isStart =>
    rw [said_eq, List.mem_singleton] at hx
    rw [hx] at hkind
    exact absurd isStart hkind
  | finished pending retired fencing elects master said_eq isStart others complete asked_eq =>
    exact asked_eq

/-- To get on takes a survivor at most one stage further, and leaves nothing to get on with. -/
theorem advance (h : o.Course p order d said asked) (hp : p ∈ o.survivors) (hus : d.us = p)
    (hsilent : said = [] → startFlags? order p = none) :
    o.CourseAfter p order d.advance said asked ∧ d.advance.domain.Idle := by
  have hstays : d.Idle → o.CourseAfter p order d.advance said asked ∧ d.advance.domain.Idle := by
    intro hidle
    rw [show d.advance = { domain := d } from hidle]
    refine ⟨?_, hidle⟩
    unfold CourseAfter
    rw [Action.sent, List.append_nil]
    exact h
  cases h with
  | waiting current phase fencing said_eq asked_eq =>
    have hnone := hsilent said_eq
    rw [said_eq, asked_eq]
    exact current.advance_conditions hp phase fencing hnone
  | starting current phase fencing said_eq isStart asked_eq =>
    rw [said_eq, asked_eq]
    exact current.advance_starts hus phase fencing isStart
  | fencing current allStarted fencing => exact hstays (Domain.idle_of_fencing fencing)
  | deferring pending => exact hstays (Domain.idle_of_pending_nil pending)
  | finished pending => exact hstays (Domain.idle_of_pending_nil pending)

end Course

end Outage

end ClusterFence
