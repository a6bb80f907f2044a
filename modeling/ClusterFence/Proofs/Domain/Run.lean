import ClusterFence.Domain.Input

namespace ClusterFence

theorem Action.sent_append (first later : List Action) :
    sent (first ++ later) = sent first ++ sent later := by
  induction first with
  | nil => rfl
  | cons a rest ih => cases a <;> simp [sent, ih]

@[simp] theorem Action.sent_evict (nodes : List NodeId) : sent (nodes.map .evict) = [] := by
  induction nodes with
  | nil => rfl
  | cons node rest ih => exact ih

def DomainInput.isMembership : DomainInput → Bool
  | .membership _ => true
  | _ => false

namespace Domain

/-- The domain after inputs, each at its own time of the domain's clock. -/
def play (d : Domain) : List (Seconds × DomainInput) → Domain
  | [] => d
  | (now, i) :: rest => (d.step now i).1.domain.play rest

theorem play_append (d : Domain) (inputs more : List (Seconds × DomainInput)) :
    d.play (inputs ++ more) = (d.play inputs).play more := by
  induction inputs generalizing d with
  | nil => rfl
  | cons timed rest ih => exact ih _

/-- What every input preserves holds after a run when it held before. -/
theorem play_induction {P : Domain → Prop}
    (hstep : ∀ d now i, P d → P (d.step now i).1.domain) {d : Domain} (h : P d)
    (inputs : List (Seconds × DomainInput)) : P (d.play inputs) := by
  induction inputs generalizing d with
  | nil => exact h
  | cons timed rest ih => exact ih (hstep d timed.1 timed.2 h)

/-- A domain starts without changes. -/
theorem new_changes (config : Config) : (new config).changes = {} := by
  unfold new
  split <;> rfl

theorem advance_of_fencing {d : Domain} (hfencing : d.fencing = true) :
    d.advance = { domain := d } := by
  unfold advance
  rw [if_pos hfencing]

/-- Getting on with the current change touches the queue of changes, the master, the fencing flag
    and whether we are still joining, and nothing else. -/
theorem advance_eq (d : Domain) : ∃ changes master fencing joining,
    d.advance.domain = { d with changes, master, fencing, joining } := by
  unfold advance
  split
  · exact ⟨_, _, _, _, rfl⟩
  split
  · exact ⟨_, _, _, _, rfl⟩
  split
  · split <;> exact ⟨_, _, _, _, rfl⟩
  · split
    · unfold settle
      dsimp only
      split <;> exact ⟨_, _, _, _, rfl⟩
    · exact ⟨_, _, _, _, rfl⟩
  · exact ⟨_, _, _, _, rfl⟩

section

variable (d : Domain)

@[simp] theorem advance_config : d.advance.domain.config = d.config := by
  obtain ⟨_, _, _, _, h⟩ := d.advance_eq
  rw [h]

@[simp] theorem advance_us : d.advance.domain.us = d.us := by
  unfold us
  rw [advance_config]

@[simp] theorem advance_history : d.advance.domain.history = d.history := by
  obtain ⟨_, _, _, _, h⟩ := d.advance_eq
  rw [h]

@[simp] theorem advance_victims : d.advance.domain.victims = d.victims := by
  obtain ⟨_, _, _, _, h⟩ := d.advance_eq
  rw [h]

@[simp] theorem advance_cluster : d.advance.domain.cluster = d.cluster := by
  obtain ⟨_, _, _, _, h⟩ := d.advance_eq
  rw [h]

@[simp] theorem advance_ringSeq : d.advance.domain.ringSeq = d.ringSeq := by
  obtain ⟨_, _, _, _, h⟩ := d.advance_eq
  rw [h]

@[simp] theorem advance_initComplete : d.advance.domain.initComplete = d.initComplete := by
  obtain ⟨_, _, _, _, h⟩ := d.advance_eq
  rw [h]

end

@[simp] theorem conditionsMet_advance (d : Domain) :
    d.advance.domain.conditionsMet = d.conditionsMet := by
  simp [conditionsMet]

/-- A START is taken down in the queue of changes and in the histories. -/
theorem receiveStart_eq (d : Domain) (s : ReceivedStart) (now : Seconds) : ∃ changes history,
    (d.receiveStart s now).1 = { d with changes, history } := by
  unfold receiveStart
  split
  · exact ⟨_, _, rfl⟩
  · dsimp only
    split
    · exact ⟨_, _, rfl⟩
    · split <;> exact ⟨_, _, rfl⟩

/-- After a START the histories are as the search for its change left them. If it counts, they also
    note that its sender has started, and what it reports. -/
theorem history_receiveStart (d : Domain) (s : ReceivedStart) (now : Seconds) :
    let found := (s.find d.us d.changes d.history).2
    (d.receiveStart s now).1.history = found ∨
      (d.receiveStart s now).1.history =
        (found.recordStart s.sender now).merge s.report.entries := by
  unfold receiveStart
  split
  · rename_i history heq
    rw [heq]
    exact .inl rfl
  · rename_i seq history heq
    rw [heq]
    dsimp only
    split
    · exact .inl rfl
    · split
      · exact .inl rfl
      · exact .inr rfl

/-- A report about a victim takes that victim out, whoever sent it. -/
theorem receiveVictimDone_eq (d : Domain) (sender : NodeId) (entry : NodeEntry)
    (now : Seconds) : ∃ history, (d.receiveVictimDone sender entry now).1 =
      { d with history, victims := d.victims.erase entry.node } := by
  unfold receiveVictimDone
  dsimp only
  split <;> exact ⟨_, rfl⟩

/-- The domain after a fencing run has dealt with a victim does not depend on whether there is
    anything to report. -/
theorem resolve_domain (d : Domain) (victim : NodeId) (how : Resolution) (reduced : Bool)
    (now : Seconds) :
    (d.resolve victim how reduced now).domain =
      { d with
        history := d.history.recordFenced victim d.us how.code now
        victims := if reduced then d.victims.erase victim else d.victims.markResolved victim } := by
  unfold resolve
  dsimp only
  split <;> rfl

/-- A change brings victims, and uses up the configured nodes when we join. -/
theorem addVictims_eq (d : Domain) (c : Change) : ∃ initial configured, d.addVictims c =
    { d with
      victims := (d.victims.addFailed c d.nameOf).addInitial c initial d.cluster
      configured } := by
  unfold addVictims
  dsimp only
  split
  · exact ⟨_, _, rfl⟩
  · exact ⟨[], _, rfl⟩

@[simp] theorem addVictims_changes (d : Domain) (c : Change) :
    (d.addVictims c).changes = d.changes := by
  obtain ⟨_, _, h⟩ := d.addVictims_eq c
  rw [h]

@[simp] theorem addVictims_fencing (d : Domain) (c : Change) :
    (d.addVictims c).fencing = d.fencing := by
  obtain ⟨_, _, h⟩ := d.addVictims_eq c
  rw [h]

@[simp] theorem addVictims_history (d : Domain) (c : Change) :
    (d.addVictims c).history = d.history := by
  obtain ⟨_, _, h⟩ := d.addVictims_eq c
  rw [h]

@[simp] theorem addVictims_cluster (d : Domain) (c : Change) :
    (d.addVictims c).cluster = d.cluster := by
  obtain ⟨_, _, h⟩ := d.addVictims_eq c
  rw [h]

@[simp] theorem addVictims_config (d : Domain) (c : Change) :
    (d.addVictims c).config = d.config := by
  obtain ⟨_, _, h⟩ := d.addVictims_eq c
  rw [h]

@[simp] theorem addVictims_leaving (d : Domain) (c : Change) :
    (d.addVictims c).leaving = d.leaving := by
  obtain ⟨_, _, h⟩ := d.addVictims_eq c
  rw [h]

/-- A message is taken down in the changes, the histories, the victims, and whether a COMPLETE has
    counted us in. -/
theorem accept_eq (d : Domain) (e : Envelope) (now : Seconds) :
    ∃ changes history victims initComplete,
      (d.accept e now).1 = { d with changes, history, victims, initComplete } := by
  unfold accept
  cases e.message with
  | protocol offer => exact ⟨_, _, _, _, rfl⟩
  | start report =>
    obtain ⟨_, _, h⟩ := d.receiveStart_eq
      { sender := e.header.sender, flags := e.header.flags, report } now
    exact ⟨_, _, _, _, h⟩
  | victimDone seq entry =>
    obtain ⟨_, h⟩ := d.receiveVictimDone_eq e.header.sender entry now
    exact ⟨_, _, _, _, h⟩
  | complete report =>
    dsimp only [receiveComplete]
    split <;> exact ⟨_, _, _, _, rfl⟩
  | external victim => exact ⟨_, _, _, _, rfl⟩

theorem accept_config (d : Domain) (e : Envelope) (now : Seconds) :
    (d.accept e now).1.config = d.config := by
  obtain ⟨_, _, _, _, h⟩ := d.accept_eq e now
  rw [h]

/-- No input changes the configuration, and so a domain stays that of its node. -/
theorem config_step (d : Domain) (now : Seconds) (i : DomainInput) :
    (d.step now i).1.domain.config = d.config := by
  cases i with
  | membership m =>
    simp only [step, changeMembers]
    split
    · rfl
    · split
      · rfl
      · simp [Reaction.after]
  | ring node seq => simp [step, changeRing]
  | cluster s => simp [step, updateCluster, Reaction.after]
  | message e => simp [step, receive, Reaction.after, accept_config]
  | fencedOutside reporter victim => rfl
  | tellExternal victim => rfl
  | attempted victim => rfl
  | resolved victim how reduced => simp [step, resolve_domain]
  | finished =>
    simp only [step, finishFencing]
    split <;> rfl
  | nudged => simp [step]
  | leaving => rfl

theorem us_step (d : Domain) (now : Seconds) (i : DomainInput) :
    (d.step now i).1.domain.us = d.us := by
  unfold us
  rw [config_step]

end Domain

end ClusterFence
