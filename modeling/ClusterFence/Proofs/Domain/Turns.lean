import ClusterFence.Proofs.Changes
import ClusterFence.Proofs.Domain.Run

namespace ClusterFence

/-- The change that a START is about. -/
def Action.startSeq? : Action → Option UInt32
  | .send _ (.start report) => some report.seq
  | _ => none

/-- The change that a COMPLETE is about. -/
def Action.completeSeq? : Action → Option UInt32
  | .send _ (.complete report) => some report.seq
  | _ => none

/-- The action tells the domain neither a START nor a COMPLETE. -/
def Action.NoReport (a : Action) : Prop := a.startSeq? = none ∧ a.completeSeq? = none

/-- The daemon has to start a fencing run. -/
def Action.startsRun : Action → Bool
  | .startFencing _ => true
  | _ => false

/-- The log is told that a change was in a phase, or a run at an end, that it cannot be. -/
def Notice.OutOfTurn : Notice → Prop
  | .stuckIn _ | .noFencingToFinish => True
  | _ => False

/-- A record that is missed in the histories is no matter of turns. -/
theorem History.not_outOfTurn_of_mem_missing {h : History} {mark : HistoryMark} {node : NodeId}
    {n : Notice} (hn : n ∈ h.missing mark node) : ¬ n.OutOfTurn := by
  unfold missing at hn
  split at hn
  · simp at hn
  · rw [List.mem_singleton] at hn
    rw [hn]
    exact id

namespace Domain

/-- The domain `d'` is `d` with the same changes, as far as they were, except that members of a
    change may have started since. -/
structure Touched (d d' : Domain) : Prop where
  fencing : d'.fencing = d.fencing
  changeSeq : d'.changes.changeSeq = d.changes.changeSeq
  marks : d'.changes.pending.map Change.mark = d.changes.pending.map Change.mark
  started : ∀ c', d'.changes.current? = some c' →
    ∃ c, d.changes.current? = some c ∧ (c.allStarted = true → c'.allStarted = true)

/-- What an input does to the changes of a domain. -/
inductive Turn (d : Domain) : DomainInput → Reaction → Prop
  | stays {i r} (touched : Touched d r.domain) (other : i ≠ .finished)
      (actions : ∀ a ∈ r.actions, a.NoReport ∧ a.startsRun = false)
      (notices : ∀ n ∈ r.notices, ¬ n.OutOfTurn) : Turn d i r
  | getsOn {i r} {d' : Domain} (touched : Touched d d') (other : i ≠ .finished)
      (domain : r.domain = d'.advance.domain)
      (actions : r.actions = d'.advance.actions)
      (notices : ∀ n ∈ r.notices, n ∈ d'.advance.notices ∨ ¬ n.OutOfTurn) : Turn d i r
  | refused {m r} (fencing : r.domain.fencing = d.fencing)
      (changes : r.domain.changes =
        { d.changes with changeSeq := d.changes.changeSeq + 1 })
      (actions : r.actions = []) (notices : ∀ n ∈ r.notices, ¬ n.OutOfTurn) :
      Turn d (.membership m) r
  | queued {m r} {d' : Domain} {c : Change} (fencing : d'.fencing = d.fencing)
      (changes : d'.changes =
        { d.changes with
          changeSeq := d.changes.changeSeq + 1
          pending := c :: d.changes.pending })
      (mark : c.mark = (d.changes.changeSeq + 1, .awaitingConditions, false))
      (domain : r.domain = d'.advance.domain)
      (actions : r.actions = m.evictions.map .evict ++ d'.advance.actions)
      (notices : ∀ n ∈ r.notices, n ∈ d'.advance.notices ∨ ¬ n.OutOfTurn) :
      Turn d (.membership m) r
  | finished : Turn d .finished d.finishFencing

theorem Touched.of_eq {d d' : Domain} (hfencing : d'.fencing = d.fencing)
    (hchanges : d'.changes = d.changes) : Touched d d' where
  fencing := hfencing
  changeSeq := by rw [hchanges]
  marks := by rw [hchanges]
  started c h := ⟨c, by rwa [← hchanges], id⟩

/-- What follows after an input has been taken down are the matters of the current change. -/
theorem Turn.of_after {d d' : Domain} {i : DomainInput} {notices : List Notice}
    (htouched : Touched d d') (hother : i ≠ .finished)
    (hnotices : ∀ n ∈ notices, ¬ n.OutOfTurn) : Turn d i (.after d' notices advance) := by
  refine .getsOn htouched hother rfl rfl ?_
  intro n hn
  obtain hn | hn := List.mem_append.1 hn
  · exact .inr (hnotices n hn)
  · exact .inl hn

/-- Nothing comes of getting on, or the log is told of a change that is stuck, or our START goes
    out, or everybody has started. -/
theorem advance_cases (d : Domain) :
    d.advance = { domain := d } ∨
    (∃ c, d.fencing = false ∧ d.changes.current? = some c ∧ c.phase = .awaitingFencing ∧
      d.advance = { domain := d, notices := [.stuckIn .awaitingFencing] }) ∨
    (∃ c, d.fencing = false ∧ d.changes.current? = some c ∧ c.phase = .awaitingConditions ∧
      d.conditionsMet = true ∧ d.advance = d.sendStart c) ∨
    (∃ c, d.fencing = false ∧ d.changes.current? = some c ∧ c.phase = .awaitingStarts ∧
      c.allStarted = true ∧ d.advance = d.settle c) := by
  unfold advance
  cases hfencing : d.fencing with
  | true => simp
  | false =>
    cases hcurrent : d.changes.current? with
    | none => simp
    | some c =>
      cases hphase : c.phase with
      | awaitingConditions => cases hmet : d.conditionsMet <;> simp [hphase]
      | awaitingStarts => cases hstarted : c.allStarted <;> simp [hphase, hstarted]
      | awaitingFencing => simp [hphase]

@[simp] theorem changeSeq_advance (d : Domain) :
    d.advance.domain.changes.changeSeq = d.changes.changeSeq := by
  obtain h | ⟨c, -, -, -, h⟩ | ⟨c, -, -, -, -, h⟩ | ⟨c, -, -, -, -, h⟩ := d.advance_cases
  · rw [h]
  · rw [h]
  · rw [h]
    exact ChangeQueue.changeSeq_updateCurrent _ _
  · rw [h]
    unfold settle
    dsimp only
    split <;> simp [retireCurrent]

/-- Marking a member's START, as counted or as disallowed, touches the changes. -/
theorem touched_update {d d' : Domain} {seq : UInt32} {node : NodeId}
    {f : Participant → Participant} (hf : ∀ m, m.started = true → (f m).started = true)
    (hfencing : d'.fencing = d.fencing)
    (hchanges : d'.changes = d.changes.update seq (·.updateMember node f)) : Touched d d' where
  fencing := hfencing
  changeSeq := by rw [hchanges, ChangeQueue.changeSeq_update]
  marks := by rw [hchanges, ChangeQueue.marks_update fun c => c.mark_updateMember node f]
  started c' h := by
    rw [hchanges] at h
    obtain ⟨c, hcurrent, rfl | rfl⟩ := ChangeQueue.current?_update h
    · exact ⟨_, hcurrent, id⟩
    · exact ⟨_, hcurrent, Change.allStarted_updateMember hf⟩

theorem touched_receiveStart (d : Domain) (s : ReceivedStart) (now : Seconds) :
    Touched d (d.receiveStart s now).1 := by
  unfold receiveStart
  split
  · exact .of_eq rfl rfl
  dsimp only
  split
  · exact .of_eq rfl rfl
  split
  · refine touched_update (f := fun m => { m with disallowed := true, startFlags := s.flags })
      ?_ rfl rfl
    exact fun m hm => hm
  · refine touched_update (f := fun m => { m with started := true, startFlags := s.flags })
      ?_ rfl rfl
    exact fun m _ => rfl

theorem touched_accept (d : Domain) (e : Envelope) (now : Seconds) :
    Touched d (d.accept e now).1 := by
  unfold accept
  cases e.message with
  | protocol offer => exact .of_eq rfl rfl
  | start report => exact d.touched_receiveStart _ now
  | victimDone seq entry =>
    obtain ⟨_, h⟩ := d.receiveVictimDone_eq e.header.sender entry now
    dsimp only
    rw [h]
    exact .of_eq rfl rfl
  | complete report =>
    dsimp only [receiveComplete]
    split <;> exact .of_eq rfl rfl
  | external victim => exact .of_eq rfl rfl

theorem not_outOfTurn_accept {d : Domain} {e : Envelope} {now : Seconds} {n : Notice}
    (h : n ∈ (d.accept e now).2) : ¬ n.OutOfTurn := by
  unfold accept at h
  cases hmessage : e.message with
  | protocol offer =>
    simp only [hmessage, List.mem_singleton] at h
    rw [h]
    exact id
  | start report =>
    simp only [hmessage, receiveStart] at h
    split at h
    · simp at h
    · split at h
      · simp at h
        rw [h]
        exact id
      · split at h <;> simp at h
        rw [h]
        exact id
  | victimDone seq entry =>
    simp only [hmessage, receiveVictimDone] at h
    split at h <;> obtain h | h := List.mem_append.1 h
    · exact History.not_outOfTurn_of_mem_missing h
    · split at h <;> simp at h
      rw [h]
      exact id
    · exact History.not_outOfTurn_of_mem_missing h
    · exact History.not_outOfTurn_of_mem_missing h
  | complete report => simp [hmessage] at h
  | external victim =>
    simp only [hmessage, receiveExternal] at h
    exact History.not_outOfTurn_of_mem_missing h

theorem not_outOfTurn_removalNotices {h : History} {left : List GroupAddress} {seq : Notice}
    (hn : seq ∈ h.removalNotices left) : ¬ seq.OutOfTurn := by
  obtain ⟨a, -, hn⟩ := List.mem_flatMap.1 hn
  exact History.not_outOfTurn_of_mem_missing hn

theorem not_outOfTurn_updateNotices {v : ClusterView} {s : ClusterSnapshot} {h : History}
    {n : Notice} (hn : n ∈ v.updateNotices s h) : ¬ n.OutOfTurn := by
  obtain ⟨⟨node, t⟩, -, hn⟩ := List.mem_flatMap.1 hn
  cases t with
  | came => simp [History.stampNotices] at hn
  | went | cameBack => exact History.not_outOfTurn_of_mem_missing hn

/-- A membership change that is not the end of our own leave is refused or queued. -/
theorem turn_changeMembers (d : Domain) (m : Membership) (now : Seconds) :
    Turn d (.membership m) (d.changeMembers m now).1 := by
  unfold changeMembers
  split
  · refine .stays (.of_eq rfl rfl) (by simp) (fun a ha => ?_) (by simp)
    rw [List.mem_singleton.1 ha]
    exact ⟨⟨rfl, rfl⟩, rfl⟩
  unfold ChangeQueue.add
  cases m.stray? with
  | some node =>
    refine .refused rfl rfl rfl ?_
    intro n hn
    obtain hn | hn := List.mem_append.1 hn
    · exact not_outOfTurn_removalNotices hn
    · rw [List.mem_singleton] at hn
      rw [hn]
      exact id
  | none =>
    dsimp only [Reaction.after]
    refine .queued (c := Change.ofMembership (d.changes.changeSeq + 1) d.us m now) ?_ ?_ rfl rfl
      rfl ?_
    · rw [addVictims_fencing]
    · rw [addVictims_changes]
    intro n hn
    obtain hn | hn := List.mem_append.1 hn
    · exact .inr (not_outOfTurn_removalNotices hn)
    · exact .inl hn

/-- A membership change uses up at most one number, and nothing else does. -/
theorem changeSeq_turn {d : Domain} {i : DomainInput} {r : Reaction} (h : Turn d i r) :
    r.domain.changes.changeSeq = d.changes.changeSeq ∨
      i.isMembership = true ∧ r.domain.changes.changeSeq = d.changes.changeSeq + 1 := by
  cases h with
  | stays touched => exact .inl touched.changeSeq
  | getsOn touched _ domain => exact .inl (by rw [domain, changeSeq_advance, touched.changeSeq])
  | refused _ changes => exact .inr ⟨rfl, by rw [changes]⟩
  | queued _ changes _ domain => exact .inr ⟨rfl, by rw [domain, changeSeq_advance, changes]⟩
  | finished =>
    unfold finishFencing
    split
    · exact .inl (ChangeQueue.changeSeq_retire _)
    · exact .inl rfl

theorem changeSeq_le_of_turn {d : Domain} {i : DomainInput} {r : Reaction} (h : Turn d i r) :
    r.domain.changes.changeSeq.toNat ≤ d.changes.changeSeq.toNat + i.isMembership.toNat := by
  obtain hsame | ⟨hmembership, hnext⟩ := changeSeq_turn h
  · rw [hsame]
    exact Nat.le_add_right _ _
  · rw [hmembership, hnext, UInt32.toNat_add]
    exact Nat.mod_le _ _

/-- Every input takes one of the turns. -/
theorem turn_step (d : Domain) (now : Seconds) (i : DomainInput) :
    Turn d i (d.step now i).1 := by
  cases i with
  | membership m => exact d.turn_changeMembers m now
  | ring node seq =>
    have htouched : Touched d { d with ringNode := node, ringSeq := seq } := .of_eq rfl rfl
    exact .getsOn htouched (by simp) rfl rfl fun n hn => .inl hn
  | cluster s => exact .of_after (.of_eq rfl rfl) (by simp) fun n hn => not_outOfTurn_updateNotices hn
  | message e => exact .of_after (d.touched_accept e now) (by simp) fun n hn => not_outOfTurn_accept hn
  | fencedOutside reporter victim =>
    exact .stays (.of_eq rfl rfl) (by simp) (by simp [step]) fun n hn =>
      History.not_outOfTurn_of_mem_missing hn
  | tellExternal victim =>
    refine .stays (.of_eq rfl rfl) (by simp) (fun a ha => ?_) (by simp [step])
    rw [List.mem_singleton.1 ha]
    exact ⟨⟨rfl, rfl⟩, rfl⟩
  | attempted victim => exact .stays (.of_eq rfl rfl) (by simp) (by simp [step]) (by simp [step])
  | resolved victim how reduced =>
    refine .stays (.of_eq ?_ ?_) (by simp) ?_ ?_
    · simp [step, resolve_domain]
    · simp [step, resolve_domain]
    · intro a ha
      simp only [step, resolve] at ha
      split at ha
      · rename_i action haction
        simp only [victimDoneAction?, Option.map_eq_some_iff] at haction
        obtain ⟨_, _, rfl⟩ := haction
        rw [List.mem_singleton.1 ha]
        exact ⟨⟨rfl, rfl⟩, rfl⟩
      · simp at ha
    · intro n hn
      simp only [step, resolve] at hn
      split at hn
      · simp at hn
      · obtain hn | hn := List.mem_append.1 hn
        · exact History.not_outOfTurn_of_mem_missing hn
        · rw [List.mem_singleton.1 hn]
          exact id
  | finished => exact .finished
  | nudged => exact .getsOn (.of_eq rfl rfl) (by simp) rfl rfl fun n hn => .inl hn
  | leaving => exact .stays (.of_eq rfl rfl) (by simp) (by simp [step]) (by simp [step])

end Domain

end ClusterFence
