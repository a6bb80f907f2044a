import ClusterFence.Proofs.Domain.Run
import ClusterFence.Proofs.Victims

namespace ClusterFence

/-- The report flags the node as a member of its change. -/
def ChangeReport.countsIn (r : ChangeReport) (node : NodeId) : Bool :=
  r.entries.any fun e => e.node == node && e.isMember

/-- The inputs by which a domain forgets the victim `victim`. -/
def DomainInput.Forgets (d : Domain) (victim : NodeId) : DomainInput → Prop
  | .message e =>
    match e.message with
    | .victimDone _ entry => entry.node = victim
    | .complete report => d.initComplete = false ∧ report.countsIn d.us = true
    | _ => False
  | .resolved node _ reduced => node = victim ∧ reduced = true
  | _ => False

namespace Domain

/-- A COMPLETE empties the victims when it is the first that counts us in, and leaves them alone
    otherwise. -/
theorem receiveComplete_victims (d : Domain) (report : ChangeReport) :
    (d.receiveComplete report).victims =
      if d.initComplete = false ∧ report.countsIn d.us = true then {} else d.victims := by
  unfold receiveComplete ChangeReport.countsIn
  cases d.initComplete <;> simp only [Bool.not_false, Bool.not_true, Bool.true_and,
    Bool.false_and, true_and, false_and, Bool.false_eq_true, if_false, reduceCtorEq]
  split <;> rfl

theorem receiveComplete_initComplete (d : Domain) (report : ChangeReport)
    (h : d.initComplete = true) : (d.receiveComplete report).initComplete = true := by
  simp [receiveComplete, h]

theorem receiveComplete_initComplete_of_countsIn (d : Domain) {report : ChangeReport}
    (h : report.countsIn d.us = true) : (d.receiveComplete report).initComplete = true := by
  unfold ChangeReport.countsIn at h
  cases hd : d.initComplete <;> simp [receiveComplete, hd, h]

theorem receive_victims (d : Domain) (e : Envelope) (now : Seconds) :
    (d.receive e now).domain.victims =
      match e.message with
      | .victimDone _ entry => d.victims.erase entry.node
      | .complete report => (d.receiveComplete report).victims
      | _ => d.victims := by
  unfold receive Reaction.after
  rw [advance_victims]
  unfold accept
  cases e.message with
  | protocol offer => rfl
  | start report =>
    obtain ⟨_, _, h⟩ := d.receiveStart_eq ⟨e.header.sender, e.header.flags, report⟩ now
    show (d.receiveStart _ now).1.victims = d.victims
    rw [h]
  | victimDone seq entry =>
    obtain ⟨_, h⟩ := d.receiveVictimDone_eq e.header.sender entry now
    show (d.receiveVictimDone _ entry now).1.victims = d.victims.erase entry.node
    rw [h]
  | complete report => rfl
  | external victim => rfl

/-- A membership change only adds victims, each node once. -/
theorem changeMembers_victims (d : Domain) (m : Membership) (now : Seconds) :
    (∀ node ∈ d.victims.ids, node ∈ (d.changeMembers m now).1.domain.victims.ids) ∧
      (d.victims.ids.Nodup → (d.changeMembers m now).1.domain.victims.ids.Nodup) := by
  unfold changeMembers
  split
  · exact ⟨fun _ h => h, id⟩
  dsimp only
  split
  · exact ⟨fun _ h => h, id⟩
  · rename_i c _
    simp only [Reaction.after, advance_victims]
    obtain ⟨initial, _, h⟩ := addVictims_eq
      { d with
        changes := (d.changes.add d.us m d.history now).queue
        history := (d.changes.add d.us m d.history now).history } c
    rw [h]
    refine ⟨fun node hnode => ?_, fun hnodup => ?_⟩
    · exact Victims.mem_ids_addInitial (Victims.mem_ids_addFailed.2 (.inl hnode)) c initial _
    · exact Victims.nodup_ids_addInitial (Victims.nodup_ids_addFailed hnodup c _) c initial _

/-- A victim is forgotten by exactly the inputs that forget it, as no node is listed twice. -/
theorem not_mem_ids_step_iff {d : Domain} (hnodup : d.victims.ids.Nodup) {victim : NodeId}
    (hvictim : victim ∈ d.victims.ids) (now : Seconds) (i : DomainInput) :
    victim ∉ (d.step now i).1.domain.victims.ids ↔ i.Forgets d victim := by
  have herase (node : NodeId) : victim ∉ d.victims.ids.erase node ↔ node = victim := by
    rw [hnodup.mem_erase_iff]
    grind
  cases i with
  | membership m =>
    have h := (d.changeMembers_victims m now).1 victim hvictim
    simp [step, DomainInput.Forgets, h]
  | message e =>
    simp only [step, receive_victims, DomainInput.Forgets]
    cases e.message with
    | victimDone seq entry => simp only [Victims.ids_erase, herase]
    | complete report =>
      simp only [receiveComplete_victims]
      split <;> simp_all
    | _ => simp [hvictim]
  | resolved node how reduced =>
    cases reduced with
    | true => simp [step, resolve_domain, DomainInput.Forgets, herase]
    | false => simp [step, resolve_domain, DomainInput.Forgets, hvictim]
  | ring node seq => simp [step, changeRing, DomainInput.Forgets, hvictim]
  | cluster s => simp [step, updateCluster, Reaction.after, DomainInput.Forgets, hvictim]
  | finished =>
    simp only [step, DomainInput.Forgets, finishFencing]
    split <;> simp [retireCurrent, hvictim]
  | nudged => simp [step, DomainInput.Forgets, hvictim]
  | fencedOutside _ _ | tellExternal _ | attempted _ | leaving =>
    simp [step, receiveExternal, attempt, setLeaving, DomainInput.Forgets, hvictim]

theorem nodup_ids_step {d : Domain} (hnodup : d.victims.ids.Nodup) (now : Seconds)
    (i : DomainInput) : (d.step now i).1.domain.victims.ids.Nodup := by
  cases i with
  | membership m => exact (d.changeMembers_victims m now).2 hnodup
  | message e =>
    simp only [step, receive_victims]
    cases e.message with
    | victimDone seq entry => simpa using hnodup.erase entry.node
    | complete report =>
      simp only [receiveComplete_victims]
      split
      · simp
      · exact hnodup
    | _ => exact hnodup
  | resolved node how reduced =>
    cases reduced with
    | true => simpa [step, resolve_domain] using hnodup.erase node
    | false => simpa [step, resolve_domain] using hnodup
  | ring node seq => simpa [step, changeRing] using hnodup
  | cluster s => simpa [step, updateCluster, Reaction.after] using hnodup
  | finished =>
    simp only [step, finishFencing]
    split <;> simpa [retireCurrent] using hnodup
  | nudged => simpa [step] using hnodup
  | fencedOutside _ _ | tellExternal _ | attempted _ | leaving => exact hnodup

theorem new_victims (config : Config) : (new config).victims = {} := by
  unfold new
  split <;> rfl

/-- In every run the victims are listed once each. -/
theorem nodup_ids_play (config : Config) (inputs : List (Seconds × DomainInput)) :
    ((new config).play inputs).victims.ids.Nodup := by
  refine play_induction (P := fun d => d.victims.ids.Nodup) ?_ ?_ inputs
  · intro d now i h
    exact nodup_ids_step h now i
  · simp [new_victims]

/-- A domain that was counted in by a COMPLETE stays so, and no later COMPLETE matters to it. -/
theorem initComplete_step {d : Domain} (h : d.initComplete = true) (now : Seconds)
    (i : DomainInput) : (d.step now i).1.domain.initComplete = true := by
  cases i with
  | membership m =>
    simp only [step, changeMembers]
    split
    · exact h
    split
    · exact h
    · obtain ⟨_, _, hadd⟩ := addVictims_eq
        { d with
          changes := (d.changes.add d.us m d.history now).queue
          history := (d.changes.add d.us m d.history now).history } ‹_›
      simp only [Reaction.after, advance_initComplete]
      rw [hadd]
      exact h
  | message e =>
    simp only [step, receive, Reaction.after, advance_initComplete]
    unfold accept
    cases e.message with
    | start report =>
      obtain ⟨_, _, hstart⟩ := d.receiveStart_eq ⟨e.header.sender, e.header.flags, report⟩ now
      dsimp only
      rw [hstart]
      exact h
    | victimDone seq entry =>
      obtain ⟨_, hdone⟩ := d.receiveVictimDone_eq e.header.sender entry now
      dsimp only
      rw [hdone]
      exact h
    | complete report => exact d.receiveComplete_initComplete report h
    | protocol _ | external _ => exact h
  | resolved node how reduced => simpa [step, resolve_domain] using h
  | ring node seq => simpa [step, changeRing] using h
  | cluster s => simpa [step, updateCluster, Reaction.after] using h
  | finished =>
    simp only [step, finishFencing]
    split <;> simpa [retireCurrent] using h
  | nudged => simpa [step] using h
  | fencedOutside _ _ | tellExternal _ | attempted _ | leaving => exact h

/-- In every run a victim is forgotten by a report that it was dealt with, by a fencing run that
    saw it come back, and by the first COMPLETE that counts us in, and by nothing else. That COMPLETE
    forgets all victims, those that failed after its change included, and no later one does. -/
theorem forgotten_iff (config : Config) (inputs : List (Seconds × DomainInput)) {victim : NodeId}
    (hvictim : ((new config).play inputs).victims.contains victim = true) (now : Seconds)
    (i : DomainInput) :
    let d := (new config).play inputs
    let after := (d.step now i).1.domain
    (after.victims.contains victim = false ↔ i.Forgets d victim) ∧
      ∀ e report, i = .message e → e.message = .complete report →
        (after.victims =
          if d.initComplete = false ∧ report.countsIn d.us = true then {} else d.victims) ∧
        (report.countsIn d.us = true → ∀ later, (after.play later).initComplete = true) := by
  intro d after
  have hnodup : d.victims.ids.Nodup := nodup_ids_play config inputs
  refine ⟨?_, ?_⟩
  · rw [Victims.contains_eq_false_iff]
    exact not_mem_ids_step_iff hnodup (Victims.contains_eq_true_iff.1 hvictim) now i
  · rintro e report rfl hreport
    refine ⟨?_, fun hcounts later => ?_⟩
    · simp [after, step, receive_victims, hreport, receiveComplete_victims]
    · refine play_induction (P := (·.initComplete = true)) (fun d now i h => ?_) ?_ later
      · exact initComplete_step h now i
      · have haccept : (d.accept e now).1 = d.receiveComplete report := by simp [accept, hreport]
        simp only [after, step, receive, Reaction.after, advance_initComplete, haccept]
        exact receiveComplete_initComplete_of_countsIn d hcounts

section

/-- Two nodes that start clean; the domain is that of node 1. -/
def pairConfig : Config :=
  { Config.forNode 1 "node1" with domain := { nodes := [], cleanStart := true } }

/-- The report of either node on the change in which both join. -/
def pairReport : ChangeReport where
  seq := 1
  summary := { counts := { members := 2, joined := 2 } }
  entries := [{ node := 1, flags := 1 }, { node := 2, flags := 1 }]

/-- What `pairReport` is about is over at node 1, and its COMPLETE is on its way back, when node 2
    fails. -/
def failureAfterComplete : List (Seconds × DomainInput) :=
  let nodes := [⟨1, "node1", true, 1⟩, ⟨2, "node2", true, 1⟩]
  let message (sender : NodeId) (m : Message) : DomainInput := .message ⟨{ sender }, m⟩
  [(10, .cluster { quorate := true, ringSeq := 5, nodes }), (10, .ring 1 5),
   (11, .membership { members := [⟨1, .join⟩, ⟨2, .join⟩], left := [],
                      joined := [⟨1, .join⟩, ⟨2, .join⟩] }),
   (12, message 1 (.start pairReport)), (13, message 2 (.start pairReport)), (14, .finished),
   (15, .membership { members := [⟨1, .join⟩], left := [⟨2, .nodeDown⟩], joined := [] })]

/-- Our own COMPLETE that comes back as the first one forgets a node that failed meanwhile. -/
theorem forgotten_iff_failureAfterComplete :
    ((new pairConfig).play failureAfterComplete).victims.contains 2 = true ∧
      ((((new pairConfig).play failureAfterComplete).step 16
          (.message ⟨{ sender := 1 }, .complete pairReport⟩)).1.domain.victims.contains 2 = false ↔
        DomainInput.Forgets ((new pairConfig).play failureAfterComplete) 2
          (.message ⟨{ sender := 1 }, .complete pairReport⟩)) := by
  have hvictim : ((new pairConfig).play failureAfterComplete).victims.contains 2 = true := by
    decide +kernel
  exact ⟨hvictim, (forgotten_iff pairConfig failureAfterComplete hvictim 16 _).1⟩

/-- A COMPLETE can forget a failure that its change does not cover: it flags as a member a node
    that has failed since, and takes it out of the victims all the same. -/
theorem complete_forgets_uncovered_failure :
    ¬ ∀ (config : Config) (inputs : List (Seconds × DomainInput)) (victim : Victim)
        (e : Envelope) (report : ChangeReport) (now : Seconds),
        victim ∈ ((new config).play inputs).victims.toList → victim.initial = false →
        e.message = .complete report → report.countsIn victim.node = true →
        (((new config).play inputs).step now (.message e)).1.domain.victims.contains victim.node =
          true := by
  intro hkept
  have h := hkept pairConfig failureAfterComplete { node := 2, name := "node2" }
    ⟨{ sender := 1 }, .complete pairReport⟩ pairReport 16 (by decide +kernel) rfl rfl
    (by decide +kernel)
  exact absurd h (by decide +kernel)

end

end Domain

end ClusterFence
