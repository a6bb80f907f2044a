import ClusterFence.Proofs.Domain.Taken
import ClusterFence.Proofs.Episode.Election

namespace ClusterFence

namespace ReceivedStart

/-- Among one change, a START is for that one or for none. -/
theorem find_of_pending {q : ChangeQueue} {c : Change} (hpending : q.pending = [c])
    (s : ReceivedStart) (us : NodeId) (h : History) :
    s.find us q h =
      if s.describes us h c then (some c.seq, h.recordMatch s.sender c.seq) else (none, h) := by
  unfold find
  rw [hpending, List.reverse_singleton]
  split
  · simp [findSecond]
  · simp [findFirst]

end ReceivedStart

namespace Domain

variable {d : Domain} {c : Change} {s : ReceivedStart}

theorem receiveStart_of_not_describes (hpending : d.changes.pending = [c])
    (hdescribes : s.describes d.us d.history c = false) (now : Seconds) :
    (d.receiveStart s now).1 = d := by
  unfold receiveStart
  rw [ReceivedStart.find_of_pending hpending, hdescribes]
  rfl

/-- The START of a member that was not added counts for the only change that there is. -/
theorem receiveStart_of_describes (hpending : d.changes.pending = [c])
    (hadded : c.hasAdded s.sender = false) (hdescribes : s.describes d.us d.history c = true)
    (now : Seconds) :
    (d.receiveStart s now).1 =
      { d with
        changes :=
          { d.changes with
            pending := [c.updateMember s.sender
              ({ · with startFlags := s.flags, started := true })] }
        history :=
          ((d.history.recordMatch s.sender c.seq).recordStart s.sender now).merge
            s.report.entries } := by
  have hfinds : d.finds s = some c.seq := by
    rw [finds, ReceivedStart.find_of_pending hpending, hdescribes]
    rfl
  have hnodup : (d.changes.pending.map (·.seq)).Nodup := by simp [hpending]
  obtain ⟨m, hpart, -⟩ := exists_part?_of_finds hnodup hfinds
  unfold receiveStart
  rw [ReceivedStart.find_of_pending hpending, hdescribes]
  simp [ChangeQueue.isAdded, ChangeQueue.update, hpending, hadded, updateFirst, hpart]

end Domain

/-- The sizes of the change that an outage brings. -/
def Outage.counts (o : Outage) : ChangeCounts := (Change.ofMembership 0 0 o.membership 0).counts

/-- The domain of the survivor `p` has one pending change, the one that the outage brings. Only
    STARTs that are in the order count for it, with the flags that they have there. -/
structure Outage.Current (o : Outage) (p : NodeId) (order : List Posted) (d : Domain)
    (c : Change) : Prop where
  pending : d.changes.pending = [c]
  seq : c.seq = d.changes.changeSeq
  createTime : c.createTime = o.time p
  counts : c.counts = o.counts
  nodes : c.members.map (·.node) = o.survivors
  added : ∀ m ∈ c.members, m.added = false
  started : ∀ m ∈ c.members, m.started = true → startFlags? order m.node = some m.startFlags

namespace Outage.Current

variable {o : Outage} {p : NodeId} {order : List Posted} {d d' : Domain} {c : Change}

theorem current? (h : o.Current p order d c) : d.changes.current? = some c := by
  unfold ChangeQueue.current?
  rw [h.pending]
  rfl

theorem of_changes_eq (h : o.Current p order d c) (hchanges : d'.changes = d.changes) :
    o.Current p order d' c where
  pending := by rw [hchanges, h.pending]
  seq := by rw [hchanges, h.seq]
  createTime := h.createTime
  counts := h.counts
  nodes := h.nodes
  added := h.added
  started := h.started

theorem append (h : o.Current p order d c) (more : List Posted) :
    o.Current p (order ++ more) d c where
  pending := h.pending
  seq := h.seq
  createTime := h.createTime
  counts := h.counts
  nodes := h.nodes
  added := h.added
  started m hm hstarted := startFlags?_append (h.started m hm hstarted) more

/-- To get on with the change by another phase leaves its members alone. -/
theorem updateCurrent (h : o.Current p order d c) (f : Change → Change)
    (hseq : (f c).seq = c.seq) (htime : (f c).createTime = c.createTime)
    (hcounts : (f c).counts = c.counts) (hmembers : (f c).members = c.members)
    (hchanges : d'.changes = d.changes.updateCurrent f) : o.Current p order d' (f c) where
  pending := by
    rw [hchanges, ChangeQueue.pending_updateCurrent h.current?, h.pending]
    rfl
  seq := by rw [hseq, h.seq, hchanges, ChangeQueue.changeSeq_updateCurrent]
  createTime := by rw [htime, h.createTime]
  counts := by rw [hcounts, h.counts]
  nodes := by rw [hmembers, h.nodes]
  added := by
    rw [hmembers]
    exact h.added
  started := by
    rw [hmembers]
    exact h.started

theorem not_hasAdded (h : o.Current p order d c) (node : NodeId) : c.hasAdded node = false := by
  unfold Change.hasAdded
  cases hmember : c.member? node with
  | none => rfl
  | some m => exact h.added m (Change.mem_of_member? hmember).1

/-- A survivor is one of the members. -/
theorem exists_member (h : o.Current p order d c) {q : NodeId} (hq : q ∈ o.survivors) :
    ∃ m ∈ c.members, m.node = q := by
  rw [← h.nodes] at hq
  exact List.mem_map.1 hq

theorem mem_survivors (h : o.Current p order d c) {m : Participant} (hm : m ∈ c.members) :
    m.node ∈ o.survivors := by
  rw [← h.nodes]
  exact List.mem_map_of_mem hm

/-- The master that the change elects once all members have started is the elected one. -/
theorem elects (h : o.Current p order d c) (hall : c.allStarted = true) :
    o.Elects order c.electMaster := by
  unfold Change.allStarted at hall
  rw [List.all_eq_true] at hall
  have hflags : ∀ m ∈ c.members, startFlags? order m.node = some m.startFlags := by
    intro m hm
    exact h.started m hm (hall m hm)
  refine ⟨?_, Change.electMaster_eq h.nodes hflags⟩
  intro q hq
  obtain ⟨m, hm, rfl⟩ := h.exists_member hq
  rw [hflags m hm]
  rfl

/-- As long as a survivor has not started, not all have. -/
theorem not_allStarted (h : o.Current p order d c) {q : NodeId} (hq : q ∈ o.survivors)
    (hnone : startFlags? order q = none) : c.allStarted = false := by
  rw [← Bool.not_eq_true]
  intro hall
  have hsome := (h.elects hall).started q hq
  rw [hnone] at hsome
  cases hsome

/-- A START that is in the order counts for its sender, and for no other member. -/
theorem receiveStart (h : o.Current p order d c) {s : ReceivedStart}
    (hflags : startFlags? order s.sender = some s.flags)
    (hdescribes : s.describes d.us d.history c = true) (now : Seconds) :
    o.Current p order (d.receiveStart s now).1
      (c.updateMember s.sender ({ · with startFlags := s.flags, started := true })) := by
  rw [Domain.receiveStart_of_describes h.pending (h.not_hasAdded _) hdescribes]
  refine
    { pending := rfl
      seq := h.seq
      createTime := h.createTime
      counts := h.counts
      nodes := ?_
      added := ?_
      started := ?_ }
  · rw [← h.nodes]
    apply map_updateFirst
    intro m
    rfl
  · intro m hm
    obtain hm | ⟨m', hm', -, rfl⟩ := mem_updateFirst hm
    · exact h.added m hm
    · exact h.added m' hm'
  · intro m hm hstarted
    obtain hm | ⟨m', hm', hnode, rfl⟩ := mem_updateFirst hm
    · exact h.started m hm hstarted
    · have hsender : m'.node = s.sender := eq_of_beq hnode
      dsimp only
      rw [hsender, hflags]

end Outage.Current

end ClusterFence
