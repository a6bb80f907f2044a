import ClusterFence.Proofs.Changes
import ClusterFence.Proofs.Records
import Mathlib.Data.List.Induction

namespace ClusterFence

/-- The next number is above those up to now, as long as there is a next number. -/
theorem lt_next {a n : UInt32} (h : a ≤ n) (hroom : n.toNat + 1 < UInt32.size) : a < n + 1 := by
  rw [UInt32.le_iff_toNat_le] at h
  rw [UInt32.lt_iff_toNat_lt, UInt32.toNat_add, UInt32.toNat_one, Nat.mod_eq_of_lt hroom]
  omega

theorem toNat_next {n : UInt32} (hroom : n.toNat + 1 < UInt32.size) :
    (n + 1).toNat = n.toNat + 1 := by
  rw [UInt32.toNat_add, UInt32.toNat_one, Nat.mod_eq_of_lt hroom]

/-- The count does not pass over zero as long as there is a next number. -/
theorem ChangeQueue.toNat_nextCount {n : UInt32} (hroom : n.toNat + 1 < UInt32.size) :
    (nextCount n).toNat = n.toNat + 1 := by
  have hnext := toNat_next hroom
  have hne : n + 1 ≠ 0 := by
    intro hzero
    rw [hzero] at hnext
    cases hnext
  rw [nextCount, if_neg (by simpa using hne), hnext]

namespace Change

/-- Marking a node as added marks a member that is that node, if there is one, and no other. -/
theorem exists_added_updateFirst {members : List Participant} {joined node : NodeId} :
    (∃ p ∈ updateFirst (·.node == joined) ({ · with added := true }) members,
        p.node = node ∧ p.added = true) ↔
      (∃ p ∈ members, p.node = node ∧ p.added = true) ∨
        joined = node ∧ node ∈ members.map (·.node) := by
  induction members with
  | nil => simp [updateFirst]
  | cons p rest ih =>
    unfold updateFirst
    cases hp : p.node == joined with
    | true =>
      obtain rfl := eq_of_beq hp
      simp only [if_true, List.mem_cons, exists_eq_or_imp, List.map_cons]
      grind
    | false =>
      have hne : joined ≠ p.node := (ne_of_beq_false hp).symm
      simp only [Bool.false_eq_true, if_false, List.mem_cons, exists_eq_or_imp, List.map_cons, ih]
      grind

theorem exists_added_foldl {members : List Participant} {joined : List GroupAddress}
    {node : NodeId} :
    (∃ p ∈ joined.foldl
        (fun members a => updateFirst (·.node == a.node) ({ · with added := true }) members)
        members, p.node = node ∧ p.added = true) ↔
      (∃ p ∈ members, p.node = node ∧ p.added = true) ∨
        (∃ a ∈ joined, a.node = node) ∧ node ∈ members.map (·.node) := by
  induction joined generalizing members with
  | nil => simp
  | cons a rest ih =>
    have hnodes : (updateFirst (·.node == a.node) ({ · with added := true }) members).map
        (·.node) = members.map (·.node) := by
      apply map_updateFirst
      intro p
      rfl
    rw [List.foldl_cons, ih, exists_added_updateFirst, hnodes]
    simp only [List.mem_cons, exists_eq_or_imp]
    rw [or_and_right, or_assoc]

/-- The change lists the members and those who left as the membership change does. Its counts are
    those of what it lists, in 32 bits, and the members that it has as added are those who
    joined. -/
structure Records (c : Change) (m : Membership) : Prop where
  members : c.members.map (·.node) = m.members.map (·.node)
  removed : c.removed.map (fun p => (p.node, p.failed)) =
    m.left.map fun a => (a.node, a.reason.isFailure)
  memberCount : c.counts.members = UInt32.ofNat c.members.length
  removedCount : c.counts.removed = UInt32.ofNat c.removed.length
  failedCount : c.counts.failed = UInt32.ofNat (c.removed.filter (·.failed)).length
  added_iff : ∀ node, (∃ p ∈ c.members, p.node = node ∧ p.added = true) ↔
    ∃ a ∈ m.joined, a.node = node

theorem records_ofMembership {m : Membership} (hstray : m.stray? = none) (seq : UInt32)
    (us : NodeId) (now : Seconds) : (ofMembership seq us m now).Records m := by
  have hnodes : (ofMembership seq us m now).members.map (·.node) = m.members.map (·.node) :=
    map_members_ofMembership (fun _ => rfl) seq us m now
  have hlength := congrArg List.length hnodes
  rw [List.length_map, List.length_map] at hlength
  refine ⟨hnodes, ?_, ?_, ?_, ?_, fun node => ?_⟩
  · simp [ofMembership]
  · rw [hlength]
    rfl
  · simp [ofMembership]
  · simp [ofMembership, List.filter_map, Function.comp_def]
  · have hlisted (hjoined : ∃ a ∈ m.joined, a.node = node) : node ∈ m.members.map (·.node) := by
      obtain ⟨a, ha, rfl⟩ := hjoined
      obtain ⟨b, hb, hnode⟩ := List.any_eq_true.1 (Membership.stray?_eq_none_iff.1 hstray a ha)
      exact List.mem_map.2 ⟨b, hb, eq_of_beq hnode⟩
    unfold ofMembership
    rw [exists_added_foldl]
    simpa [Function.comp_def] using hlisted

end Change

/-- The pending changes are numbered in the order in which they came. -/
structure ChangeQueue.Numbered (q : ChangeQueue) : Prop where
  decreasing : (q.pending.map (·.seq)).Pairwise (· > ·)
  le_changeSeq : ∀ seq ∈ q.pending.map (·.seq), seq ≤ q.changeSeq

namespace ChangeQueue.Numbered

variable {q q' : ChangeQueue}

theorem of_seqs (h : q.Numbered) (hseq : q'.changeSeq = q.changeSeq)
    (hpending : q'.pending.map (·.seq) = q.pending.map (·.seq)) : q'.Numbered := by
  refine ⟨hpending ▸ h.decreasing, ?_⟩
  rw [hpending, hseq]
  exact h.le_changeSeq

theorem of_pending_nil (hpending : q.pending = []) : q.Numbered := by
  constructor <;> simp [hpending]

/-- A membership change that is refused uses up a number too. -/
theorem next (h : q.Numbered) (hroom : q.changeSeq.toNat + 1 < UInt32.size) {pending : List Change}
    (hpending : pending.map (·.seq) = q.pending.map (·.seq) ∨
      pending.map (·.seq) = (q.changeSeq + 1) :: q.pending.map (·.seq)) :
    { q with changeSeq := q.changeSeq + 1, pending : ChangeQueue }.Numbered := by
  have hlt (seq : UInt32) (hseq : seq ∈ q.pending.map (·.seq)) : seq < q.changeSeq + 1 :=
    lt_next (h.le_changeSeq seq hseq) hroom
  obtain hsame | hnew := hpending
  · refine ⟨hsame ▸ h.decreasing, ?_⟩
    rw [hsame]
    exact fun seq hseq => UInt32.le_of_lt (hlt seq hseq)
  · constructor
    · rw [hnew, List.pairwise_cons]
      exact ⟨hlt, h.decreasing⟩
    · rw [hnew]
      intro seq hseq
      obtain rfl | hseq := List.mem_cons.1 hseq
      · exact UInt32.le_refl _
      · exact UInt32.le_of_lt (hlt seq hseq)

end ChangeQueue.Numbered

/-- What is done to the pending changes, their progress apart: a membership event is taken up, or
    the current change is completed. -/
inductive ChangeQueueInput where
  | event (us : NodeId) (m : Membership) (history : History) (now : Seconds)
  | retirement

def ChangeQueueInput.isEvent : ChangeQueueInput → Bool
  | .event .. => true
  | .retirement => false

namespace ChangeQueue

def step (q : ChangeQueue) : ChangeQueueInput → ChangeQueue
  | .event us m history now => (q.add us m history now).queue
  | .retirement => q.retire

def play (q : ChangeQueue) (inputs : List ChangeQueueInput) : ChangeQueue := inputs.foldl step q

/-- The number of the change that an input completes. -/
def completed? (q : ChangeQueue) : ChangeQueueInput → Option UInt32
  | .event .. => none
  | .retirement => q.current?.map (·.seq)

/-- The numbers of the changes that are completed, in order. -/
def completed (q : ChangeQueue) : List ChangeQueueInput → List UInt32
  | [] => []
  | i :: rest => (q.completed? i).toList ++ (q.step i).completed rest

theorem play_append_singleton (q : ChangeQueue) (inputs : List ChangeQueueInput)
    (i : ChangeQueueInput) : q.play (inputs ++ [i]) = (q.play inputs).step i := by
  simp [play]

theorem completed_append_singleton (q : ChangeQueue) (inputs : List ChangeQueueInput)
    (i : ChangeQueueInput) :
    q.completed (inputs ++ [i]) = q.completed inputs ++ ((q.play inputs).completed? i).toList := by
  induction inputs generalizing q with
  | nil => simp [completed, play]
  | cons first rest ih =>
    rw [List.cons_append, completed, ih, completed, List.append_assoc]
    rfl

/-- The numbers of the changes that were completed are in keeping with the pending changes. At most
    as many were completed or are pending as there were numbers. -/
structure InOrder (q : ChangeQueue) (completed : List UInt32) : Prop where
  numbered : q.Numbered
  increasing : completed.Pairwise (· < ·)
  newer : ∀ seq ∈ completed, ∀ c ∈ q.pending, seq < c.seq
  le_changeSeq : ∀ seq ∈ completed, seq ≤ q.changeSeq
  last : q.started.map (·.seq) = completed.getLast?
  counted : q.startedCount.toNat = completed.length
  within : completed.length + q.pending.length ≤ q.changeSeq.toNat

theorem inOrder_empty : InOrder {} [] where
  numbered := .of_pending_nil rfl
  increasing := .nil
  newer := by simp
  le_changeSeq := by simp
  last := rfl
  counted := rfl
  within := by simp

namespace InOrder

variable {q : ChangeQueue} {completed : List UInt32}

/-- A membership event uses up a number, whether its change is queued or not. -/
theorem next (h : q.InOrder completed) (hroom : q.changeSeq.toNat + 1 < UInt32.size)
    {pending : List Change} (hpending : pending = q.pending ∨
      ∃ c, pending = c :: q.pending ∧ c.seq = q.changeSeq + 1) :
    { q with changeSeq := q.changeSeq + 1, pending : ChangeQueue }.InOrder completed where
  numbered := by
    apply h.numbered.next hroom
    obtain rfl | ⟨c, rfl, hseq⟩ := hpending
    · exact .inl rfl
    · exact .inr (by rw [List.map_cons, hseq])
  increasing := h.increasing
  newer := by
    intro seq hseq c hc
    obtain rfl | ⟨c', rfl, hnew⟩ := hpending
    · exact h.newer seq hseq c hc
    obtain rfl | hc := List.mem_cons.1 hc
    · rw [hnew]
      exact lt_next (h.le_changeSeq seq hseq) hroom
    · exact h.newer seq hseq c hc
  le_changeSeq seq hseq := UInt32.le_of_lt (lt_next (h.le_changeSeq seq hseq) hroom)
  last := h.last
  counted := h.counted
  within := by
    have hwithin := h.within
    dsimp only
    rw [toNat_next hroom]
    obtain rfl | ⟨c, rfl, -⟩ := hpending
    · omega
    · rw [List.length_cons]
      omega

/-- The change that is completed comes after all that were completed before. -/
theorem retire (h : q.InOrder completed) :
    q.retire.InOrder (completed ++ (q.completed? .retirement).toList) := by
  unfold ChangeQueue.retire completed? current?
  cases hpending : q.pending with
  | nil => simpa using h
  | cons c older =>
    have hc : c ∈ q.pending := hpending ▸ List.mem_cons_self
    have hlast : c.seq ≤ q.changeSeq := h.numbered.le_changeSeq _ (List.mem_map_of_mem hc)
    have hwithin : completed.length + 1 ≤ q.changeSeq.toNat := by
      have hwithin := h.within
      rw [hpending, List.length_cons] at hwithin
      omega
    have hcount : (nextCount q.startedCount).toNat = completed.length + 1 := by
      rw [toNat_nextCount, h.counted]
      rw [h.counted]
      exact Nat.lt_of_le_of_lt hwithin q.changeSeq.toNat_lt_size
    simp only [List.head?_cons, Option.map_some, Option.toList_some]
    refine ⟨.of_pending_nil rfl, ?_, by simp, ?_, by simp, by simpa using hcount, by simpa⟩
    · rw [List.pairwise_append]
      refine ⟨h.increasing, List.pairwise_singleton _ _, ?_⟩
      simpa using fun seq hseq => h.newer seq hseq c hc
    · simpa [or_imp, forall_and] using ⟨h.le_changeSeq, hlast⟩

end InOrder

/-- A membership event uses up a number, and queues its change unless somebody strays. -/
theorem step_event (q : ChangeQueue) (us : NodeId) (m : Membership) (history : History)
    (now : Seconds) :
    q.step (.event us m history now) =
      { q with
        changeSeq := q.changeSeq + 1
        pending := if m.stray? = none then .ofMembership (q.changeSeq + 1) us m now :: q.pending
          else q.pending } := by
  cases hstray : m.stray? <;> simp [step, add, hstray]

/-- The numbers have not come round as long as there were few events. -/
theorem inOrder_changeSeq_play {inputs : List ChangeQueueInput}
    (hroom : inputs.countP (·.isEvent) < UInt32.size) :
    InOrder (play {} inputs) (completed {} inputs) ∧
      (play {} inputs).changeSeq.toNat = inputs.countP (·.isEvent) := by
  induction inputs using List.reverseRecOn with
  | nil => exact ⟨inOrder_empty, rfl⟩
  | append_singleton inputs i ih =>
    rw [List.countP_append, List.countP_singleton] at hroom ⊢
    obtain ⟨horder, hseq⟩ := ih (by omega)
    rw [play_append_singleton, completed_append_singleton]
    generalize play {} inputs = q at *
    cases i with
    | event us m history now =>
      rw [ChangeQueueInput.isEvent, if_pos rfl, ← hseq] at hroom ⊢
      rw [step_event]
      refine ⟨?_, toNat_next hroom⟩
      rw [completed?, Option.toList_none, List.append_nil]
      apply horder.next hroom
      split
      · exact .inr ⟨_, rfl, rfl⟩
      · exact .inl rfl
    | retirement =>
      refine ⟨horder.retire, ?_⟩
      rw [step, changeSeq_retire, hseq]
      rfl

/-- A pending change is that of an event at which nobody strayed. -/
theorem event_of_mem_play {inputs : List ChangeQueueInput} {c : Change}
    (hc : c ∈ (play {} inputs).pending) :
    ∃ us m history now, .event us m history now ∈ inputs ∧ m.stray? = none ∧
      c = .ofMembership c.seq us m now := by
  induction inputs using List.reverseRecOn with
  | nil => cases hc
  | append_singleton inputs i ih =>
    rw [play_append_singleton] at hc
    have hbefore (hc : c ∈ (play {} inputs).pending) : ∃ us m history now,
        .event us m history now ∈ inputs ++ [i] ∧ m.stray? = none ∧
          c = .ofMembership c.seq us m now := by
      obtain ⟨us, m, history, now, hmem, hrest⟩ := ih hc
      exact ⟨us, m, history, now, List.mem_append_left _ hmem, hrest⟩
    cases i with
    | event us m history now =>
      rw [step_event] at hc
      dsimp only at hc
      split at hc
      · rename_i hstray
        obtain rfl | hc := List.mem_cons.1 hc
        · exact ⟨us, m, history, now, by simp, hstray, rfl⟩
        · exact hbefore hc
      · exact hbefore hc
    | retirement => simp [step] at hc

/-- After every run with fewer membership events than there are numbers, the pending changes have
    lower and lower numbers from the newest to the oldest, all of them given out and higher than
    that of the change completed last. Each records the event that it comes from. The numbers of
    the changes that were completed increase, the last of them is that of the change completed last,
    and the count is theirs. -/
theorem inOrder_play (inputs : List ChangeQueueInput)
    (hroom : inputs.countP (·.isEvent) < UInt32.size) :
    let q := play {} inputs
    let completed := completed {} inputs
    (q.pending.map (·.seq)).Pairwise (· > ·) ∧
    (∀ c ∈ q.pending, c.seq ≤ q.changeSeq ∧
      (∀ last, q.started = some last → last.seq < c.seq) ∧
      ∃ us m history now, .event us m history now ∈ inputs ∧ m.stray? = none ∧ c.Records m) ∧
    completed.Pairwise (· < ·) ∧
    q.started.map (·.seq) = completed.getLast? ∧
    q.startedCount.toNat = completed.length := by
  intro q completed
  have h : q.InOrder completed := (inOrder_changeSeq_play hroom).1
  refine ⟨h.numbered.decreasing, fun c hc => ⟨?_, fun last hstarted => ?_, ?_⟩, h.increasing,
    h.last, h.counted⟩
  · exact h.numbered.le_changeSeq _ (List.mem_map_of_mem hc)
  · have hlast := h.last
    rw [hstarted, Option.map_some] at hlast
    exact h.newer _ (List.mem_of_getLast? hlast.symm) c hc
  · obtain ⟨us, m, history, now, hmem, hstray, hc⟩ := event_of_mem_play hc
    rw [hc]
    exact ⟨us, m, history, now, hmem, hstray, Change.records_ofMembership hstray _ us now⟩

/-- Node 1 is joined by node 2, an event is refused in which node 7 strays, and node 2 fails. The
    change is completed, node 3 joins, and that change waits. -/
def refusedBetween : List ChangeQueueInput :=
  [.event 1 { members := [{ node := 1 }], left := [], joined := [{ node := 1 }] } {} 10,
    .event 1 { members := [{ node := 1 }, { node := 2 }], left := [], joined := [{ node := 2 }] }
      {} 20,
    .event 1 { members := [{ node := 1 }, { node := 2 }], left := [], joined := [{ node := 7 }] }
      {} 30,
    .retirement,
    .event 1
      { members := [{ node := 1 }], left := [{ node := 2, reason := .nodeDown }], joined := [] }
      {} 40,
    .retirement, .retirement,
    .event 1 { members := [{ node := 1 }, { node := 3 }], left := [], joined := [{ node := 3 }] }
      {} 50]

theorem inOrder_play_refusedBetween :
    completed {} refusedBetween = [2, 4] ∧
      (play {} refusedBetween).pending.map (·.seq) = [5] ∧
      (play {} refusedBetween).started.map (·.seq) = some 4 ∧
      (play {} refusedBetween).startedCount.toNat = 2 ∧
      ∀ c ∈ (play {} refusedBetween).pending, ∃ m : Membership, c.Records m := by
  have hcompleted : completed {} refusedBetween = [2, 4] := by decide +kernel
  obtain ⟨-, hpending, -, hlast, hcount⟩ := inOrder_play refusedBetween (by decide +kernel)
  refine ⟨hcompleted, by decide +kernel, by rw [hlast, hcompleted]; rfl, ?_, fun c hc => ?_⟩
  · rw [hcount, hcompleted]
    rfl
  · obtain ⟨-, -, -, m, -, -, -, -, hrecords⟩ := hpending c hc
    exact ⟨m, hrecords⟩

end ChangeQueue

end ClusterFence
