import ClusterFence.ChangeQueue
import ClusterFence.Proofs.UpdateFirst

namespace ClusterFence

namespace Change

/-- How far a change has got, its members apart: its number, its phase and whether our START for
    it was sent. -/
def mark (c : Change) : UInt32 × ChangePhase × Bool := (c.seq, c.phase, c.sentStart)

theorem mark_updateMember (c : Change) (node : NodeId) (f : Participant → Participant) :
    (c.updateMember node f).mark = c.mark := rfl

/-- Members that have started stay so when one of them is changed without being stopped. -/
theorem allStarted_updateMember {c : Change} {node : NodeId} {f : Participant → Participant}
    (hf : ∀ m, m.started = true → (f m).started = true) (h : c.allStarted = true) :
    (c.updateMember node f).allStarted = true := by
  simp only [allStarted, updateMember, List.all_eq_true] at h ⊢
  intro m hm
  obtain hm | ⟨m', hm', -, rfl⟩ := mem_updateFirst hm
  · exact h m hm
  · exact hf m' (h m' hm')

/-- The members of a change are found by their nodes. -/
theorem mem_of_member? {c : Change} {node : NodeId} {m : Participant}
    (h : c.member? node = some m) : m ∈ c.members ∧ m.node = node := by
  unfold member? at h
  have hnode := List.find?_some h
  exact ⟨List.mem_of_find?_eq_some h, by simpa using hnode⟩

theorem isMember_eq_contains (c : Change) (node : NodeId) :
    c.isMember node = (c.members.map (·.node)).contains node := by
  rw [isMember, List.contains_eq_any_beq, List.any_map]
  congr 1
  funext m
  exact BEq.comm

theorem isMember_iff_mem {c : Change} {node : NodeId} :
    c.isMember node = true ↔ node ∈ c.members.map (·.node) := by
  rw [isMember_eq_contains, List.contains_iff_mem]

theorem membersWithin_iff_subset {c other : Change} :
    c.membersWithin other = true ↔ c.members.map (·.node) ⊆ other.members.map (·.node) := by
  unfold membersWithin
  rw [List.all_eq_true]
  constructor
  · intro hwithin node hnode
    obtain ⟨m, hm, rfl⟩ := List.mem_map.1 hnode
    exact isMember_iff_mem.1 (hwithin m hm)
  · intro hsub m hm
    exact isMember_iff_mem.2 (hsub (List.mem_map_of_mem hm))

theorem not_awaits_of_allStarted {c : Change} (h : c.allStarted = true) (node : NodeId) :
    c.awaits node = false := by
  unfold awaits
  cases hmember : c.member? node with
  | none => rfl
  | some m =>
    have hm := (mem_of_member? hmember).1
    unfold allStarted at h
    rw [List.all_eq_true] at h
    simp [h m hm]

theorem member?_of_mem {c : Change} (hnodup : (c.members.map (·.node)).Nodup)
    {m : Participant} (hm : m ∈ c.members) : c.member? m.node = some m :=
  find?_of_mem hnodup hm

/-- Members that nobody awaits have started, as no node is listed twice. -/
theorem allStarted_of_not_awaits {c : Change} (hnodup : (c.members.map (·.node)).Nodup)
    (hnone : ∀ m ∈ c.members, c.awaits m.node = false) : c.allStarted = true := by
  unfold allStarted
  rw [List.all_eq_true]
  intro m hm
  have hstarted := hnone m hm
  unfold awaits at hstarted
  rw [member?_of_mem hnodup hm] at hstarted
  simpa using hstarted

theorem member?_updateMember_self (c : Change) {node : NodeId} {f : Participant → Participant}
    (hnode : ∀ m, (f m).node = m.node) :
    (c.updateMember node f).member? node = (c.member? node).map f :=
  find?_updateFirst (fun m => by rw [hnode]) c.members

/-- A member that has started is not awaited any more. -/
theorem not_awaits_updateMember (c : Change) (node : NodeId)
    {f : Participant → Participant} (hnode : ∀ m, (f m).node = m.node)
    (hstarted : ∀ m, (f m).started = true) : (c.updateMember node f).awaits node = false := by
  unfold awaits
  rw [c.member?_updateMember_self hnode]
  cases c.member? node <;> simp [hstarted]

theorem isMember_updateMember (c : Change) (node : NodeId) {f : Participant → Participant}
    (hnode : ∀ m, (f m).node = m.node) : (c.updateMember node f).isMember = c.isMember := by
  funext other
  unfold isMember updateMember
  refine any_updateFirst ?_ c.members
  intro m _
  rw [hnode]

theorem member?_updateMember_of_ne (c : Change) {node other : NodeId}
    {f : Participant → Participant} (hnode : ∀ m, (f m).node = m.node) (hne : other ≠ node) :
    (c.updateMember node f).member? other = c.member? other := by
  unfold member? updateMember
  apply find?_updateFirst_of_disjoint
  intro m hm
  rw [hnode, eq_of_beq hm]
  have hfalse : (node == other) = false := beq_false_of_ne hne.symm
  exact ⟨hfalse, hfalse⟩

theorem awaits_updateMember_of_ne (c : Change) {node other : NodeId}
    {f : Participant → Participant} (hnode : ∀ m, (f m).node = m.node) (hne : other ≠ node) :
    (c.updateMember node f).awaits other = c.awaits other := by
  unfold awaits
  rw [c.member?_updateMember_of_ne hnode hne]

/-- What a view of a member that does not look at who was added sees of a new change. -/
theorem map_members_ofMembership {α : Type} {g : Participant → α}
    (hg : ∀ p : Participant, g { p with added := true } = g p) (seq : UInt32) (us : NodeId)
    (m : Membership) (now : Seconds) :
    (ofMembership seq us m now).members.map g = m.members.map fun a => g { node := a.node } := by
  have hadded (members : List Participant) : (m.joined.foldl
      (fun members a => updateFirst (·.node == a.node) ({ · with added := true }) members)
      members).map g = members.map g := by
    induction m.joined generalizing members with
    | nil => rfl
    | cons a rest ih => rw [List.foldl_cons, ih, map_updateFirst hg]
  unfold ofMembership
  rw [hadded, List.map_map]
  rfl

/-- Nobody has started a new change. -/
theorem not_started_ofMembership {seq : UInt32} {us : NodeId} {m : Membership}
    {now : Seconds} {p : Participant} (hp : p ∈ (ofMembership seq us m now).members) :
    p.started = false := by
  have hunstarted : (ofMembership seq us m now).members.map (·.started) =
      m.members.map fun _ => false :=
    map_members_ofMembership (fun _ => rfl) seq us m now
  have hmem : p.started ∈ m.members.map fun _ => false := hunstarted ▸ List.mem_map_of_mem hp
  obtain ⟨_, -, hfalse⟩ := List.mem_map.1 hmem
  exact hfalse.symm

theorem isMember_ofMembership (seq : UInt32) (us : NodeId) (m : Membership) (now : Seconds)
    (node : NodeId) : (ofMembership seq us m now).isMember node = m.lists node := by
  rw [isMember_eq_contains, map_members_ofMembership fun _ => rfl, Membership.lists,
    List.contains_eq_any_beq, List.any_map]
  congr 1
  funext a
  exact BEq.comm

/-- The failed nodes of a change are those that its membership event says have failed. -/
theorem mem_failedNodes_ofMembership {seq : UInt32} {us : NodeId} {m : Membership} {now : Seconds}
    {node : NodeId} : node ∈ (ofMembership seq us m now).failedNodes ↔
      ∃ a ∈ m.left, a.reason.isFailure = true ∧ a.node = node := by
  simp [failedNodes, ofMembership, and_assoc]

end Change

namespace ChangeQueue

@[simp] theorem changeSeq_update (q : ChangeQueue) (seq : UInt32) (f : Change → Change) :
    (q.update seq f).changeSeq = q.changeSeq := rfl

theorem marks_update {q : ChangeQueue} {seq : UInt32} {f : Change → Change}
    (hf : ∀ c, (f c).mark = c.mark) :
    (q.update seq f).pending.map Change.mark = q.pending.map Change.mark :=
  map_updateFirst hf q.pending

/-- The current change stays the current one, changed or not. -/
theorem current?_update {q : ChangeQueue} {seq : UInt32} {f : Change → Change} {c' : Change}
    (h : (q.update seq f).current? = some c') :
    ∃ c, q.current? = some c ∧ (c' = c ∨ c' = f c) := by
  unfold current? update at h
  unfold current?
  cases hpending : q.pending with
  | nil => simp [hpending, updateFirst] at h
  | cons c older =>
    simp only [hpending, updateFirst] at h
    refine ⟨c, by simp, ?_⟩
    split at h
    · exact .inr (by simpa using h.symm)
    · exact .inl (by simpa using h.symm)

theorem pending_of_current? {q : ChangeQueue} {c : Change} (h : q.current? = some c) :
    q.pending = c :: q.pending.tail := by
  unfold current? at h
  cases hpending : q.pending with
  | nil => simp [hpending] at h
  | cons c' older => simp_all

theorem current?_mem {q : ChangeQueue} {c : Change} (h : q.current? = some c) :
    c ∈ q.pending := by
  rw [pending_of_current? h]
  exact List.mem_cons_self

theorem pending_updateCurrent {q : ChangeQueue} {c : Change} (h : q.current? = some c)
    (f : Change → Change) : (q.updateCurrent f).pending = f c :: q.pending.tail := by
  unfold updateCurrent
  rw [pending_of_current? h]
  rfl

@[simp] theorem changeSeq_updateCurrent (q : ChangeQueue) (f : Change → Change) :
    (q.updateCurrent f).changeSeq = q.changeSeq := by
  unfold updateCurrent
  split <;> rfl

@[simp] theorem changeSeq_retire (q : ChangeQueue) : q.retire.changeSeq = q.changeSeq := by
  unfold retire
  split <;> rfl

@[simp] theorem pending_retire (q : ChangeQueue) : q.retire.pending = [] := by
  unfold retire
  split <;> simp_all

end ChangeQueue

end ClusterFence
