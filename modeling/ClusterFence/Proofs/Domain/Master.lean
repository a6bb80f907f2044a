import ClusterFence.Proofs.Domain.Forgetting
import ClusterFence.Proofs.Domain.StartOrder

namespace ClusterFence

/-- The lowest of the nodes with the property. -/
def Lowest (P : NodeId → Prop) (node : NodeId) : Prop := P node ∧ ∀ other, P other → node ≤ other

/-- Whom members elect: the lowest that has started as complete, else the lowest. Nobody is elected
    where there is no member. -/
def Elected (complete member : NodeId → Prop) (master : NodeId) : Prop :=
  Lowest complete master ∨ (¬ ∃ node, complete node) ∧
    (Lowest member master ∨ (¬ ∃ node, member node) ∧ master = 0)

section

variable {P complete member : NodeId → Prop} {node other : NodeId}

theorem Lowest.unique (h : Lowest P node) (hother : Lowest P other) : node = other :=
  UInt32.le_antisymm (h.2 other hother.1) (hother.2 node h.1)

theorem Elected.unique (h : Elected complete member node) (hother : Elected complete member other) :
    node = other := by
  obtain h | ⟨hnone, h⟩ := h
  · obtain hother | ⟨hnone, -⟩ := hother
    · exact h.unique hother
    · exact absurd ⟨node, h.1⟩ hnone
  · obtain hother | ⟨-, hother⟩ := hother
    · exact absurd ⟨other, hother.1⟩ hnone
    obtain h | ⟨hempty, rfl⟩ := h
    · obtain hother | ⟨hempty, -⟩ := hother
      · exact h.unique hother
      · exact absurd ⟨node, h.1⟩ hempty
    · obtain hother | ⟨-, rfl⟩ := hother
      · exact absurd ⟨other, hother.1⟩ hempty
      · rfl

/-- Where there are members, one of them is elected. -/
theorem Elected.isMember (h : Elected complete member node) (hmember : ∀ n, complete n → member n)
    (hsome : ∃ n, member n) : member node := by
  obtain h | ⟨-, h | ⟨hnone, -⟩⟩ := h
  · exact hmember node h.1
  · exact h.1
  · exact absurd hsome hnone

theorem lowest_of_min? {nodes : List NodeId} (h : nodes.min? = some node) :
    Lowest (· ∈ nodes) node :=
  List.min?_eq_some_iff.1 h

end

/-- A member of the change has started, with these flags. -/
def Change.Started (c : Change) (node : NodeId) (flags : MessageFlags) : Prop :=
  ∃ m ∈ c.members, m.node = node ∧ m.started = true ∧ m.startFlags = flags

/-- The master that a change elects once everybody has started it. -/
theorem Change.elected_electMaster {c : Change} (hstarted : c.allStarted = true) :
    Elected (fun node => ∃ flags, c.Started node flags ∧ flags.contains .complete = true)
      (c.isMember · = true) c.electMaster := by
  have hcomplete (node : NodeId) :
      node ∈ (c.members.filter (·.startFlags.contains .complete)).map (·.node) ↔
        ∃ flags, c.Started node flags ∧ flags.contains .complete = true := by
    unfold allStarted at hstarted
    rw [List.all_eq_true] at hstarted
    simp only [List.mem_map, List.mem_filter, Started]
    constructor
    · rintro ⟨m, ⟨hm, hflags⟩, hnode⟩
      exact ⟨m.startFlags, ⟨m, hm, hnode, hstarted m hm, rfl⟩, hflags⟩
    · rintro ⟨flags, ⟨m, hm, hnode, -, rfl⟩, hflags⟩
      exact ⟨m, ⟨hm, hflags⟩, hnode⟩
  have hmember (node : NodeId) : node ∈ c.members.map (·.node) ↔ c.isMember node = true := by
    simp [isMember]
  unfold electMaster Elected
  dsimp only
  simp only [← hcomplete, ← hmember]
  generalize (c.members.filter (·.startFlags.contains .complete)).map (·.node) = complete
  generalize c.members.map (·.node) = members
  cases hmin : complete.min? with
  | some node => exact .inl (lowest_of_min? hmin)
  | none =>
    refine .inr ⟨?_, ?_⟩
    · simp [List.min?_eq_none_iff.1 hmin]
    · cases hlowest : members.min? with
      | some node => exact .inl (lowest_of_min? hlowest)
      | none => exact .inr ⟨by simp [List.min?_eq_none_iff.1 hlowest], rfl⟩

namespace Domain

section

variable {d d' : Domain} {c c' : Change} {s : ReceivedStart} {starts : List ReceivedStart}

end

section

variable {d d' : Domain} {c c' : Change} {messages messages' : List (Seconds × Envelope)}

end

section

end

end Domain

end ClusterFence
