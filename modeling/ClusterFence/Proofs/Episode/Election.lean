import ClusterFence.Proofs.Episode.Basic

namespace ClusterFence

/-- The message is a START. -/
def Posted.isStart (m : Posted) : Bool := m.message.kind == .start

/-- The flags of the first START of a node. -/
def startFlags? (order : List Posted) (node : NodeId) : Option MessageFlags :=
  (order.find? fun m => m.sender == node && m.isStart).map (·.flags)

/-- The lowest of the nodes that have started as complete, else the lowest. -/
def elect (nodes : List NodeId) (flags : NodeId → Option MessageFlags) : NodeId :=
  let complete := nodes.filter fun node => (flags node).any (·.contains .complete)
  (complete.min?.or nodes.min?).getD 0

/-- A START that is in the order stays the first of its sender, whatever comes later. -/
theorem startFlags?_append {order : List Posted} {node : NodeId} {flags : MessageFlags}
    (h : startFlags? order node = some flags) (more : List Posted) :
    startFlags? (order ++ more) node = some flags := by
  unfold startFlags? at h ⊢
  obtain ⟨m, hfind, hflags⟩ := Option.map_eq_some_iff.1 h
  rw [List.find?_append, hfind, Option.some_or, Option.map_some, hflags]

theorem elect_congr {nodes : List NodeId} {flags flags' : NodeId → Option MessageFlags}
    (h : ∀ node ∈ nodes, flags node = flags' node) : elect nodes flags = elect nodes flags' := by
  unfold elect
  have hfilter : (nodes.filter fun node => (flags node).any (·.contains .complete)) =
      nodes.filter fun node => (flags' node).any (·.contains .complete) := by
    apply List.filter_congr
    intro node hnode
    rw [h node hnode]
  rw [hfilter]

/-- Who is elected is one of those who elect. -/
theorem elect_mem {nodes : List NodeId} (hne : nodes ≠ [])
    (flags : NodeId → Option MessageFlags) : elect nodes flags ∈ nodes := by
  unfold elect
  dsimp only
  generalize hcomplete : (nodes.filter fun node => (flags node).any (·.contains .complete)) =
    complete
  cases hmin : complete.min? with
  | some node =>
    have hmem : node ∈ complete := List.min?_mem hmin
    rw [← hcomplete] at hmem
    exact (List.mem_filter.1 hmem).1
  | none =>
    cases hnodes : nodes.min? with
    | some node => exact List.min?_mem hnodes
    | none => exact absurd (List.min?_eq_none_iff.1 hnodes) hne

/-- The master that a change elects, once the flags of its members are known to all. -/
theorem Change.electMaster_eq {c : Change} {nodes : List NodeId}
    {flags : NodeId → Option MessageFlags} (hnodes : c.members.map (·.node) = nodes)
    (hflags : ∀ m ∈ c.members, flags m.node = some m.startFlags) :
    c.electMaster = elect nodes flags := by
  unfold electMaster elect
  have hfilter : (c.members.filter (·.startFlags.contains .complete)).map (·.node) =
      nodes.filter fun node => (flags node).any (·.contains .complete) := by
    rw [← hnodes, List.filter_map]
    congr 1
    apply List.filter_congr
    intro m hm
    simp [hflags m hm]
  dsimp only
  rw [hfilter, hnodes]

/-- The STARTs of all survivors are in the order, and by them `node` is to fence. -/
structure Outage.Elects (o : Outage) (order : List Posted) (node : NodeId) : Prop where
  started : ∀ p ∈ o.survivors, (startFlags? order p).isSome = true
  eq_elect : node = elect o.survivors (startFlags? order)

namespace Outage.Elects

variable {o : Outage} {order : List Posted} {node : NodeId}

theorem append (h : o.Elects order node) (more : List Posted) : o.Elects (order ++ more) node where
  started p hp := by
    obtain ⟨flags, hflags⟩ := Option.isSome_iff_exists.1 (h.started p hp)
    rw [startFlags?_append hflags]
    rfl
  eq_elect := by
    rw [h.eq_elect]
    apply elect_congr
    intro p hp
    obtain ⟨flags, hflags⟩ := Option.isSome_iff_exists.1 (h.started p hp)
    rw [hflags, startFlags?_append hflags]

/-- There is only one node to fence. -/
theorem unique (h : o.Elects order node) {other : NodeId} (hother : o.Elects order other) :
    node = other := by
  rw [h.eq_elect, hother.eq_elect]

theorem mem (h : o.Elects order node) : node ∈ o.survivors := by
  rw [h.eq_elect]
  apply elect_mem
  unfold survivors
  rw [ne_eq, List.map_eq_nil_iff]
  exact o.survivors_ne_nil

end Outage.Elects

end ClusterFence
