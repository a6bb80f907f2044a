import ClusterFence.Cluster

namespace ClusterFence.History

/-- Histories that say the same of every node are the same. -/
theorem eq_iff_get? {h h' : History} : h' = h ↔ ∀ node, h'.get? node = h.get? node := by
  refine ⟨fun heq node => by rw [heq], fun hget => ?_⟩
  exact History.ext (Std.ExtTreeMap.ext_getElem? fun {node} => hget node)

theorem get?_update (h : History) (node other : NodeId) (f : NodeHistory → NodeHistory) :
    (h.update node f).get? other =
      if node = other then (h.get? other).map f else h.get? other := by
  unfold update get?
  rw [Std.ExtTreeMap.getElem?_modify]
  simp only [Std.LawfulEqCmp.compare_eq_iff_eq]
  split
  · rename_i heq
    rw [heq]
  · rfl

@[simp] theorem get?_update_self (h : History) (node : NodeId) (f : NodeHistory → NodeHistory) :
    (h.update node f).get? node = (h.get? node).map f := by
  rw [get?_update, if_pos rfl]

theorem get?_update_of_ne {h : History} {node other : NodeId} {f : NodeHistory → NodeHistory}
    (hne : node ≠ other) : (h.update node f).get? other = h.get? other := by
  rw [get?_update, if_neg hne]

theorem get?_ensure (h : History) (node other : NodeId) :
    (h.ensure node).get? other =
      if node = other then some ((h.get? other).getD { node }) else h.get? other := by
  unfold ensure get?
  rw [Std.ExtTreeMap.getElem?_insertIfNew]
  simp only [Std.LawfulEqCmp.compare_eq_iff_eq, Std.ExtTreeMap.mem_iff_isSome_getElem?]
  by_cases hnode : node = other
  · subst hnode
    cases h.nodes[node]? <;> simp
  · simp [hnode]

/-- A view that a change respects sees the same of every node after it. -/
theorem map_get?_update {α : Type} {g : NodeHistory → α} {f : NodeHistory → NodeHistory}
    (hf : ∀ n, g (f n) = g n) (h : History) (node other : NodeId) :
    ((h.update node f).get? other).map g = (h.get? other).map g := by
  rw [get?_update]
  split
  · rw [Option.map_map]
    congr 1
    exact funext hf
  · rfl

theorem fencedOutside_update {f : NodeHistory → NodeHistory}
    (hf : ∀ n, (f n).fencedOutside = n.fencedOutside) (h : History) (node other : NodeId) :
    (h.update node f).fencedOutside other = h.fencedOutside other := by
  have hmap := map_get?_update hf h node other
  unfold fencedOutside
  cases hafter : (h.update node f).get? other <;> cases hbefore : h.get? other <;> simp_all

/-- A history that has just been started tells of no fencing. -/
theorem fencedOutside_ensure (h : History) (node other : NodeId) :
    (h.ensure node).fencedOutside other = h.fencedOutside other := by
  unfold fencedOutside
  rw [get?_ensure]
  split
  · cases hget : h.get? other <;> simp [NodeHistory.fencedOutside]
  · rfl

theorem fencedOutside_recordFenced (h : History) (node master : NodeId) (how : UInt32)
    (time : Seconds) (other : NodeId) :
    (h.recordFenced node master how time).fencedOutside other = h.fencedOutside other := by
  apply fencedOutside_update
  intro n
  rfl

theorem fencedOutside_clusterRemove (h : History) (node : NodeId) (now : Seconds)
    (other : NodeId) : (h.clusterRemove node now).fencedOutside other = h.fencedOutside other := by
  apply fencedOutside_update
  intro n
  rfl

theorem fencedOutside_clusterAdd (h : History) (node : NodeId) (now : Seconds)
    (other : NodeId) : (h.clusterAdd node now).fencedOutside other = h.fencedOutside other := by
  refine Eq.trans ?_ (fencedOutside_ensure h node other)
  apply fencedOutside_update
  intro n
  rfl

theorem fencedOutside_stamp (h : History) (now : Seconds) (t : NodeId × Transition)
    (other : NodeId) : (h.stamp now t).fencedOutside other = h.fencedOutside other := by
  obtain ⟨node, came | went | cameBack⟩ := t
  · exact fencedOutside_clusterAdd h node now other
  · exact fencedOutside_clusterRemove h node now other
  · exact (fencedOutside_clusterAdd _ node now other).trans
      (fencedOutside_clusterRemove h node now other)

/-- Comings and goings in the cluster are no fencing. -/
theorem fencedOutside_updateHistory (v : ClusterView) (s : ClusterSnapshot) (h : History)
    (now : Seconds) (other : NodeId) :
    (v.updateHistory s h now).fencedOutside other = h.fencedOutside other := by
  unfold ClusterView.updateHistory
  induction ClusterView.transitions v.nodes (ClusterView.tableOf s) generalizing h with
  | nil => rfl
  | cons t rest ih => exact (ih _).trans (fencedOutside_stamp h now t other)

/-- A notice that is later than the node's last START is one of a fencing. -/
theorem fencedOutside_recordExternal {h : History} {node : NodeId} {n : NodeHistory}
    (hn : h.get? node = some n) {now : Seconds} (hlater : n.addTime < now) (reporter : NodeId) :
    (h.recordExternal node reporter now).fencedOutside node = true := by
  simp [fencedOutside, recordExternal, hn, NodeHistory.fencedOutside, hlater]

end ClusterFence.History
