import ClusterFence.Proofs.Records
import ClusterFence.Proofs.UpdateFirst

namespace ClusterFence

namespace ClusterView

variable (v : ClusterView) (s : ClusterSnapshot) (node : NodeId)

/-- The node is listed before and now, and not in the same incarnation. -/
def restarts : Bool :=
  v.nodes[node]?.any fun before => (s.node? node).any (before.incarnation != ·.incarnation)

/-- The node is a member now, and was no member before or one of another incarnation. -/
def joins : Bool := s.isMember node && (!v.isMember node || v.restarts s node)

/-- The node was a member before, and is no member now or one of another incarnation. -/
def leaves : Bool := v.isMember node && (!s.isMember node || v.restarts s node)

/-- The node is no member now, and is listed in another incarnation than before. -/
def restartsOutside : Bool := !s.isMember node && v.restarts s node

end ClusterView

section

variable {α β : Type} [BEq β] [LawfulBEq β] {key : α → β} {l : List α} {b : β}

theorem find?_key_eq_none (hb : b ∉ l.map key) : l.find? (key · == b) = none := by
  rw [List.find?_eq_none]
  intro a ha heq
  exact hb (eq_of_beq heq ▸ List.mem_map_of_mem ha)

/-- In a list in which every key occurs once, a key selects the element that is found by it. -/
theorem filter_key_eq (hnodup : (l.map key).Nodup) :
    l.filter (key · == b) = (l.find? (key · == b)).toList := by
  induction l with
  | nil => rfl
  | cons a rest ih =>
    obtain ⟨ha, hnodup⟩ := List.nodup_cons.1 hnodup
    rw [List.filter_cons, List.find?_cons, ih hnodup]
    cases hkey : key a == b with
    | false => rfl
    | true =>
      rw [find?_key_eq_none (eq_of_beq hkey ▸ ha)]
      rfl

end

namespace NodeTable

variable {α : Type}

theorem filter_toList (t : NodeTable α) (node : NodeId) :
    t.toList.filter (·.1 == node) = (t[node]?.map (node, ·)).toList := by
  have hnodup : (t.toList.map (·.1)).Nodup := by
    rw [Std.ExtTreeMap.map_fst_toList_eq_keys]
    exact Std.ExtTreeMap.nodup_keys
  rw [filter_key_eq hnodup]
  congr 1
  cases hget : t[node]? with
  | none =>
    rw [Option.map_none, List.find?_eq_none]
    rintro ⟨other, a⟩ hmem heq
    obtain rfl : other = node := eq_of_beq heq
    rw [Std.ExtTreeMap.mem_toList_iff_getElem?_eq_some, hget] at hmem
    cases hmem
  | some a =>
    have hmem : (node, a) ∈ t.toList := Std.ExtTreeMap.mem_toList_iff_getElem?_eq_some.2 hget
    exact find?_of_mem hnodup hmem

end NodeTable

namespace ClusterView

/-- What happened to one node between two snapshots. A departure comes before an arrival. -/
def happened (old new : NodeTable ClusterNode) (node : NodeId) : List Transition :=
  (if old[node]?.any (·.member) && !new[node]?.any (·.member) then [.went] else []) ++
    (new[node]?.bind (arrival? old[node]?)).toList

theorem filter_departures (old new : NodeTable ClusterNode) (node : NodeId) :
    (departures old new).filter (·.1 == node) =
      (if old[node]?.any (·.member) && !new[node]?.any (·.member) then [.went] else []).map
        (node, ·) := by
  unfold departures
  rw [List.filter_map, List.filter_comm]
  have hkey : (·.1 == node) ∘ (fun x : NodeId × ClusterNode => (x.1, Transition.went)) =
      (·.1 == node) := rfl
  rw [hkey, NodeTable.filter_toList]
  cases old[node]? with
  | none => rfl
  | some before => cases hgone : before.member && !new[node]?.any (·.member) <;> simp [hgone]

theorem filter_arrivals (old new : NodeTable ClusterNode) (node : NodeId) :
    (arrivals old new).filter (·.1 == node) =
      (new[node]?.bind (arrival? old[node]?)).toList.map (node, ·) := by
  have hselect (id : NodeId) (n : ClusterNode) :
      ((arrival? old[id]? n).map (id, ·)).filter (·.1 == node) =
        if id == node then (arrival? old[id]? n).map (id, ·) else none := by
    cases arrival? old[id]? n <;> by_cases hid : id = node <;> simp [hid]
  have hkey : (arrivals old new).filter (·.1 == node) =
      (new.toList.filter (·.1 == node)).filterMap fun x =>
        (arrival? old[x.1]? x.2).map (x.1, ·) := by
    unfold arrivals
    rw [List.filter_filterMap, List.filterMap_filter]
    congr 1
    funext x
    exact hselect x.1 x.2
  rw [hkey, NodeTable.filter_toList]
  cases new[node]? with
  | none => rfl
  | some n => cases harrival : arrival? old[node]? n <;> simp [harrival]

theorem filter_transitions (old new : NodeTable ClusterNode) (node : NodeId) :
    (transitions old new).filter (·.1 == node) = (happened old new node).map (node, ·) := by
  rw [transitions, List.filter_append, filter_departures, filter_arrivals, happened,
    List.map_append]

theorem mem_transitions_iff {old new : NodeTable ClusterNode} {node : NodeId} {t : Transition} :
    (node, t) ∈ transitions old new ↔ t ∈ happened old new node := by
  have hmem : (node, t) ∈ transitions old new ↔
      (node, t) ∈ (transitions old new).filter (·.1 == node) := by
    simp [List.mem_filter]
  rw [hmem, filter_transitions]
  simp

end ClusterView

/-- What is remembered of a node once it is on record what happened to it. Only a node that came gets
    a history by that. -/
def Transition.mark (now : Seconds) (node : NodeId) (t : Transition) (n : Option NodeHistory) :
    Option NodeHistory :=
  let left := if t = .came then n else n.map ({ · with clusterRemoveTime := now })
  if t = .went then left else some { left.getD { node } with clusterAddTime := now }

namespace History

theorem get?_clusterAdd (h : History) (node other : NodeId) (now : Seconds) :
    (h.clusterAdd node now).get? other =
      if node = other then some { (h.get? other).getD { node } with clusterAddTime := now }
      else h.get? other := by
  unfold clusterAdd
  rw [get?_update, get?_ensure]
  split <;> rfl

/-- A stamp is about one node. -/
theorem get?_stamp (h : History) (now : Seconds) (t : NodeId × Transition) (node : NodeId) :
    (h.stamp now t).get? node =
      if t.1 == node then t.2.mark now node (h.get? node) else h.get? node := by
  obtain ⟨other, transition⟩ := t
  by_cases hnode : other = node
  · subst hnode
    cases transition <;> simp [stamp, get?_clusterAdd, clusterRemove, Transition.mark]
  · cases transition <;> simp [stamp, get?_clusterAdd, clusterRemove, get?_update, hnode]

/-- Of several stamps those of the node count, one after the other. -/
theorem get?_foldl_stamp (h : History) (now : Seconds) (ts : List (NodeId × Transition))
    (node : NodeId) :
    (ts.foldl (·.stamp now) h).get? node =
      (ts.filter (·.1 == node)).foldl (fun n t => t.2.mark now node n) (h.get? node) := by
  rw [List.foldl_filter]
  induction ts generalizing h with
  | nil => rfl
  | cons t rest ih => rw [List.foldl_cons, ih, get?_stamp, List.foldl_cons]

end History

namespace ClusterView

theorem get?_updateHistory (v : ClusterView) (s : ClusterSnapshot) (h : History) (now : Seconds)
    (node : NodeId) :
    (v.updateHistory s h now).get? node =
      (happened v.nodes (tableOf s) node).foldl (fun n t => t.mark now node n) (h.get? node) := by
  unfold updateHistory
  rw [History.get?_foldl_stamp, filter_transitions, List.foldl_map]

/-- A snapshot that lists every node once is the same as its table. -/
theorem getElem?_tableOf {s : ClusterSnapshot} (hdistinct : (s.nodes.map (·.node)).Nodup)
    (node : NodeId) : (tableOf s)[node]? = s.node? node := by
  unfold tableOf ClusterSnapshot.node?
  have hinsert (l : List ClusterNode) (t : NodeTable ClusterNode)
      (hnodup : (l.map (·.node)).Nodup) : (l.foldl (fun t n => t.insert n.node n) t)[node]? =
        (l.find? (·.node == node)).or t[node]? := by
    induction l generalizing t with
    | nil => rfl
    | cons n rest ih =>
      obtain ⟨hn, hnodup⟩ := List.nodup_cons.1 hnodup
      rw [List.foldl_cons, ih _ hnodup, List.find?_cons, Std.ExtTreeMap.getElem?_insert]
      cases hnode : n.node == node with
      | true =>
        rw [find?_key_eq_none (eq_of_beq hnode ▸ hn)]
        simp [eq_of_beq hnode]
      | false => simp [ne_of_beq_false hnode]
  rw [hinsert _ _ hdistinct]
  simp

variable {v : ClusterView} {s : ClusterSnapshot} {node : NodeId}

/-- What happened to a node, by whether it joined, left, or restarted outside the cluster. -/
theorem happened_eq (hdistinct : (s.nodes.map (·.node)).Nodup) :
    happened v.nodes (tableOf s) node =
      if v.restartsOutside s node then
        if v.leaves s node then [.went, .cameBack] else [.cameBack]
      else if v.joins s node then if v.leaves s node then [.cameBack] else [.came]
      else if v.leaves s node then [.went] else [] := by
  unfold happened restartsOutside joins leaves restarts isMember ClusterSnapshot.isMember arrival?
  rw [getElem?_tableOf hdistinct]
  cases v.nodes[node]? with
  | none =>
    cases s.node? node with
    | none => rfl
    | some n => cases hmember : n.member <;> simp [hmember]
  | some before =>
    cases s.node? node with
    | none => cases hmember : before.member <;> simp [hmember]
    | some n =>
      cases hbefore : before.member <;> cases hmember : n.member <;>
        by_cases hsame : before.incarnation = n.incarnation <;>
        simp [hbefore, hmember, hsame]

/-- The marks of what happened to a node: its time of joining, and before that, if it has a history,
    its time of leaving. -/
theorem get?_updateHistory_eq (hdistinct : (s.nodes.map (·.node)).Nodup) (h : History)
    (now : Seconds) (node : NodeId) :
    let left := if v.leaves s node || v.restartsOutside s node then
      (h.get? node).map ({ · with clusterRemoveTime := now }) else h.get? node
    (v.updateHistory s h now).get? node =
      if v.joins s node || v.restartsOutside s node then
        some { left.getD { node } with clusterAddTime := now }
      else left := by
  intro left
  rw [get?_updateHistory, happened_eq hdistinct]
  unfold left
  cases v.restartsOutside s node <;> cases v.joins s node <;> cases v.leaves s node <;>
    cases h.get? node <;> rfl

/-- Whether anything happened is told by the transitions. -/
theorem any_transitions_iff (p : Transition → Bool) :
    ((transitions v.nodes (tableOf s)).map (·.2)).any p = true ↔
      ∃ node, ∃ t ∈ happened v.nodes (tableOf s) node, p t = true := by
  rw [List.any_map, List.any_eq_true]
  constructor
  · rintro ⟨⟨node, t⟩, ht, hp⟩
    exact ⟨node, t, mem_transitions_iff.1 ht, hp⟩
  · rintro ⟨node, t, ht, hp⟩
    exact ⟨(node, t), mem_transitions_iff.2 ht, hp⟩

/-- Something other than a mere arrival happened to the nodes that left or restarted outside. -/
theorem any_ne_came_iff (hdistinct : (s.nodes.map (·.node)).Nodup) :
    ((transitions v.nodes (tableOf s)).map (·.2)).any (· != .came) = true ↔
      ∃ node, (v.leaves s node || v.restartsOutside s node) = true := by
  rw [any_transitions_iff]
  refine exists_congr fun node => ?_
  rw [happened_eq hdistinct]
  cases v.restartsOutside s node <;> cases v.joins s node <;> cases v.leaves s node <;>
    simp

/-- Where nobody left or restarted outside, it is the nodes that joined to which something happened. -/
theorem isEmpty_transitions_iff (hdistinct : (s.nodes.map (·.node)).Nodup)
    (hstay : ∀ node, (v.leaves s node || v.restartsOutside s node) = false) :
    ((transitions v.nodes (tableOf s)).map (·.2)).isEmpty = false ↔
      ∃ node, v.joins s node = true := by
  have hany : ((transitions v.nodes (tableOf s)).map (·.2)).isEmpty =
      !((transitions v.nodes (tableOf s)).map (·.2)).any fun _ => true := by
    cases (transitions v.nodes (tableOf s)).map (·.2) <;> rfl
  rw [hany, Bool.not_eq_false', any_transitions_iff]
  refine exists_congr fun node => ?_
  obtain ⟨hleaves, hrestarts⟩ := Bool.or_eq_false_iff.1 (hstay node)
  rw [happened_eq hdistinct, hleaves, hrestarts]
  cases v.joins s node <;> simp

/-- A snapshot stamps the nodes that joined with the time of joining, and those that left, as far as
    they have a history, with the time of leaving; a node that is no member and is listed in another
    incarnation than before gets both stamps. Nothing else is put on record. A quorum that was
    regained earlier is credited no more once a node left or restarted outside; otherwise, nodes
    that joined are credited with what this snapshot regained. -/
theorem update_stamps (v : ClusterView) (s : ClusterSnapshot) (h : History) (now : Seconds)
    (hdistinct : (s.nodes.map (·.node)).Nodup) :
    let history := v.updateHistory s h now
    let view := v.update s now
    (∀ node,
      history.contains node = (h.contains node || v.joins s node || v.restartsOutside s node) ∧
      history.lookup node =
        { h.lookup node with
          clusterAddTime :=
            if v.joins s node || v.restartsOutside s node then now
            else (h.lookup node).clusterAddTime
          clusterRemoveTime :=
            if h.contains node && (v.leaves s node || v.restartsOutside s node) then now
            else (h.lookup node).clusterRemoveTime }) ∧
    ((∃ node, (v.leaves s node || v.restartsOutside s node) = true) →
      view.quorateFromLastUpdate = false) ∧
    ((∀ node, (v.leaves s node || v.restartsOutside s node) = false) →
      ((∃ node, v.joins s node = true) →
        view.quorateFromLastUpdate = (!v.quorate && s.quorate)) ∧
      ((∀ node, v.joins s node = false) →
        view.quorateFromLastUpdate = v.quorateFromLastUpdate)) := by
  intro history view
  have hflag : view.quorateFromLastUpdate =
      v.regainedWith ((transitions v.nodes (tableOf s)).map (·.2)) (!v.quorate && s.quorate) := rfl
  unfold regainedWith at hflag
  have hgone := any_ne_came_iff (v := v) hdistinct
  refine ⟨fun node => ?_, fun hleft => ?_, fun hstay => ?_⟩
  · have hget := get?_updateHistory_eq (v := v) hdistinct h now node
    have hknown (h : History) : h.contains node = (h.get? node).isSome :=
      Std.ExtTreeMap.contains_eq_isSome_getElem?
    rw [hknown, hknown, History.lookup, History.lookup, hget]
    cases v.restartsOutside s node <;> cases v.joins s node <;> cases v.leaves s node <;>
      cases h.get? node <;> exact ⟨rfl, rfl⟩
  · rw [hflag, if_pos (hgone.2 hleft)]
  · have hnone : ¬ ((transitions v.nodes (tableOf s)).map (·.2)).any (· != .came) = true := by
      rw [hgone]
      simp [hstay]
    have hsome := isEmpty_transitions_iff hdistinct hstay
    rw [if_neg hnone] at hflag
    constructor
    · intro hjoins
      rw [hflag, hsome.2 hjoins, if_neg Bool.false_ne_true]
    · intro hjoins
      have hempty : ((transitions v.nodes (tableOf s)).map (·.2)).isEmpty = true := by
        rw [← Bool.not_eq_false, hsome]
        simp [hjoins]
      rw [hflag, if_pos hempty]

/-- Nodes 1 to 3 are members. -/
def threeMembers : ClusterSnapshot where
  quorate := true
  ringSeq := 1
  nodes := [⟨1, "node1", true, 1⟩, ⟨2, "node2", true, 1⟩, ⟨3, "node3", true, 1⟩]

/-- Node 1 stays, node 2 is gone, node 3 is back in another incarnation, and node 4 is new. -/
def allMoves : ClusterSnapshot where
  quorate := true
  ringSeq := 2
  nodes := [⟨1, "node1", true, 1⟩, ⟨2, "node2", false, 1⟩, ⟨3, "node3", true, 2⟩,
    ⟨4, "node4", true, 1⟩]

theorem update_stamps_allMoves :
    let view := update {} threeMembers 10
    let known := updateHistory {} threeMembers .empty 10
    let history := view.updateHistory allMoves known 50
    (allMoves.nodes.map (·.node)).Nodup ∧
      history.lookup 1 = { node := 1, clusterAddTime := 10 } ∧
      history.lookup 2 = { node := 2, clusterAddTime := 10, clusterRemoveTime := 50 } ∧
      history.lookup 3 = { node := 3, clusterAddTime := 50, clusterRemoveTime := 50 } ∧
      history.lookup 4 = { node := 4, clusterAddTime := 50 } ∧
      view.quorateFromLastUpdate = true ∧
      (view.update allMoves 50).quorateFromLastUpdate = false := by
  intro view known history
  have hdistinct : (allMoves.nodes.map (·.node)).Nodup := by decide
  obtain ⟨hnode, hleft, -⟩ := update_stamps view allMoves known 50 hdistinct
  refine ⟨hdistinct, ?_, ?_, ?_, ?_, by decide +kernel, hleft ⟨2, by decide +kernel⟩⟩
  · rw [(hnode 1).2]
    decide +kernel
  · rw [(hnode 2).2]
    decide +kernel
  · rw [(hnode 3).2]
    decide +kernel
  · rw [(hnode 4).2]
    decide +kernel

/-- Node 2 is listed in some incarnation, and is no member. -/
def absentee (incarnation : UInt32) : ClusterSnapshot where
  quorate := true
  ringSeq := incarnation
  nodes := [⟨1, "node1", true, 1⟩, ⟨2, "node2", false, incarnation⟩]

/-- No node joins or leaves here, and still a node is stamped as if it had joined, and the quorum
    that was regained with node 1 is credited no more: the other node is listed in another
    incarnation, and was no member before and is none now. -/
theorem absent_restart_is_stamped :
    let view := update {} (absentee 1) 10
    let known := updateHistory {} (absentee 1) .empty 10
    ((absentee 2).nodes.map (·.node)).Nodup ∧
      (∀ node, view.joins (absentee 2) node = false ∧ view.leaves (absentee 2) node = false) ∧
      known.contains 2 = false ∧
      (view.updateHistory (absentee 2) known 50).Holds 2 (·.clusterAddTime = 50) ∧
      view.quorateFromLastUpdate = true ∧
      (view.update (absentee 2) 50).quorateFromLastUpdate = false := by
  intro view known
  refine ⟨by decide, fun node => ?_, by decide +kernel, by decide +kernel, by decide +kernel,
    by decide +kernel⟩
  have hbefore : view.nodes[node]? = (absentee 1).node? node := getElem?_tableOf (by decide) node
  unfold joins leaves restarts isMember ClusterSnapshot.isMember
  rw [hbefore]
  by_cases hfirst : node = 1
  · subst hfirst
    decide
  · by_cases hsecond : node = 2
    · subst hsecond
      decide
    · simp [ClusterSnapshot.node?, absentee, Ne.symm hfirst, Ne.symm hsecond]

end ClusterView

end ClusterFence
