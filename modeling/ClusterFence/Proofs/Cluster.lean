import ClusterFence.Cluster

namespace ClusterFence

/-- The snapshot lists the nodes as members, in the incarnations that are known. -/
def ClusterView.keeps (v : ClusterView) (s : ClusterSnapshot) (nodes : List NodeId) : Bool :=
  nodes.all fun node => (tableOf s)[node]?.any fun n =>
    n.member && v.nodes[node]?.all (·.incarnation == n.incarnation)

namespace ClusterView

variable {v : ClusterView} {s : ClusterSnapshot} {nodes : List NodeId} {node : NodeId}

/-- What a snapshot lists for a node that it keeps. -/
theorem exists_of_keeps (hkeeps : v.keeps s nodes = true) (hnode : node ∈ nodes) :
    ∃ n, (tableOf s)[node]? = some n ∧ n.member = true ∧
      v.nodes[node]?.all (·.incarnation == n.incarnation) = true := by
  unfold keeps at hkeeps
  rw [List.all_eq_true] at hkeeps
  have hany := hkeeps node hnode
  cases hget : (tableOf s)[node]? with
  | none => simp [hget] at hany
  | some n =>
    rw [hget, Option.any_some, Bool.and_eq_true] at hany
    exact ⟨n, rfl, hany.1, hany.2⟩

/-- Nothing happens to a member that a snapshot keeps. -/
theorem ne_of_mem_transitions (hkeeps : v.keeps s nodes = true) (hnode : node ∈ nodes)
    (hmember : v.isMember node = true) {t : NodeId × Transition}
    (ht : t ∈ transitions v.nodes (tableOf s)) : t.1 ≠ node := by
  obtain ⟨n, hnew, hin, hsame⟩ := exists_of_keeps hkeeps hnode
  intro heq
  obtain hgone | hcame := List.mem_append.1 ht
  · obtain ⟨⟨id, old⟩, hmem, rfl⟩ := List.mem_map.1 hgone
    have hid : id = node := heq
    have hfilter := (List.mem_filter.1 hmem).2
    simp [hid, hnew, hin] at hfilter
  · obtain ⟨⟨id, new⟩, hmem, hmap⟩ := List.mem_filterMap.1 hcame
    obtain ⟨change, harrival, rfl⟩ := Option.map_eq_some_iff.1 hmap
    have hid : id = node := heq
    have hlisted := Std.ExtTreeMap.mem_toList_iff_getElem?_eq_some.1 hmem
    rw [hid, hnew, Option.some.injEq] at hlisted
    unfold isMember at hmember
    cases hold : v.nodes[node]? with
    | none => simp [hold] at hmember
    | some before =>
      rw [hold, Option.any_some] at hmember
      rw [hold, Option.all_some] at hsame
      simp [hid, hold, ← hlisted, arrival?, hmember, eq_of_beq hsame] at harrival

theorem isMember_update (hkeeps : v.keeps s nodes = true) (hnode : node ∈ nodes)
    (now : Seconds) : (v.update s now).isMember node = true := by
  obtain ⟨n, hnew, hin, -⟩ := exists_of_keeps hkeeps hnode
  simp [isMember, update, hnew, hin]

end ClusterView

end ClusterFence
