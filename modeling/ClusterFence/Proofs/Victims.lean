import ClusterFence.Proofs.UpdateFirst
import ClusterFence.Victim
import Mathlib.Data.List.Nodup

namespace ClusterFence.Victims

/-- The node is a victim that was not dealt with here. -/
def isOpen (v : Victims) (node : NodeId) : Bool :=
  v.toList.any fun victim => victim.node == node && !victim.resolvedHere

/-- The node is a victim that was dealt with here, and waits for our report to come back. -/
def isClosed (v : Victims) (node : NodeId) : Bool :=
  v.toList.any fun victim => victim.node == node && victim.resolvedHere

theorem contains_eq_true_iff {v : Victims} {node : NodeId} :
    v.contains node = true ↔ node ∈ v.ids := by
  simp [contains, ids]

theorem contains_eq_false_iff {v : Victims} {node : NodeId} :
    v.contains node = false ↔ node ∉ v.ids := by
  rw [← contains_eq_true_iff, Bool.not_eq_true]

@[simp] theorem ids_empty : ({} : Victims).ids = [] := rfl

theorem ids_add (v : Victims) (victim : Victim) :
    (v.add victim).ids = if victim.node ∈ v.ids then v.ids else v.ids ++ [victim.node] := by
  unfold add
  by_cases h : victim.node ∈ v.ids
  · rw [if_pos (contains_eq_true_iff.2 h), if_pos h]
  · rw [if_neg (mt contains_eq_true_iff.1 h), if_neg h]
    simp [ids]

@[simp] theorem ids_erase (v : Victims) (node : NodeId) :
    (v.erase node).ids = v.ids.erase node := by
  unfold erase ids
  induction v.toList with
  | nil => rfl
  | cons victim rest ih =>
    rw [List.map_cons, List.erase_cons, List.eraseP_cons]
    cases hnode : victim.node == node <;> simp [ih]

@[simp] theorem ids_markResolved (v : Victims) (node : NodeId) :
    (v.markResolved node).ids = v.ids := by
  apply map_updateFirst
  intro victim
  rfl

theorem mem_ids_add {v : Victims} {victim : Victim} {node : NodeId} :
    node ∈ (v.add victim).ids ↔ node ∈ v.ids ∨ node = victim.node := by
  rw [ids_add]
  split <;> grind

theorem nodup_ids_add {v : Victims} (h : v.ids.Nodup) (victim : Victim) :
    (v.add victim).ids.Nodup := by
  rw [ids_add]
  split
  · exact h
  · rw [List.nodup_append]
    grind

/-- The ids after a change brings its victims: those of before and the failed nodes. -/
theorem mem_ids_addFailed {v : Victims} {c : Change} {name : NodeId → String} {node : NodeId} :
    node ∈ (v.addFailed c name).ids ↔ node ∈ v.ids ∨ node ∈ c.failedNodes := by
  unfold addFailed
  induction c.failedNodes generalizing v with
  | nil => simp
  | cons failed rest ih =>
    rw [List.foldl_cons, ih, mem_ids_add]
    grind

theorem nodup_ids_addFailed {v : Victims} (h : v.ids.Nodup) (c : Change)
    (name : NodeId → String) : (v.addFailed c name).ids.Nodup := by
  unfold addFailed
  induction c.failedNodes generalizing v with
  | nil => exact h
  | cons failed rest ih => exact ih (nodup_ids_add h _)

theorem mem_add {v : Victims} {new victim : Victim} (h : victim ∈ (v.add new).toList) :
    victim ∈ v.toList ∨ victim = new := by
  unfold add at h
  split at h
  · exact .inl h
  · simpa using h

/-- A change brings no victims but its failed nodes. -/
theorem mem_addFailed {v : Victims} {c : Change} {name : NodeId → String} {victim : Victim}
    (h : victim ∈ (v.addFailed c name).toList) :
    victim ∈ v.toList ∨ ∃ node ∈ c.failedNodes, victim = { node, name := name node } := by
  unfold addFailed at h
  generalize c.failedNodes = failedNodes at h ⊢
  induction failedNodes generalizing v with
  | nil => exact .inl h
  | cons failed rest ih =>
    obtain h | ⟨node, hnode, heq⟩ := ih h
    · exact (mem_add h).imp_right fun heq => ⟨failed, List.mem_cons_self, heq⟩
    · exact .inr ⟨node, List.mem_cons_of_mem _ hnode, heq⟩

/-- No configured node is presumed to have failed that is in the cluster or in the change. -/
theorem mem_addInitial {v : Victims} {c : Change} {configured : List ConfiguredNode}
    {cluster : ClusterView} {victim : Victim}
    (h : victim ∈ (v.addInitial c configured cluster).toList) :
    victim ∈ v.toList ∨ ∃ n ∈ configured, victim = { node := n.id, name := n.name, initial := true } ∧
      cluster.isMember n.id = false ∧ c.isMember n.id = false := by
  unfold addInitial at h
  induction configured generalizing v with
  | nil => exact .inl h
  | cons n rest ih =>
    rw [List.foldl_cons] at h
    obtain h | ⟨other, hother, hrest⟩ := ih h
    · split at h
      · exact .inl h
      · rename_i habsent
        rw [Bool.or_eq_true, not_or, Bool.not_eq_true, Bool.not_eq_true] at habsent
        exact (mem_add h).imp_right fun heq => ⟨n, List.mem_cons_self, heq, habsent⟩
    · exact .inr ⟨other, List.mem_cons_of_mem _ hother, hrest⟩

/-- Presuming that configured nodes have failed keeps the victims that there are. -/
theorem mem_ids_addInitial {v : Victims} {node : NodeId} (h : node ∈ v.ids) (c : Change)
    (configured : List ConfiguredNode) (cluster : ClusterView) :
    node ∈ (v.addInitial c configured cluster).ids := by
  unfold addInitial
  induction configured generalizing v with
  | nil => exact h
  | cons n rest ih =>
    rw [List.foldl_cons]
    split
    · exact ih h
    · exact ih (mem_ids_add.2 (.inl h))

theorem nodup_ids_addInitial {v : Victims} (h : v.ids.Nodup) (c : Change)
    (configured : List ConfiguredNode) (cluster : ClusterView) :
    (v.addInitial c configured cluster).ids.Nodup := by
  unfold addInitial
  induction configured generalizing v with
  | nil => exact h
  | cons n rest ih =>
    rw [List.foldl_cons]
    split
    · exact ih h
    · exact ih (nodup_ids_add h _)

section

variable {v : Victims} {node other : NodeId}

theorem mem_ids_of_isOpen (h : v.isOpen node = true) : node ∈ v.ids := by
  unfold isOpen at h
  rw [List.any_eq_true] at h
  obtain ⟨victim, hvictim, hopen⟩ := h
  rw [Bool.and_eq_true] at hopen
  rw [← eq_of_beq hopen.1]
  exact List.mem_map_of_mem hvictim

/-- A victim that nobody has dealt with is open. -/
theorem isOpen_of_mem_ids (hnone : ∀ victim ∈ v.toList, victim.resolvedHere = false)
    (h : node ∈ v.ids) : v.isOpen node = true := by
  obtain ⟨victim, hvictim, rfl⟩ := List.mem_map.1 h
  unfold isOpen
  rw [List.any_eq_true]
  exact ⟨victim, hvictim, by simp [hnone victim hvictim]⟩

theorem isOpen_erase_of_ne (hne : other ≠ node) :
    (v.erase node).isOpen other = v.isOpen other := by
  unfold erase isOpen
  induction v.toList with
  | nil => rfl
  | cons victim rest ih =>
    rw [List.eraseP_cons]
    cases hnode : victim.node == node with
    | true =>
      have hfalse : (victim.node == other) = false := by
        rw [eq_of_beq hnode]
        exact beq_false_of_ne hne.symm
      simp [hfalse]
    | false => simp [ih]

theorem not_isOpen_erase (h : v.ids.Nodup) : (v.erase node).isOpen node = false := by
  rw [← Bool.not_eq_true]
  intro hopen
  have hmem := mem_ids_of_isOpen hopen
  rw [ids_erase, h.mem_erase_iff] at hmem
  exact hmem.1 rfl

/-- To take a victim out is to leave all others as they are. -/
theorem toList_erase (h : v.ids.Nodup) :
    (v.erase node).toList = v.toList.filter (·.node != node) := by
  obtain ⟨victims⟩ := v
  unfold ids at h
  dsimp only [erase] at h ⊢
  induction victims with
  | nil => rfl
  | cons victim rest ih =>
    rw [List.map_cons, List.nodup_cons] at h
    rw [List.eraseP_cons, List.filter_cons]
    by_cases hnode : victim.node = node
    · have hrest : ∀ other ∈ rest, (other.node != node) = true := by
        intro other hother
        rw [bne_iff_ne, ← hnode]
        exact fun heq => h.1 (heq ▸ List.mem_map_of_mem hother)
      simp [hnode, List.filter_eq_self.2 hrest]
    · simp [beq_false_of_ne hnode, bne, ih h.2]

theorem isOpen_markResolved_of_ne (hne : other ≠ node) :
    (v.markResolved node).isOpen other = v.isOpen other := by
  apply any_updateFirst
  intro victim hvictim
  rw [eq_of_beq hvictim]
  simp [hne.symm]

theorem not_isOpen_markResolved (h : v.ids.Nodup) :
    (v.markResolved node).isOpen node = false := by
  unfold markResolved isOpen
  unfold ids at h
  induction hlist : v.toList generalizing v with
  | nil => rfl
  | cons victim rest ih =>
    rw [hlist, List.map_cons, List.nodup_cons] at h
    unfold updateFirst
    cases hnode : victim.node == node with
    | true =>
      -- the node is listed once, so the rest is about others
      have hrest : (rest.any fun other => other.node == node && !other.resolvedHere) = false := by
        rw [List.any_eq_false]
        intro other hother hopen
        rw [Bool.and_eq_true] at hopen
        apply h.1
        rw [eq_of_beq hnode, ← eq_of_beq hopen.1]
        exact List.mem_map_of_mem hother
      simp [hrest]
    | false => simpa [hnode] using ih h.2 rfl

/-- To deal with a victim closes it, whether it came back by itself or waits for our report. -/
theorem resolve_spec (h : v.ids.Nodup) (node : NodeId) (reduced : Bool) :
    let v' := if reduced then v.erase node else v.markResolved node
    v'.ids.Nodup ∧ (∀ other ∈ v'.ids, other ∈ v.ids) ∧ v'.isOpen node = false ∧
      ∀ other, other ≠ node → v'.isOpen other = v.isOpen other := by
  cases reduced with
  | true =>
    refine ⟨?_, ?_, not_isOpen_erase h, fun other hne => isOpen_erase_of_ne hne⟩
    · rw [if_pos rfl, ids_erase]
      exact h.erase node
    · intro other hother
      rw [if_pos rfl, ids_erase] at hother
      exact List.mem_of_mem_erase hother
  | false =>
    refine ⟨?_, ?_, not_isOpen_markResolved h, fun other hne => isOpen_markResolved_of_ne hne⟩
    · rw [if_neg Bool.false_ne_true, ids_markResolved]
      exact h
    · intro other hother
      rw [if_neg Bool.false_ne_true, ids_markResolved] at hother
      exact hother

/-- Failed nodes become victims that nobody has dealt with. -/
theorem resolvedHere_addFailed (hnone : ∀ victim ∈ v.toList, victim.resolvedHere = false)
    (c : Change) (name : NodeId → String) :
    ∀ victim ∈ (v.addFailed c name).toList, victim.resolvedHere = false := by
  intro victim hvictim
  obtain hvictim | ⟨_, -, rfl⟩ := mem_addFailed hvictim
  · exact hnone victim hvictim
  · rfl

/-- There is one victim for a node, so it is either open or closed. -/
theorem isOpen_eq_not_isClosed (hnodup : v.ids.Nodup) {victim : Victim}
    (hvictim : v.get? node = some victim) :
    v.isOpen node = !victim.resolvedHere ∧ v.isClosed node = victim.resolvedHere := by
  obtain ⟨hnode, hmem⟩ : victim.node = node ∧ victim ∈ v.toList :=
    ⟨by simpa using List.find?_some hvictim, List.mem_of_find?_eq_some hvictim⟩
  have hsole : ∀ other ∈ v.toList, other.node = node → other = victim := by
    intro other hother heq
    exact List.inj_on_of_nodup_map hnodup hother hmem (heq.trans hnode.symm)
  constructor
  · rw [Bool.eq_iff_iff, isOpen, List.any_eq_true]
    grind
  · rw [Bool.eq_iff_iff, isClosed, List.any_eq_true]
    grind

theorem get?_isSome_of_mem_ids (h : node ∈ v.ids) : ∃ victim, v.get? node = some victim := by
  rw [← Option.isSome_iff_exists, get?, List.find?_isSome]
  obtain ⟨victim, hvictim, rfl⟩ := List.mem_map.1 h
  exact ⟨victim, hvictim, by simp⟩

theorem get?_of_mem (hnodup : v.ids.Nodup) {victim : Victim} (hvictim : victim ∈ v.toList) :
    v.get? victim.node = some victim := by
  obtain ⟨first, hfirst⟩ := get?_isSome_of_mem_ids (List.mem_map_of_mem hvictim)
  have hnode : first.node = victim.node := by simpa using List.find?_some hfirst
  rw [hfirst, List.inj_on_of_nodup_map hnodup (List.mem_of_find?_eq_some hfirst) hvictim hnode]

/-- A victim that is added was not dealt with, and those that there are stay as they are. -/
theorem isClosed_add {victim : Victim} (h : victim.resolvedHere = false) :
    (v.add victim).isClosed node = v.isClosed node := by
  unfold add
  split
  · rfl
  · simp [isClosed, h]

theorem isClosed_addFailed (c : Change) (name : NodeId → String) :
    (v.addFailed c name).isClosed node = v.isClosed node := by
  unfold addFailed
  induction c.failedNodes generalizing v with
  | nil => rfl
  | cons failed rest ih => exact ih.trans (isClosed_add rfl)

theorem isClosed_addInitial (c : Change) (configured : List ConfiguredNode)
    (cluster : ClusterView) : (v.addInitial c configured cluster).isClosed node =
      v.isClosed node := by
  unfold addInitial
  induction configured generalizing v with
  | nil => rfl
  | cons n rest ih =>
    rw [List.foldl_cons, ih]
    split
    · rfl
    · exact isClosed_add rfl

end

end ClusterFence.Victims
