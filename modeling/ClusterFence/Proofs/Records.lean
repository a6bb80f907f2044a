import ClusterFence.ChangeQueue
import ClusterFence.Cluster
import ClusterFence.Proofs.History
import Mathlib.Data.List.TakeWhile

namespace ClusterFence

/-- Nobody strays if whoever joined is listed as a member. -/
theorem Membership.stray?_eq_none_iff {m : Membership} :
    m.stray? = none ↔ ∀ a ∈ m.joined, m.lists a.node = true := by
  unfold stray?
  rw [Option.map_eq_none_iff, List.find?_eq_none]
  simp

/-- The node was in the cluster by `time`, and no change after the one numbered `seq` was matched
    with its START or removed it. -/
def NodeHistory.NotAfter (n : NodeHistory) (time : Seconds) (seq : UInt32) : Prop :=
  n.clusterAddTime ≤ time ∧ n.lastMatchSeq ≤ seq ∧ n.failSeq ≤ seq ∧ n.leftSeq ≤ seq

instance (n : NodeHistory) (time : Seconds) (seq : UInt32) : Decidable (n.NotAfter time seq) :=
  inferInstanceAs (Decidable (_ ∧ _))

/-- Of two numbers of changes the later one stays. -/
theorem NodeHistory.max_seq_eq_ite (old new : UInt32) :
    max old new = if old ≤ new then new else old := rfl

@[simp] theorem NodeHistory.isMember_entry (n : NodeHistory) (member : Bool) :
    (n.entry member).isMember = member := by
  cases member <;> simp [entry, NodeEntry.isMember, NodeEntry.memberFlag]

namespace History

/-- The node has a history, and `P` holds of it. -/
def Holds (h : History) (node : NodeId) (P : NodeHistory → Prop) : Prop :=
  ∃ n, h.get? node = some n ∧ P n

instance (h : History) (node : NodeId) (P : NodeHistory → Prop) [DecidablePred P] :
    Decidable (h.Holds node P) :=
  decidable_of_iff ((h.get? node).any (P ·)) (by simp [Holds, Option.any_eq_true])

/-- Every history is kept under its own node. -/
def Keyed (h : History) : Prop := ∀ node n, h.get? node = some n → n.node = node

section

variable {h : History} {node : NodeId} {P Q : NodeHistory → Prop}

/-- There is one history of a node. -/
theorem Holds.and (hP : h.Holds node P) (hQ : h.Holds node Q) : ∃ n, P n ∧ Q n := by
  obtain ⟨n, hn, hP⟩ := hP
  obtain ⟨n', hn', hQ⟩ := hQ
  rw [hn, Option.some.injEq] at hn'
  rw [← hn'] at hQ
  exact ⟨n, hP, hQ⟩

/-- What is recorded about the node has to lead from `P` to `Q`; about another node, `P` has to
    do. -/
theorem Holds.update (hh : h.Holds node P) {other : NodeId} {f : NodeHistory → NodeHistory}
    (hsame : other = node → ∀ n, P n → Q (f n)) (hother : other ≠ node → ∀ n, P n → Q n) :
    (h.update other f).Holds node Q := by
  obtain ⟨n, hn, hP⟩ := hh
  unfold Holds
  by_cases heq : other = node
  · rw [heq, get?_update_self, hn]
    exact ⟨f n, rfl, hsame heq n hP⟩
  · rw [get?_update_of_ne heq]
    exact ⟨n, hn, hother heq n hP⟩

/-- A record keeps what it respects. -/
theorem Holds.keep (hh : h.Holds node P) {other : NodeId} {f : NodeHistory → NodeHistory}
    (hf : other = node → ∀ n, P n → P (f n)) : (h.update other f).Holds node P :=
  hh.update hf fun _ _ hP => hP

end

/-- What is remembered of a node; of one without a history, what a new one would say. -/
def lookup (h : History) (node : NodeId) : NodeHistory := (h.get? node).getD { node }

section

variable {h : History} {node : NodeId} {P : NodeHistory → Prop}

theorem lookup_of_get? {n : NodeHistory} (hn : h.get? node = some n) : h.lookup node = n := by
  rw [lookup, hn, Option.getD_some]

/-- To start a history adds nothing to what is remembered. -/
@[simp] theorem lookup_ensure (h : History) (node other : NodeId) :
    (h.ensure other).lookup node = h.lookup node := by
  rw [lookup, get?_ensure]
  split
  · rename_i heq
    rw [heq, Option.getD_some, lookup]
  · rfl

/-- A record keeps what it respects. -/
theorem lookup_update (hP : P (h.lookup node)) {other : NodeId} {f : NodeHistory → NodeHistory}
    (hf : other = node → P (h.lookup node) → P (f (h.lookup node))) :
    P ((h.update other f).lookup node) := by
  by_cases heq : other = node
  · rw [lookup, heq, get?_update_self]
    cases hn : h.get? node with
    | none => simpa [lookup, hn] using hP
    | some n =>
      rw [Option.map_some, Option.getD_some]
      simpa [lookup, hn] using hf heq hP
  · rw [lookup, get?_update_of_ne heq]
    exact hP

theorem keyed_empty : ({} : History).Keyed := by
  intro node n hn
  simp [get?] at hn

theorem keyed_iff : h.Keyed ↔ ∀ node, (h.lookup node).node = node := by
  refine forall_congr' fun node => ?_
  unfold lookup
  cases h.get? node <;> simp

end

section

variable {h : History} {node other : NodeId}

theorem contains_iff : h.contains node = true ↔ h.Holds node fun _ => True := by
  unfold contains Holds get?
  rw [Std.ExtTreeMap.contains_eq_isSome_getElem?, Option.isSome_iff_exists]
  exact exists_congr fun n => (and_iff_left trivial).symm

@[simp] theorem contains_ensure (h : History) (node other : NodeId) :
    (h.ensure node).contains other = (node == other || h.contains other) := by
  unfold contains ensure
  rw [Std.ExtTreeMap.contains_insertIfNew, Bool.eq_iff_iff]
  simp [Std.LawfulEqCmp.compare_eq_iff_eq]

@[simp] theorem contains_update (h : History) (node other : NodeId)
    (f : NodeHistory → NodeHistory) : (h.update node f).contains other = h.contains other := by
  unfold contains update
  rw [Std.ExtTreeMap.contains_modify]

theorem holds_iff {P : NodeHistory → Prop} :
    h.Holds node P ↔ h.contains node = true ∧ P (h.lookup node) := by
  rw [contains_iff]
  constructor
  · rintro ⟨n, hn, hP⟩
    exact ⟨⟨n, hn, trivial⟩, by rwa [lookup_of_get? hn]⟩
  · rintro ⟨⟨n, hn, -⟩, hP⟩
    rw [lookup_of_get? hn] at hP
    exact ⟨n, hn, hP⟩

theorem Keyed.holds_of_contains (hk : h.Keyed) {node : NodeId} (hknown : h.contains node = true) :
    h.Holds node (·.node = node) :=
  holds_iff.2 ⟨hknown, keyed_iff.1 hk node⟩

/-- Whoever gets a history by one of several records has one after them. -/
theorem contains_foldl {α : Type} {f : History → α → History} {l : List α}
    (hkeep : ∀ h a, h.contains node = true → (f h a).contains node = true)
    (hknown : h.contains node = true ∨ ∃ a ∈ l, ∀ h : History, (f h a).contains node = true) :
    (l.foldl f h).contains node = true := by
  induction l generalizing h with
  | nil =>
    obtain hknown | ⟨a, ha, -⟩ := hknown
    · exact hknown
    · cases ha
  | cons first rest ih =>
    rw [List.foldl_cons]
    apply ih
    obtain hknown | ⟨a, ha, hf⟩ := hknown
    · exact .inl (hkeep h first hknown)
    · obtain rfl | ha := List.mem_cons.1 ha
      · exact .inl (hf h)
      · exact .inr ⟨a, ha, hf⟩

/-- Where nobody strays, every node that joins gets a history, and every member does if we join. -/
theorem contains_ensureJoined {us : NodeId} {m : Membership} (hstray : m.stray? = none)
    (hknown : h.contains node = true ∨ (∃ a ∈ m.joined, a.node = node ∧ node ≠ us) ∨
      m.joined.any (·.node == us) = true ∧ ∃ a ∈ m.members, a.node = node) :
    (h.ensureJoined us m).contains node = true := by
  have hlisted : m.joined.takeWhile (m.lists ·.node) = m.joined := by
    rw [List.takeWhile_eq_self_iff]
    exact Membership.stray?_eq_none_iff.1 hstray
  unfold ensureJoined
  dsimp only
  rw [hlisted, hstray, Option.isNone_none, Bool.true_and]
  have hjoined (hknown : h.contains node = true ∨ ∃ a ∈ m.joined, a.node = node ∧ node ≠ us) :
      (m.joined.foldl (fun h a => if a.node == us then h else h.ensure a.node) h).contains node =
        true := by
    apply contains_foldl
    · intro h a hknown
      split
      · exact hknown
      · rw [contains_ensure, hknown, Bool.or_true]
    · refine hknown.imp_right ?_
      rintro ⟨a, ha, rfl, hne⟩
      refine ⟨a, ha, fun h => ?_⟩
      rw [beq_false_of_ne hne, if_neg Bool.false_ne_true, contains_ensure, beq_self_eq_true,
        Bool.true_or]
  split
  · apply contains_foldl
    · intro h a hknown
      rw [contains_ensure, hknown, Bool.or_true]
    · rw [← or_assoc] at hknown
      refine hknown.imp hjoined ?_
      rintro ⟨-, a, ha, rfl⟩
      exact ⟨a, ha, fun h => by rw [contains_ensure, beq_self_eq_true, Bool.true_or]⟩
  · rename_i hus
    refine hjoined (hknown.imp_right fun hknown => hknown.resolve_right ?_)
    exact fun hmembers => hus hmembers.1

end

section

variable {h : History} {c : Change} {node : NodeId}

theorem isMember_of_mem_entriesFor {e : NodeEntry} (he : e ∈ h.entriesFor c) :
    e.isMember = c.isMember e.node := by
  obtain ⟨n, -, rfl⟩ := List.mem_map.1 he
  rw [NodeHistory.isMember_entry]
  rfl

/-- Each node with a history under its own name has a line in a report. -/
theorem Holds.exists_mem_entriesFor (hh : h.Holds node (·.node = node)) (c : Change) :
    ∃ e ∈ h.entriesFor c, e.node = node := by
  obtain ⟨n, hn, hnode⟩ := hh
  refine ⟨n.entry (c.isMember n.node), List.mem_map_of_mem ?_, hnode⟩
  exact List.mem_map.2 ⟨(node, n), Std.ExtTreeMap.mem_toList_iff_getElem?_eq_some.2 hn, rfl⟩

/-- The line about it flags it if it is a member. -/
theorem Holds.find?_entriesFor (hh : h.Holds node (·.node = node)) (c : Change) :
    ((h.entriesFor c).find? (·.node == node)).any (·.isMember) = c.isMember node := by
  obtain ⟨e, he, hnode⟩ := hh.exists_mem_entriesFor c
  cases hfind : (h.entriesFor c).find? (·.node == node) with
  | none =>
    rw [List.find?_eq_none] at hfind
    exact absurd (beq_iff_eq.2 hnode) (hfind e he)
  | some first =>
    have hfirst : first.node = node := by simpa using List.find?_some hfind
    rw [Option.any_some, isMember_of_mem_entriesFor (List.mem_of_find?_eq_some hfind), hfirst]

end

end History

end ClusterFence
