import ClusterFence.Proofs.Records
import Mathlib.Logic.Relation

namespace ClusterFence.History

/-- From `h` to `h'` no history is lost, and what is remembered of a node has become what it is by
    records that `R` allows of that node. -/
structure Evolves (R : NodeId → NodeHistory → NodeHistory → Prop) (h h' : History) : Prop where
  contains : ∀ node, h.contains node = true → h'.contains node = true
  lookup : ∀ node, Relation.ReflTransGen (R node) (h.lookup node) (h'.lookup node)

namespace Evolves

variable {R : NodeId → NodeHistory → NodeHistory → Prop} {h h' h'' : History}

theorem refl (h : History) : Evolves R h h := ⟨fun _ hknown => hknown, fun _ => .refl⟩

theorem trans (hfirst : Evolves R h h') (hthen : Evolves R h' h'') : Evolves R h h'' where
  contains node hknown := hthen.contains node (hfirst.contains node hknown)
  lookup node := (hfirst.lookup node).trans (hthen.lookup node)

theorem ensure (h : History) (node : NodeId) : Evolves R h (h.ensure node) where
  contains other hknown := by rw [contains_ensure, hknown, Bool.or_true]
  lookup other := by rw [lookup_ensure]

theorem update {node : NodeId} {f : NodeHistory → NodeHistory}
    (hf : R node (h.lookup node) (f (h.lookup node))) : Evolves R h (h.update node f) where
  contains other hknown := by rwa [contains_update]
  lookup other := by
    refine lookup_update (P := Relation.ReflTransGen (R other) (h.lookup other)) .refl ?_
    rintro rfl -
    exact .single hf

/-- Several records one after the other. -/
theorem foldl {α : Type} {f : History → α → History} {l : List α}
    (hf : ∀ h, ∀ a ∈ l, Evolves R h (f h a)) : Evolves R h (l.foldl f h) := by
  induction l generalizing h with
  | nil => exact refl h
  | cons a rest ih =>
    refine (hf h a List.mem_cons_self).trans (ih ?_)
    intro h a' ha'
    exact hf h a' (List.mem_cons_of_mem _ ha')

theorem recordRemovals {left : List GroupAddress} {seq : UInt32} {now : Seconds}
    (hR : ∀ a ∈ left, ∀ n,
      R a.node n { n with failTime := now, failSeq := max n.failSeq seq } ∧
        R a.node n { n with leftTime := now, leftSeq := max n.leftSeq seq }) :
    Evolves R h (h.recordRemovals left seq now) := by
  refine foldl fun h a ha => ?_
  split
  · exact update (hR a ha _).1
  · exact update (hR a ha _).2

/-- To start histories adds nothing to what is remembered. -/
theorem ensureJoined (h : History) (us : NodeId) (m : Membership) :
    Evolves R h (h.ensureJoined us m) := by
  have hjoined : Evolves R h ((m.joined.takeWhile (m.lists ·.node)).foldl
      (fun h a => if a.node == us then h else h.ensure a.node) h) := by
    refine foldl fun h a _ => ?_
    split
    · exact refl h
    · exact ensure h a.node
  unfold History.ensureJoined
  dsimp only
  split
  · exact hjoined.trans (foldl fun h a _ => ensure h a.node)
  · exact hjoined

theorem merge {entries : List NodeEntry}
    (hR : ∀ e ∈ entries, ∀ n, R e.node n ((n.adoptFencing e).adoptExternal e)) :
    Evolves R h (h.merge entries) :=
  foldl fun h e he => (ensure h e.node).trans (update (hR e he _))

/-- A node that came back has gone before. -/
theorem updateHistory {v : ClusterView} {s : ClusterSnapshot} {now : Seconds}
    (hR : ∀ t ∈ ClusterView.transitions v.nodes (ClusterView.tableOf s), ∀ n,
      R t.1 n { n with clusterAddTime := now } ∧ R t.1 n { n with clusterRemoveTime := now }) :
    Evolves R h (v.updateHistory s h now) := by
  refine foldl ?_
  rintro h ⟨node, transition⟩ ht
  have hadd (h : History) : Evolves R h (h.clusterAdd node now) :=
    (ensure h node).trans (update (hR _ ht _).1)
  have hremove : Evolves R h (h.clusterRemove node now) := update (hR _ ht _).2
  cases transition with
  | came => exact hadd h
  | went => exact hremove
  | cameBack => exact hremove.trans (hadd _)

section

variable {node : NodeId} {P : NodeHistory → Prop}

/-- What the records of a node respect stays true of what is remembered of it. -/
theorem keep (he : Evolves R h h') (hR : ∀ n n', R node n n' → P n → P n')
    (hP : P (h.lookup node)) : P (h'.lookup node) := by
  have hrecords := he.lookup node
  generalize h'.lookup node = n' at hrecords ⊢
  induction hrecords with
  | refl => exact hP
  | tail _ hlast ih => exact hR _ _ hlast ih

theorem holds (he : Evolves R h h') (hR : ∀ n n', R node n n' → P n → P n')
    (hh : h.Holds node P) : h'.Holds node P := by
  rw [holds_iff] at hh ⊢
  exact ⟨he.contains node hh.1, he.keep hR hh.2⟩

theorem keyed (he : Evolves R h h') (hR : ∀ node n n', R node n n' → n'.node = n.node)
    (hk : h.Keyed) : h'.Keyed := by
  rw [keyed_iff] at hk ⊢
  intro node
  refine he.keep (P := (·.node = node)) ?_ (hk node)
  intro n n' hn hnode
  exact (hR node n n' hn).trans hnode

end

end Evolves

section

variable {h : History} {node : NodeId} {P : NodeHistory → Prop}

theorem contains_recordRemovals (hknown : h.contains node = true) (left : List GroupAddress)
    (seq : UInt32) (now : Seconds) : (h.recordRemovals left seq now).contains node = true :=
  (Evolves.recordRemovals (R := fun _ _ _ => True) fun _ _ _ => ⟨trivial, trivial⟩).contains node
    hknown

theorem contains_updateHistory (hknown : h.contains node = true) (v : ClusterView)
    (s : ClusterSnapshot) (now : Seconds) : (v.updateHistory s h now).contains node = true :=
  (Evolves.updateHistory (R := fun _ _ _ => True) fun _ _ _ => ⟨trivial, trivial⟩).contains node
    hknown

/-- Removals keep what failures and departures of the node respect. -/
theorem lookup_recordRemovals (hP : P (h.lookup node)) {left : List GroupAddress} {seq : UInt32}
    {now : Seconds} (hkeep : ∀ a ∈ left, a.node = node → ∀ n, P n →
      P { n with failTime := now, failSeq := max n.failSeq seq } ∧
        P { n with leftTime := now, leftSeq := max n.leftSeq seq }) :
    P ((h.recordRemovals left seq now).lookup node) := by
  have hremoved : Evolves (fun other n n' => other = node → P n → P n') h
      (h.recordRemovals left seq now) :=
    .recordRemovals fun a ha n =>
      ⟨fun heq hn => (hkeep a ha heq n hn).1, fun heq hn => (hkeep a ha heq n hn).2⟩
  exact hremoved.keep (fun _ _ hn => hn rfl) hP

theorem Holds.recordRemovals (hh : h.Holds node P) (left : List GroupAddress) (seq : UInt32)
    (now : Seconds) (hkeep : ∀ a ∈ left, a.node = node → ∀ n, P n →
      P { n with failTime := now, failSeq := max n.failSeq seq } ∧
        P { n with leftTime := now, leftSeq := max n.leftSeq seq }) :
    (h.recordRemovals left seq now).Holds node P := by
  rw [holds_iff] at hh ⊢
  exact ⟨contains_recordRemovals hh.1 left seq now, lookup_recordRemovals hh.2 hkeep⟩

@[simp] theorem lookup_ensureJoined (h : History) (us : NodeId) (m : Membership) (node : NodeId) :
    (h.ensureJoined us m).lookup node = h.lookup node :=
  (Evolves.ensureJoined (R := fun _ n n' => n' = n) h us m).keep (P := (· = h.lookup node))
    (fun _ _ hn heq => hn.trans heq) rfl

/-- A snapshot keeps what its stamps respect, if they are for the node at all. -/
theorem lookup_updateHistory (hP : P (h.lookup node)) {v : ClusterView} {s : ClusterSnapshot}
    {now : Seconds}
    (hkeep : ∀ t ∈ ClusterView.transitions v.nodes (ClusterView.tableOf s), t.1 = node → ∀ n,
      P n → P { n with clusterAddTime := now } ∧ P { n with clusterRemoveTime := now }) :
    P ((v.updateHistory s h now).lookup node) := by
  have hstamped : Evolves (fun other n n' => other = node → P n → P n') h
      (v.updateHistory s h now) :=
    .updateHistory fun t ht n =>
      ⟨fun heq hn => (hkeep t ht heq n hn).1, fun heq hn => (hkeep t ht heq n hn).2⟩
  exact hstamped.keep (fun _ _ hn => hn rfl) hP

theorem Holds.updateHistory (hh : h.Holds node P) {v : ClusterView} {s : ClusterSnapshot}
    {now : Seconds}
    (hkeep : ∀ t ∈ ClusterView.transitions v.nodes (ClusterView.tableOf s), t.1 = node → ∀ n,
      P n → P { n with clusterAddTime := now } ∧ P { n with clusterRemoveTime := now }) :
    (v.updateHistory s h now).Holds node P := by
  rw [holds_iff] at hh ⊢
  exact ⟨contains_updateHistory hh.1 v s now, lookup_updateHistory hh.2 hkeep⟩

theorem Holds.merge (hh : h.Holds node P) (entries : List NodeEntry)
    (hadopt : ∀ n e, P n → P ((n.adoptFencing e).adoptExternal e)) :
    (h.merge entries).Holds node P :=
  (Evolves.merge (R := fun _ n n' => P n → P n') fun e _ n => hadopt n e).holds
    (fun _ _ hn => hn) hh

end

end ClusterFence.History
