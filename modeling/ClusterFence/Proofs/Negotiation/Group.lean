import ClusterFence.Negotiation

namespace ClusterFence

/-- The announcement has no zero in its highest version, and none in a version that it runs. -/
def Offer.WellFormed (o : Offer) : Prop :=
  o.max.major ≠ 0 ∧ o.max.minor ≠ 0 ∧ o.max.patch ≠ 0 ∧
    (o.run.major = 0 ∨ o.run.minor ≠ 0 ∧ o.run.patch ≠ 0)

instance (o : Offer) : Decidable o.WellFormed :=
  inferInstanceAs (Decidable (_ ≠ _ ∧ _ ≠ _ ∧ _ ≠ _ ∧ (_ = _ ∨ _ ≠ _ ∧ _ ≠ _)))

theorem Offer.fault?_eq_none_iff {o : Offer} : o.fault? = none ↔ o.WellFormed := by
  unfold fault? WellFormed
  grind

namespace DaemonGroup

/-- The node is in the group. -/
def lists (g : DaemonGroup) (node : NodeId) : Bool := g.nodes[node]?.any (·.isMember)

theorem isCleanMember_eq (g : DaemonGroup) (node : NodeId) :
    g.isCleanMember node = (g.lists node && (g.offer? node).isSome) := by
  unfold isCleanMember lists offer?
  cases g.nodes[node]? <;> simp

theorem getElem?_foldl_insertIfNew (nodes : NodeTable DaemonNode) (members : List NodeId)
    (node : NodeId) :
    (members.foldl (·.insertIfNew · {}) nodes)[node]? =
      if node ∈ members then some (nodes[node]?.getD {}) else nodes[node]? := by
  induction members generalizing nodes with
  | nil => simp
  | cons first rest ih =>
    rw [List.foldl_cons, ih, Std.ExtTreeMap.getElem?_insertIfNew]
    simp only [Std.LawfulEqCmp.compare_eq_iff_eq, Std.ExtTreeMap.mem_iff_isSome_getElem?]
    by_cases hfirst : first = node
    · subst hfirst
      cases nodes[first]? <;> simp
    · simp [hfirst, Ne.symm hfirst]

theorem getElem?_changeMembers (g : DaemonGroup) (members : List NodeId) (now : Seconds)
    (node : NodeId) :
    (g.changeMembers members now).nodes[node]? =
      (if node ∈ members then some (g.nodes[node]?.getD {}) else g.nodes[node]?).map
        (·.listed (members.contains node) now) := by
  unfold changeMembers
  dsimp only
  rw [Std.ExtTreeMap.getElem?_map, getElem?_foldl_insertIfNew]

@[simp] theorem lists_changeMembers (g : DaemonGroup) (members : List NodeId) (now : Seconds)
    (node : NodeId) : (g.changeMembers members now).lists node = members.contains node := by
  unfold lists
  rw [getElem?_changeMembers]
  by_cases hmember : node ∈ members
  · cases hlisted : (g.nodes[node]?.getD {}).isMember <;>
      simp [hmember, DaemonNode.listed, hlisted]
  · cases hnode : g.nodes[node]? with
    | none => simp [hmember]
    | some n => cases hlisted : n.isMember <;> simp [hmember, DaemonNode.listed, hlisted]

/-- The table of nodes goes with the list of members, and an offer is held of members only. -/
structure Coherent (g : DaemonGroup) : Prop where
  lists_iff : ∀ node, g.lists node = true ↔ node ∈ g.members
  lists_of_offer : ∀ node, (g.offer? node).isSome = true → g.lists node = true

theorem coherent_new (us : NodeId) (max : Version) : (new us max).Coherent := by
  constructor <;> simp [new, lists, offer?]

/-- A node that stays keeps its offer, and that of any other node is forgotten. -/
theorem offer?_changeMembers {g : DaemonGroup} (h : g.Coherent) (members : List NodeId)
    (now : Seconds) (node : NodeId) :
    (g.changeMembers members now).offer? node = if node ∈ members then g.offer? node else none := by
  have hoffer := h.lists_of_offer node
  unfold offer? lists at *
  rw [getElem?_changeMembers]
  by_cases hmember : node ∈ members
  · cases hnode : g.nodes[node]? with
    | none => simp [hmember, DaemonNode.listed]
    | some n => cases hlisted : n.isMember <;> simp [hmember, DaemonNode.listed, hlisted]
  · cases hnode : g.nodes[node]? with
    | none => simp [hmember]
    | some n =>
      rw [hnode] at hoffer
      cases hlisted : n.isMember <;> simp_all [DaemonNode.listed]

/-- Who has only just come holds no offer. -/
theorem offer?_changeMembers_new (us : NodeId) (max : Version) (members : List NodeId)
    (now : Seconds) (node : NodeId) :
    ((new us max).changeMembers members now).offer? node = none := by
  rw [offer?_changeMembers (coherent_new us max)]
  simp [new, offer?]

/-- What an announcement comes to. It is refused, or it tells of a partition and is not held, or it
    is held and the version in it adopted when we run none. -/
inductive Hears (g : DaemonGroup) (sender : NodeId) (o : Offer) :
    Except Error (DaemonGroup × OfferVerdict) → Prop
  | refused (e) (unfit : ¬ o.WellFormed ∨ g.lists sender = false) :
      Hears g sender o (.error e)
  | merged (n killed verdict) (fit : o.WellFormed) (listed : g.lists sender = true)
      (node : g.nodes[sender]? = some n) (merge : g.isStatefulMerge sender n o = true) :
      Hears g sender o
        (.ok ({ g with nodes := g.nodes.insert sender { n with killed } }, verdict))
  | held (n) (fit : o.WellFormed) (listed : g.lists sender = true)
      (node : g.nodes[sender]? = some n) (apart : g.isStatefulMerge sender n o = false) :
      Hears g sender o
        (.ok ({ g with
            nodes := g.nodes.insert sender { n with offer := some o }
            ours.run := g.adopt o.run }, .noted))

theorem insert_self {nodes : NodeTable DaemonNode} {node : NodeId} {n : DaemonNode}
    (h : nodes[node]? = some n) : nodes.insert node n = nodes := by
  apply Std.ExtTreeMap.ext_getElem?
  intro other
  rw [Std.ExtTreeMap.getElem?_insert]
  split
  · rename_i heq
    rw [← Std.LawfulEqCmp.compare_eq_iff_eq.1 heq, h]
  · rfl

theorem hears_receiveOffer (g : DaemonGroup) (sender : NodeId) (o : Offer) (quorate : Bool)
    (quorateTime : Seconds) :
    g.Hears sender o (g.receiveOffer sender o quorate quorateTime) := by
  unfold receiveOffer
  cases hfault : o.fault? with
  | some fault =>
    refine .refused _ (.inl fun hfit => ?_)
    rw [Offer.fault?_eq_none_iff.2 hfit] at hfault
    cases hfault
  | none =>
    have hfit := Offer.fault?_eq_none_iff.1 hfault
    cases hnode : g.nodes[sender]? with
    | none => exact .refused _ (.inr (by rw [lists, hnode]; rfl))
    | some n =>
      have hlists : g.lists sender = n.isMember := by rw [lists, hnode, Option.any_some]
      obtain ⟨_ | _, killed, joinTime, leftTime, offer⟩ := n
      · exact .refused _ (.inr hlists)
      · simp only [Bool.not_true, Bool.false_eq_true, if_false]
        cases hmerge : g.isStatefulMerge sender _ o with
        | false => exact .held _ hfit hlists hnode hmerge
        | true =>
          rw [if_pos rfl]
          cases outranks _ quorate quorateTime with
          | true => exact .merged _ true _ hfit hlists hnode hmerge
          | false =>
            have hkept := Hears.merged _ killed .noted hfit hlists hnode hmerge
            rw [insert_self hnode] at hkept
            exact hkept

section

variable {g : DaemonGroup} {sender : NodeId} {n : DaemonNode}

/-- To note something of a node that is known does not change who is in the group. -/
theorem lists_insert (hnode : g.nodes[sender]? = some n) (n' : DaemonNode)
    (hmember : n'.isMember = n.isMember) (ours : Offer) (node : NodeId) :
    { g with nodes := g.nodes.insert sender n', ours }.lists node = g.lists node := by
  unfold lists
  dsimp only
  rw [Std.ExtTreeMap.getElem?_insert]
  split
  · rename_i heq
    rw [← Std.LawfulEqCmp.compare_eq_iff_eq.1 heq, hnode, Option.any_some, Option.any_some, hmember]
  · rfl

theorem offer?_insert (g : DaemonGroup) (sender : NodeId) (n' : DaemonNode) (ours : Offer)
    (node : NodeId) :
    { g with nodes := g.nodes.insert sender n', ours }.offer? node =
      if sender = node then n'.offer else g.offer? node := by
  unfold offer?
  dsimp only
  rw [Std.ExtTreeMap.getElem?_insert]
  simp only [Std.LawfulEqCmp.compare_eq_iff_eq]
  split <;> rfl

/-- What a partition is told by leaves the offers as they are. -/
theorem offer?_insert_killed (hnode : g.nodes[sender]? = some n) (killed : Bool) (ours : Offer)
    (node : NodeId) :
    { g with nodes := g.nodes.insert sender { n with killed }, ours }.offer? node =
      g.offer? node := by
  rw [offer?_insert]
  split
  · rename_i heq
    rw [← heq, offer?, hnode, Option.bind_some]
  · rfl

end

/-- What an announcement that is not refused leaves alone. -/
theorem Hears.kept {g g' : DaemonGroup} {sender : NodeId} {o : Offer} {verdict : OfferVerdict}
    (h : g.Hears sender o (.ok (g', verdict))) :
    g'.us = g.us ∧ g'.members = g.members ∧ g'.proposed = g.proposed ∧
      g'.ours.max = g.ours.max ∧ ∀ node, g'.lists node = g.lists node := by
  cases h with
  | merged n killed _ _ _ hnode _ =>
    exact ⟨rfl, rfl, rfl, rfl, lists_insert hnode { n with killed } rfl g.ours⟩
  | held n _ _ hnode _ =>
    exact ⟨rfl, rfl, rfl, rfl, lists_insert hnode { n with offer := some o } rfl _⟩

/-- An announcement touches the offer of its sender only, and makes it the one announced. -/
theorem Hears.offer?_cases {g g' : DaemonGroup} {sender : NodeId} {o : Offer}
    {verdict : OfferVerdict} (h : g.Hears sender o (.ok (g', verdict))) (node : NodeId) :
    g'.offer? node = g.offer? node ∨ node = sender ∧ g'.offer? node = some o := by
  cases h with
  | merged n killed _ _ _ hnode _ => exact .inl (offer?_insert_killed hnode killed g.ours node)
  | held n _ _ _ _ =>
    rw [offer?_insert]
    split
    · rename_i heq
      exact .inr ⟨heq.symm, rfl⟩
    · exact .inl rfl

theorem Coherent.hears {g g' : DaemonGroup} {sender : NodeId} {o : Offer}
    {verdict : OfferVerdict} (hg : g.Coherent) (h : g.Hears sender o (.ok (g', verdict))) :
    g'.Coherent := by
  obtain ⟨-, hmembers, -, -, hlists⟩ := h.kept
  refine ⟨fun node => by rw [hlists, hmembers, hg.lists_iff], fun node hoffer => ?_⟩
  rw [hlists]
  obtain hkept | ⟨rfl, -⟩ := h.offer?_cases node
  · rw [hkept] at hoffer
    exact hg.lists_of_offer node hoffer
  · cases h <;> assumption

theorem Coherent.changeMembers {g : DaemonGroup} (hg : g.Coherent) (members : List NodeId)
    (now : Seconds) : (g.changeMembers members now).Coherent := by
  constructor <;> intro node
  · rw [lists_changeMembers, List.contains_iff_mem]
    rfl
  · rw [offer?_changeMembers hg, lists_changeMembers, List.contains_iff_mem]
    split
    · exact fun _ => ‹_›
    · intro h
      cases h

/-- We go on with what we run, or we run the version that we hear of, with our own flags. -/
theorem adopt_cases (g : DaemonGroup) (run : Version) :
    (g.ours.run.isSet = true ∨ run.isSet = false) ∧ g.adopt run = g.ours.run ∨
      g.ours.run.isSet = false ∧ run.isSet = true ∧
        g.adopt run = { run with flags := g.ours.run.flags } := by
  unfold adopt
  cases g.ours.run.isSet <;> cases run.isSet <;> simp

/-- Proposing notes that we did. -/
theorem propose_fst (g : DaemonGroup) :
    g.propose.1 = { g with proposed := g.proposed || g.mayPropose } := by
  unfold propose
  split
  · rename_i h
    rw [h, Bool.or_true]
  · rename_i h
    rw [Bool.eq_false_iff.2 h, Bool.or_false]

end DaemonGroup

end ClusterFence
