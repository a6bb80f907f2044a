import ClusterFence.Proofs.Negotiation.CleanMember

namespace ClusterFence

namespace DaemonGroupInput

/-- The node last went at `time`: it was listed before the membership change of that time and not
    after it, and no later change found it listed without keeping it. -/
def LeftAt (node : NodeId) (inputs : List DaemonGroupInput) (time : Seconds) : Prop :=
  ∃ before members joined since, inputs = before ++ .membership members joined time :: since ∧
    node ∈ lastMembers before ∧ node ∉ members ∧
    ∀ heard i rest, since = heard ++ i :: rest →
      node ∈ lastMembers (before ++ .membership members joined time :: heard) → i.Keeps node

end DaemonGroupInput

namespace DaemonGroup

open DaemonGroupInput

/-- What is known of a node; of one that was never listed, nothing. -/
def record (g : DaemonGroup) (node : NodeId) : DaemonNode := g.nodes[node]?.getD {}

/-- The input is an announcement of the node that is not refused, and its offer is held then. -/
def Accepts (node : NodeId) (g : DaemonGroup) (i : DaemonGroupInput) : Prop :=
  ∃ o quorate quorateTime g' verdict, i = .offer node o quorate quorateTime ∧
    g.receiveOffer node o quorate quorateTime = .ok (g', verdict) ∧ g'.offer? node = some o

/-- The input is an announcement that has the node evicted. -/
def Evicts (node : NodeId) (g : DaemonGroup) (i : DaemonGroupInput) : Prop :=
  ∃ sender o quorate quorateTime g', i = .offer sender o quorate quorateTime ∧
    g.receiveOffer sender o quorate quorateTime = .ok (g', .evict node)

/-- One of the inputs does what `P` says to the group that it comes to. -/
def Meets (g : DaemonGroup) (P : DaemonGroup → DaemonGroupInput → Prop)
    (inputs : List DaemonGroupInput) : Prop :=
  ∃ heard i rest, inputs = heard ++ i :: rest ∧ P (g.play heard) i

section

variable {g : DaemonGroup} {node sender : NodeId} {o : Offer} {quorate : Bool}
  {quorateTime : Seconds} {P : DaemonGroup → DaemonGroupInput → Prop}

theorem play_append (g : DaemonGroup) (inputs more : List DaemonGroupInput) :
    g.play (inputs ++ more) = (g.play inputs).play more := List.foldl_append

@[simp] theorem not_meets_nil : ¬ g.Meets P [] := by
  simp [Meets]

theorem meets_append_singleton {inputs : List DaemonGroupInput} {i : DaemonGroupInput} :
    g.Meets P (inputs ++ [i]) ↔ g.Meets P inputs ∨ P (g.play inputs) i := by
  constructor
  · rintro ⟨heard, j, rest, heq, hP⟩
    obtain rfl | ⟨rest, last, rfl⟩ := rest.eq_nil_or_concat
    · obtain ⟨rfl, rfl⟩ := List.append_singleton_inj.1 heq
      exact .inr hP
    · rw [List.concat_eq_append, ← List.cons_append, ← List.append_assoc] at heq
      exact .inl ⟨heard, j, rest, (List.append_singleton_inj.1 heq).1, hP⟩
  · rintro (⟨heard, j, rest, rfl, hP⟩ | hP)
    · exact ⟨heard, j, rest ++ [i], by simp, hP⟩
    · exact ⟨inputs, i, [], rfl, hP⟩

theorem lists_eq_record (g : DaemonGroup) (node : NodeId) :
    g.lists node = (g.record node).isMember := by
  unfold lists record
  cases g.nodes[node]? <;> rfl

theorem offer?_eq_record (g : DaemonGroup) (node : NodeId) :
    g.offer? node = (g.record node).offer := by
  unfold offer? record
  cases g.nodes[node]? <;> rfl

theorem record_changeMembers (g : DaemonGroup) (members : List NodeId) (now : Seconds)
    (node : NodeId) : (g.changeMembers members now).record node =
      (g.record node).listed (members.contains node) now := by
  unfold record
  rw [getElem?_changeMembers]
  by_cases hmember : node ∈ members
  · simp [hmember]
  · cases g.nodes[node]? <;> simp [hmember, DaemonNode.listed]

theorem record_insert (g : DaemonGroup) (sender : NodeId) (n : DaemonNode) (ours : Offer)
    (node : NodeId) : { g with nodes := g.nodes.insert sender n, ours }.record node =
      if sender = node then n else g.record node := by
  unfold record
  rw [Std.ExtTreeMap.getElem?_insert]
  simp only [Std.LawfulEqCmp.compare_eq_iff_eq]
  split <;> rfl

/-- An announcement that is malformed, or whose sender is not listed, is refused. -/
theorem receiveOffer_of_unfit (h : ¬ (o.WellFormed ∧ g.lists sender = true)) (quorate : Bool)
    (quorateTime : Seconds) : ∃ e, g.receiveOffer sender o quorate quorateTime = .error e := by
  have hears := g.hears_receiveOffer sender o quorate quorateTime
  generalize g.receiveOffer sender o quorate quorateTime = result at hears ⊢
  cases hears with
  | refused e _ => exact ⟨e, rfl⟩
  | merged _ _ _ hfit hlists _ _ => exact absurd ⟨hfit, hlists⟩ h
  | held _ hfit hlists _ _ => exact absurd ⟨hfit, hlists⟩ h

/-- Any other announcement is held, unless it tells of a partition. -/
theorem receiveOffer_of_apart (hfit : o.WellFormed) (hlists : g.lists sender = true)
    (hapart : g.isStatefulMerge sender (g.record sender) o = false) :
    g.receiveOffer sender o quorate quorateTime = .ok
      ({ g with
          nodes := g.nodes.insert sender { g.record sender with offer := some o }
          ours.run := g.adopt o.run }, .noted) := by
  unfold receiveOffer lists record at *
  cases hnode : g.nodes[sender]? with
  | none => simp [hnode] at hlists
  | some n =>
    rw [hnode, Option.any_some] at hlists
    rw [hnode, Option.getD_some] at hapart
    simp [Offer.fault?_eq_none_iff.2 hfit, hlists, hapart]
    rfl

/-- One that tells of a partition has its sender evicted, unless it was before or has the better
    claim. -/
theorem receiveOffer_of_merge (hfit : o.WellFormed) (hlists : g.lists sender = true)
    (hmerge : g.isStatefulMerge sender (g.record sender) o = true) :
    g.receiveOffer sender o quorate quorateTime = .ok
      (if outranks (g.record sender) quorate quorateTime then
        ({ g with nodes := g.nodes.insert sender { g.record sender with killed := true } },
          if (g.record sender).killed then .noted else .evict sender)
      else (g, .noted)) := by
  unfold receiveOffer lists record at *
  cases hnode : g.nodes[sender]? with
  | none => simp [hnode] at hlists
  | some n =>
    rw [hnode, Option.any_some] at hlists
    rw [hnode, Option.getD_some] at hmerge
    simp only [Offer.fault?_eq_none_iff.2 hfit, hlists, hmerge, Option.getD_some, Bool.not_true,
      Bool.false_eq_true, if_false, if_true]
    cases outranks n quorate quorateTime <;> rfl

/-- Whose announcement is held, read off what is known of the sender. -/
theorem accepts_offer_iff :
    Accepts node g (.offer sender o quorate quorateTime) ↔
      sender = node ∧ o.WellFormed ∧ g.lists node = true ∧
        g.isStatefulMerge node (g.record node) o = false := by
  constructor
  · rintro ⟨o, quorate, quorateTime, g', verdict, ⟨⟩, hreceived, hoffer⟩
    have hears := g.hears_receiveOffer node o quorate quorateTime
    rw [hreceived] at hears
    cases hears with
    | merged n killed _ hfit hlists hnode hmerge =>
      rw [offer?_insert_killed hnode killed g.ours, offer?, hnode, Option.bind_some] at hoffer
      simp [isStatefulMerge, hoffer] at hmerge
    | held n hfit hlists hnode hapart =>
      rw [record, hnode, Option.getD_some]
      exact ⟨rfl, hfit, hlists, hapart⟩
  · rintro ⟨rfl, hfit, hlists, hapart⟩
    refine ⟨o, quorate, quorateTime, _, _, rfl, receiveOffer_of_apart hfit hlists hapart, ?_⟩
    rw [offer?_insert, if_pos rfl]

theorem evicts_offer_iff_receiveOffer :
    Evicts node g (.offer sender o quorate quorateTime) ↔
      ∃ g', g.receiveOffer sender o quorate quorateTime = .ok (g', .evict node) := by
  constructor
  · rintro ⟨sender, o, quorate, quorateTime, g', ⟨⟩, hreceived⟩
    exact ⟨g', hreceived⟩
  · rintro ⟨g', hreceived⟩
    exact ⟨sender, o, quorate, quorateTime, g', rfl, hreceived⟩

/-- Who is evicted by an announcement, read off what is known of its sender. -/
theorem evicts_offer_iff :
    Evicts node g (.offer sender o quorate quorateTime) ↔
      sender = node ∧ o.WellFormed ∧ g.lists node = true ∧
        g.isStatefulMerge node (g.record node) o = true ∧
        outranks (g.record node) quorate quorateTime = true ∧ (g.record node).killed = false := by
  rw [evicts_offer_iff_receiveOffer]
  constructor
  · rintro ⟨g', hreceived⟩
    by_cases hspeaks : o.WellFormed ∧ g.lists sender = true
    · cases hmerge : g.isStatefulMerge sender (g.record sender) o with
      | false =>
        rw [receiveOffer_of_apart hspeaks.1 hspeaks.2 hmerge] at hreceived
        cases hreceived
      | true =>
        rw [receiveOffer_of_merge hspeaks.1 hspeaks.2 hmerge] at hreceived
        cases houtranks : outranks (g.record sender) quorate quorateTime <;>
          cases hkilled : (g.record sender).killed <;>
          simp [houtranks, hkilled] at hreceived
        obtain ⟨-, rfl⟩ := hreceived
        exact ⟨rfl, hspeaks.1, hspeaks.2, hmerge, houtranks, hkilled⟩
    · obtain ⟨e, hrefused⟩ := receiveOffer_of_unfit hspeaks quorate quorateTime
      rw [hrefused] at hreceived
      cases hreceived
  · rintro ⟨rfl, hfit, hlists, hmerge, houtranks, hkilled⟩
    rw [receiveOffer_of_merge hfit hlists hmerge, if_pos houtranks, hkilled]
    exact ⟨_, rfl⟩

/-- What is known of a node after an announcement. -/
theorem record_step_offer (g : DaemonGroup) (sender : NodeId) (o : Offer) (quorate : Bool)
    (quorateTime : Seconds) (node : NodeId) :
    (g.step (.offer sender o quorate quorateTime)).record node =
      let n := g.record node
      if sender = node ∧ o.WellFormed ∧ g.lists node = true then
        if g.isStatefulMerge node n o then
          if outranks n quorate quorateTime then { n with killed := true } else n
        else { n with offer := some o }
      else n := by
  simp only [step]
  by_cases hspeaks : o.WellFormed ∧ g.lists sender = true
  · cases hmerge : g.isStatefulMerge sender (g.record sender) o with
    | false =>
      rw [receiveOffer_of_apart hspeaks.1 hspeaks.2 hmerge]
      dsimp only
      rw [record_insert]
      by_cases hsender : sender = node
      · subst hsender
        simp [hspeaks, hmerge]
      · simp [hsender]
    | true =>
      rw [receiveOffer_of_merge hspeaks.1 hspeaks.2 hmerge]
      by_cases hsender : sender = node
      · subst hsender
        cases houtranks : outranks (g.record sender) quorate quorateTime <;>
          simp [hspeaks, hmerge, record_insert]
      · cases houtranks : outranks (g.record sender) quorate quorateTime <;>
          simp [hsender, record_insert]
  · obtain ⟨e, hrefused⟩ := receiveOffer_of_unfit hspeaks quorate quorateTime
    rw [hrefused, if_neg]
    rintro ⟨rfl, hfit⟩
    exact hspeaks hfit

theorem record_step_proposes (g : DaemonGroup) (node : NodeId) :
    (g.step .proposes).record node = g.record node := by
  rw [step, propose_fst]
  rfl

theorem record_step_stateful (g : DaemonGroup) (node : NodeId) :
    (g.step .stateful).record node = g.record node := rfl

/-- While a node stays listed, an input marks it as evicted only by having it evicted, and has an
    offer held only by bringing one that counts. -/
theorem record_step_of_keeps {i : DaemonGroupInput} (hlists : g.lists node = true)
    (hkeeps : i.Keeps node) :
    (((g.step i).record node).killed = true ↔
        (g.record node).killed = true ∨ Evicts node g i) ∧
      (((g.step i).record node).offer.isSome = true ↔
        (g.record node).offer.isSome = true ∨ Accepts node g i) := by
  cases i with
  | membership members joined now =>
    have hmember : (g.record node).isMember = true := by rwa [← lists_eq_record]
    have hstays : node ∈ members := hkeeps
    rw [step, record_changeMembers]
    simp [DaemonNode.listed, hstays, hmember, Evicts, Accepts]
  | offer sender o quorate quorateTime =>
    rw [record_step_offer, evicts_offer_iff, accepts_offer_iff]
    dsimp only
    split
    · rename_i hspeaks
      cases hmerge : g.isStatefulMerge node (g.record node) o <;>
        cases houtranks : outranks (g.record node) quorate quorateTime <;>
        simp [hspeaks]
    · rename_i hspeaks
      grind
  | proposes =>
    rw [record_step_proposes]
    simp [Evicts, Accepts]
  | stateful =>
    rw [record_step_stateful]
    simp [Evicts, Accepts]

/-- Neither an eviction nor an offer is kept of a node that is not listed. -/
def Forgets (g : DaemonGroup) : Prop :=
  ∀ node, (g.record node).isMember = false →
    (g.record node).killed = false ∧ (g.record node).offer = none

theorem Forgets.step (h : g.Forgets) (i : DaemonGroupInput) : (g.step i).Forgets := by
  intro node
  cases i with
  | membership members joined now =>
    rw [DaemonGroup.step, record_changeMembers]
    have hnode := h node
    unfold DaemonNode.listed
    grind
  | offer sender o quorate quorateTime =>
    rw [record_step_offer, lists_eq_record]
    have hnode := h node
    grind
  | proposes =>
    rw [record_step_proposes]
    exact h node
  | stateful => exact h node

end

section

variable (us : NodeId) (max : Version)

theorem forgets_play (inputs : List DaemonGroupInput) : ((new us max).play inputs).Forgets := by
  induction inputs using List.reverseRecOn with
  | nil => exact fun node _ => ⟨rfl, rfl⟩
  | append_singleton inputs i ih =>
    rw [play_append_singleton]
    exact ih.step i

/-- The mark of an eviction and the offer of a node speak of its present stay. -/
theorem record_of_addedAfter {node : NodeId} {inputs before since : List DaemonGroupInput}
    {added : DaemonGroupInput} (h : AddedAfter node inputs before added since) :
    let g := (new us max).play (before ++ [added])
    let n := ((new us max).play inputs).record node
    (n.killed = true ↔ g.Meets (Evicts node) since) ∧
      (n.offer.isSome = true ↔ g.Meets (Accepts node) since) := by
  obtain ⟨rfl, hnot, hadded, hsince⟩ := h
  induction since using List.reverseRecOn with
  | nil =>
    obtain ⟨members, hmembers, hmember⟩ := hadded
    have hunlisted : (((new us max).play before).record node).isMember = false := by
      rwa [← lists_eq_record, Bool.eq_false_iff, ne_eq, lists_play_iff]
    obtain ⟨hkilled, hoffer⟩ := forgets_play us max before node hunlisted
    cases added with
    | membership _ joined now =>
      cases hmembers
      rw [play_append_singleton, step, record_changeMembers]
      simp [DaemonNode.listed, hmember, hunlisted, hkilled, hoffer]
    | offer _ _ _ _ | proposes | stateful => cases hmembers
  | append_singleton since i ih =>
    simp only [List.mem_append, List.mem_singleton, or_imp, forall_and, forall_eq] at hsince
    obtain ⟨hkilled, hoffer⟩ := ih hsince.1
    have hstay : AddedAfter node (before ++ added :: since) before added since :=
      ⟨rfl, hnot, hadded, hsince.1⟩
    have hlists := (lists_play_iff us max _ node).2 hstay.mem_lastMembers
    obtain ⟨hmarks, hholds⟩ := record_step_of_keeps hlists hsince.2
    have hplay : ((new us max).play (before ++ [added])).play since =
        (new us max).play (before ++ added :: since) := by
      rw [← play_append, List.append_assoc, List.singleton_append]
    have hsnoc : before ++ added :: (since ++ [i]) = before ++ added :: since ++ [i] := by simp
    rw [hsnoc, play_append_singleton _ (before ++ added :: since)]
    simp only [meets_append_singleton, hplay, hmarks, hholds, hkilled, hoffer, and_self]

end

end DaemonGroup

namespace DaemonGroupInput

variable {node : NodeId} {inputs : List DaemonGroupInput} {i : DaemonGroupInput} {time : Seconds}

/-- Of one more input: the node goes with it, or it went before and has not gone again. -/
theorem leftAt_append_singleton :
    LeftAt node (inputs ++ [i]) time ↔
      (∃ members joined, i = .membership members joined time ∧ node ∈ lastMembers inputs ∧
        node ∉ members) ∨
      LeftAt node inputs time ∧ (node ∈ lastMembers inputs → i.Keeps node) := by
  constructor
  · rintro ⟨before, members, joined, since, heq, hlisted, hgone, hsince⟩
    obtain rfl | ⟨since, last, rfl⟩ := since.eq_nil_or_concat
    · obtain ⟨rfl, rfl⟩ := List.append_singleton_inj.1 heq
      exact .inl ⟨members, joined, rfl, hlisted, hgone⟩
    · rw [List.concat_eq_append] at heq hsince
      rw [← List.cons_append, ← List.append_assoc] at heq
      obtain ⟨rfl, rfl⟩ := List.append_singleton_inj.1 heq
      refine .inr ⟨⟨before, members, joined, since, rfl, hlisted, hgone, ?_⟩,
        hsince since i [] rfl⟩
      rintro heard j rest rfl
      exact hsince heard j (rest ++ [i]) (by simp)
  · rintro (⟨members, joined, rfl, hlisted, hgone⟩ |
      ⟨⟨before, members, joined, since, rfl, hlisted, hgone, hsince⟩, hkeeps⟩)
    · exact ⟨inputs, members, joined, [], rfl, hlisted, hgone, by simp⟩
    · refine ⟨before, members, joined, since ++ [i], by simp, hlisted, hgone, ?_⟩
      intro heard j rest heq
      obtain rfl | ⟨rest, last, rfl⟩ := rest.eq_nil_or_concat
      · obtain ⟨rfl, rfl⟩ := List.append_singleton_inj.1 heq
        exact hkeeps
      · rw [List.concat_eq_append, ← List.cons_append, ← List.append_assoc] at heq
        exact hsince heard j rest (List.append_singleton_inj.1 heq).1

end DaemonGroupInput

namespace DaemonGroup

open DaemonGroupInput

/-- The time at which a node last went is known, and only that. -/
theorem leftAt_iff_record (us : NodeId) (max : Version) (inputs : List DaemonGroupInput)
    (node : NodeId) {time : Seconds} (htime : time ≠ 0) :
    LeftAt node inputs time ↔ (((new us max).play inputs).record node).leftTime = time := by
  induction inputs using List.reverseRecOn with
  | nil =>
    have hnone : ((new us max).play []).record node = {} := rfl
    simp [hnone, LeftAt, htime.symm]
  | append_singleton inputs i ih =>
    have hmember := lists_play_iff us max inputs node
    rw [leftAt_append_singleton, play_append_singleton, ih, ← hmember]
    rw [lists_eq_record]
    cases i with
    | membership members joined now =>
      rw [step, record_changeMembers]
      by_cases hstays : node ∈ members <;>
        cases hlisted : (((new us max).play inputs).record node).isMember <;>
        simp [DaemonNode.listed, Keeps, hstays, hlisted]
    | offer sender o quorate quorateTime =>
      rw [record_step_offer]
      simp only [Keeps]
      grind
    | proposes => simp [record_step_proposes, Keeps]
    | stateful => simp [record_step_stateful, Keeps]

/-- Whose quorum is the better claim, in terms of when the node last went. -/
theorem outranks_record_iff (us : NodeId) (max : Version) (inputs : List DaemonGroupInput)
    (node : NodeId) (quorate : Bool) (quorateTime : Seconds) :
    outranks (((new us max).play inputs).record node) quorate quorateTime = true ↔
      quorate = true ∧ ∃ time, LeftAt node inputs time ∧ time ≠ 0 ∧ quorateTime < time := by
  unfold outranks
  simp only [Bool.and_eq_true, bne_iff_ne, decide_eq_true_eq, and_assoc, and_congr_right_iff]
  intro _
  constructor
  · rintro ⟨htime, hlate⟩
    exact ⟨_, (leftAt_iff_record us max inputs node htime).2 rfl, htime, hlate⟩
  · rintro ⟨time, hleft, htime, hlate⟩
    rw [(leftAt_iff_record us max inputs node htime).1 hleft]
    exact ⟨htime, hlate⟩

/-- Who is evicted by an announcement after a run, read off what is known of the node. -/
theorem evicts_play_iff_record (us : NodeId) (max : Version) (inputs : List DaemonGroupInput)
    (node sender : NodeId) (o : Offer) (quorate : Bool) (quorateTime : Seconds) :
    Evicts node ((new us max).play inputs) (.offer sender o quorate quorateTime) ↔
      sender = node ∧ o.WellFormed ∧ node ∈ lastMembers inputs ∧ node ≠ us ∧
        o.run.isStateful = true ∧ ((new us max).play inputs).ours.run.isStateful = true ∧
        quorate = true ∧ (∃ time, LeftAt node inputs time ∧ time ≠ 0 ∧ quorateTime < time) ∧
        (((new us max).play inputs).record node).offer = none ∧
        (((new us max).play inputs).record node).killed = false := by
  have hus : ((new us max).play inputs).us = us := (us_members_play us max inputs).1
  rw [evicts_offer_iff, lists_play_iff, outranks_record_iff]
  simp only [isStatefulMerge, hus, Bool.and_eq_true, bne_iff_ne, Option.isNone_iff_eq_none]
  tauto

end DaemonGroup

namespace DaemonGroupInput

variable {node : NodeId} {inputs before since : List DaemonGroupInput}
  {added : DaemonGroupInput}

/-- A stay goes on as long as its node is kept. -/
theorem AddedAfter.upTo {heard rest : List DaemonGroupInput}
    (h : AddedAfter node inputs before added (heard ++ rest)) :
    AddedAfter node (before ++ added :: heard) before added heard :=
  ⟨rfl, h.2.1, h.2.2.1, fun i hi => h.2.2.2 i (List.mem_append_left rest hi)⟩

/-- A node that was not listed before its present stay has not gone yet. -/
theorem AddedAfter.not_leftAt (h : AddedAfter node inputs before added since)
    (hfirst : ∀ earlier later, before = earlier ++ later → node ∉ lastMembers earlier)
    (time : Seconds) : ¬ LeftAt node inputs time := by
  obtain ⟨rfl, hnot, -, hsince⟩ := h
  rintro ⟨earlier, members, joined, later, heq, hlisted, hgone, -⟩
  obtain ⟨stay, rfl, hstay⟩ | ⟨stay, rfl, -⟩ := List.append_eq_append_iff.1 heq
  · cases stay with
    | nil =>
      rw [List.append_nil] at hlisted
      exact hnot hlisted
    | cons first stay =>
      rw [List.cons_append, List.cons.injEq] at hstay
      exact hgone (hsince (.membership members joined time) (by simp [hstay.2]))
  · exact hfirst earlier stay rfl hlisted

end DaemonGroupInput

namespace DaemonGroup

open DaemonGroupInput

/-- After every run an announcement has its sender evicted exactly when it is well-formed, its
    sender is another node that is listed, both tell of state, we have stood in quorum since before
    the node last went, and since it was last added neither an announcement of it was held nor was
    it evicted. So in one stay a node is evicted once at most, and neither are we ever nor is a node
    in its first stay. -/
theorem evicts_play_iff (us : NodeId) (max : Version) :
    (∀ inputs node sender o quorate quorateTime,
      (∃ g', ((new us max).play inputs).receiveOffer sender o quorate quorateTime =
          .ok (g', .evict node)) ↔
        sender = node ∧ o.WellFormed ∧ node ∈ lastMembers inputs ∧ node ≠ us ∧
          o.run.isStateful = true ∧
          ((new us max).play inputs).ours.run.isStateful = true ∧ quorate = true ∧
          (∃ time, LeftAt node inputs time ∧ time ≠ 0 ∧ quorateTime < time) ∧
          ∃ before added since, AddedAfter node inputs before added since ∧
            ¬ ((new us max).play (before ++ [added])).Meets (Accepts node) since ∧
            ¬ ((new us max).play (before ++ [added])).Meets (Evicts node) since) ∧
    ∀ inputs node before added since, AddedAfter node inputs before added since →
      (∀ heard i rest, since = heard ++ i :: rest →
        Evicts node ((new us max).play (before ++ added :: heard)) i →
        ¬ ((new us max).play (before ++ added :: heard ++ [i])).Meets (Evicts node) rest) ∧
      (node = us ∨ (∀ earlier later, before = earlier ++ later → node ∉ lastMembers earlier) →
        ¬ ((new us max).play (before ++ [added])).Meets (Evicts node) since) := by
  refine ⟨fun inputs node sender o quorate quorateTime => ?_,
    fun inputs node before added since hadded => ⟨?_, ?_⟩⟩
  · rw [← evicts_offer_iff_receiveOffer, evicts_play_iff_record]
    constructor
    · rintro ⟨rfl, hfit, hmember, hother, hstate, hours, hquorate, hleft, hoffer, hkilled⟩
      obtain ⟨before, added, since, hadded⟩ := exists_addedAfter hmember
      obtain ⟨hmarks, hholds⟩ := record_of_addedAfter us max hadded
      refine ⟨rfl, hfit, hmember, hother, hstate, hours, hquorate, hleft, before, added, since,
        hadded, ?_, ?_⟩
      · rw [← hholds, hoffer]
        exact Bool.false_ne_true
      · rw [← hmarks, hkilled]
        exact Bool.false_ne_true
    · rintro ⟨rfl, hfit, hmember, hother, hstate, hours, hquorate, hleft, before, added, since,
        hadded, hheard, hspared⟩
      obtain ⟨hmarks, hholds⟩ := record_of_addedAfter us max hadded
      rw [← hholds, Option.not_isSome_iff_eq_none] at hheard
      rw [← hmarks, Bool.not_eq_true] at hspared
      exact ⟨rfl, hfit, hmember, hother, hstate, hours, hquorate, hleft, hheard, hspared⟩
  · rintro heard i rest rfl hfirst ⟨more, j, last, rfl, hsecond⟩
    have hupTo : AddedAfter node (before ++ added :: (heard ++ i :: more)) before added
        (heard ++ i :: more) := by
      have hagain : AddedAfter node inputs before added ((heard ++ i :: more) ++ j :: last) := by
        simpa using hadded
      exact hagain.upTo
    have hplay : ((new us max).play (before ++ added :: heard ++ [i])).play more =
        (new us max).play (before ++ added :: (heard ++ i :: more)) := by
      rw [← play_append]
      simp
    have hmarked : ((new us max).play (before ++ [added])).Meets (Evicts node)
        (heard ++ i :: more) := by
      refine ⟨heard, i, more, rfl, ?_⟩
      rwa [← play_append, List.append_assoc, List.singleton_append]
    rw [← (record_of_addedAfter us max hupTo).1] at hmarked
    rw [hplay] at hsecond
    obtain ⟨_, _, _, _, _, rfl, -⟩ := id hsecond
    obtain ⟨-, -, -, -, -, -, -, -, -, hkilled⟩ := (evicts_play_iff_record ..).1 hsecond
    rw [hkilled] at hmarked
    cases hmarked
  · rintro hspared ⟨heard, i, rest, rfl, hevicts⟩
    rw [← play_append, List.append_assoc, List.singleton_append] at hevicts
    obtain ⟨_, _, _, _, _, rfl, -⟩ := id hevicts
    obtain ⟨-, -, -, hother, -, -, -, ⟨time, hleft, -⟩, -⟩ :=
      (evicts_play_iff_record ..).1 hevicts
    obtain rfl | hnever := hspared
    · exact hother rfl
    · exact hadded.upTo.not_leftAt hnever time hleft

/-- Node 2 comes back with its state and says so twice. It went at 20, after we had gained quorum at
    5, and the first time it is evicted. We are not, though we tell of our state as well. -/
theorem evicts_play_iff_mergesBack :
    let before := mergesBack.take 7
    let back : DaemonGroupInput := .membership [1, 2] [2] 30
    let o : Offer :=
      { max := .highest, run := { Version.highest with flags := Version.statefulFlag } }
    let again : DaemonGroupInput := .offer 2 o true 5
    (∃ time, LeftAt 2 (before ++ [back]) time ∧ time ≠ 0 ∧ 5 < time) ∧
      AddedAfter 2 (before ++ back :: [again, again]) before back [again, again] ∧
      Evicts 2 ((new 1 .highest).play (before ++ [back])) again ∧
      ¬ ((new 1 .highest).play (before ++ [back, again])).Meets (Evicts 2) [again] ∧
      AddedAfter 1 mergesBack [] (.membership [1, 2] [1, 2] 10) (mergesBack.drop 1) ∧
      ¬ ((new 1 .highest).play (mergesBack.take 1)).Meets (Evicts 1) (mergesBack.drop 1) := by
  intro before back o again
  obtain ⟨hcall, hstay⟩ := evicts_play_iff 1 .highest
  have hsecond : AddedAfter 2 (before ++ back :: [again, again]) before back [again, again] := by
    refine ⟨rfl, by decide, ⟨[1, 2], rfl, by decide⟩, ?_⟩
    simp [again, Keeps]
  have hours : AddedAfter 1 mergesBack [] (.membership [1, 2] [1, 2] 10) (mergesBack.drop 1) := by
    refine ⟨rfl, by decide, ⟨[1, 2], rfl, by decide⟩, ?_⟩
    simp [mergesBack, Keeps]
  have hevicts : Evicts 2 ((new 1 .highest).play (before ++ [back])) again :=
    evicts_offer_iff.2 (by decide +kernel)
  have hleft := ((hcall _ 2 2 o true 5).1 (evicts_offer_iff_receiveOffer.1 hevicts))
  exact ⟨hleft.2.2.2.2.2.2.2.1, hsecond, hevicts,
    (hstay _ 2 before back _ hsecond).1 [] again [again] rfl hevicts, hours,
    (hstay mergesBack 1 [] _ _ hours).2 (.inl rfl)⟩

end DaemonGroup

end ClusterFence
