import ClusterFence.Proofs.Negotiation.Group
import Mathlib.Data.List.Induction

namespace ClusterFence

/-- Something that happens to a daemon group. -/
inductive DaemonGroupInput where
  | membership (members joined : List NodeId) (now : Seconds)
  | offer (sender : NodeId) (o : Offer) (quorate : Bool) (quorateTime : Seconds)
  | proposes
  | stateful

namespace DaemonGroupInput

/-- The members after a membership change. -/
def members? : DaemonGroupInput → Option (List NodeId)
  | .membership members _ _ => some members
  | _ => none

/-- The node stays a member. -/
def Keeps (node : NodeId) : DaemonGroupInput → Prop
  | .membership members _ _ => node ∈ members
  | _ => True

/-- The members after inputs. Nobody is listed before the first membership change. -/
def lastMembers (inputs : List DaemonGroupInput) : List NodeId :=
  (inputs.reverse.findSome? members?).getD []

@[simp] theorem lastMembers_append_singleton (inputs : List DaemonGroupInput)
    (i : DaemonGroupInput) :
    lastMembers (inputs ++ [i]) = i.members?.getD (lastMembers inputs) := by
  unfold lastMembers
  rw [List.reverse_append, List.reverse_singleton, List.singleton_append, List.findSome?_cons]
  cases i.members? <;> rfl

/-- The inputs after `before` are those since the node was last added: it was not listed, then it
    was, and it has been so ever since. -/
def AddedAfter (node : NodeId) (inputs before : List DaemonGroupInput) (added : DaemonGroupInput)
    (since : List DaemonGroupInput) : Prop :=
  inputs = before ++ added :: since ∧ node ∉ lastMembers before ∧
    (∃ members, added.members? = some members ∧ node ∈ members) ∧ ∀ i ∈ since, i.Keeps node

end DaemonGroupInput

namespace DaemonGroup

open DaemonGroupInput

/-- The group after an input. An announcement that is refused is as good as none. -/
def step (g : DaemonGroup) : DaemonGroupInput → DaemonGroup
  | .membership members _ now => g.changeMembers members now
  | .offer sender o quorate quorateTime =>
    match g.receiveOffer sender o quorate quorateTime with
    | .ok (g, _) => g
    | .error _ => g
  | .proposes => g.propose.1
  | .stateful => g.setStateful

/-- The group after inputs. -/
def play (g : DaemonGroup) (inputs : List DaemonGroupInput) : DaemonGroup := inputs.foldl step g

@[simp] theorem play_append_singleton (g : DaemonGroup) (inputs : List DaemonGroupInput)
    (i : DaemonGroupInput) : g.play (inputs ++ [i]) = (g.play inputs).step i := by
  rw [play, List.foldl_append]
  rfl

/-- An announcement as it works on a group in place: every change is made where it stands, and what
    was changed before a refusal would stay changed. -/
def hear (sender : NodeId) (o : Offer) (quorate : Bool) (quorateTime : Seconds) :
    StateM DaemonGroup (Except Error OfferVerdict) := do
  if let some fault := o.fault? then return .error (.invalidVersion sender fault)
  let some n := (← get).nodes[sender]? | return .error (.negotiation (.unknownSender sender))
  if !n.isMember then return .error (.negotiation (.senderNotMember sender))
  if (← get).isStatefulMerge sender n o then
    if !outranks n quorate quorateTime then return .ok .noted
    modify fun g => { g with nodes := g.nodes.insert sender { n with killed := true } }
    return .ok (if n.killed then .noted else .evict sender)
  modify fun g => { g with nodes := g.nodes.insert sender { n with offer := some o } }
  if (← get).ours.run.isSet then return .ok .noted
  if o.run.isSet then
    modify fun g => { g with ours.run := { o.run with flags := g.ours.run.flags } }
  return .ok .noted

/-- In place comes to the same, and a refusal leaves the group as it was. -/
theorem hear_run (g : DaemonGroup) (sender : NodeId) (o : Offer) (quorate : Bool)
    (quorateTime : Seconds) :
    (hear sender o quorate quorateTime).run g =
      match g.receiveOffer sender o quorate quorateTime with
      | .ok (g', verdict) => (.ok verdict, g')
      | .error e => (.error e, g) := by
  unfold hear receiveOffer
  cases hfault : o.fault? with
  | some fault => rfl
  | none =>
    simp only [pure_bind, bind_pure_comp, StateT.run_bind, StateT.run_get]
    cases hnode : g.nodes[sender]? with
    | none => rfl
    | some n =>
      obtain ⟨_ | _, killed, joinTime, leftTime, offer⟩ := n
      · rfl
      simp only [Bool.not_true, Bool.false_eq_true, if_false, pure_bind, StateT.run_bind,
        StateT.run_get]
      cases g.isStatefulMerge sender _ o with
      | true => cases outranks _ quorate quorateTime <;> rfl
      | false =>
        unfold adopt
        cases hrun : g.ours.run.isSet <;> cases hset : o.run.isSet <;> simp [hrun] <;> rfl

/-- The announcement speaks for its sender: it is well-formed and the sender is listed, and it does
    not tell of a partition that both sides came out of with their state. -/
def Counts (g : DaemonGroup) (sender : NodeId) (o : Offer) : Prop :=
  g.lists sender = true ∧ o.WellFormed ∧
    (sender = g.us ∨ o.run.isStateful = false ∨ g.ours.run.isStateful = false)

/-- An announcement is refused, and the group stays as it was, or it is heard. -/
theorem hears_step (g : DaemonGroup) (sender : NodeId) (o : Offer) (quorate : Bool)
    (quorateTime : Seconds) :
    (¬ o.WellFormed ∨ g.lists sender = false) ∧
        g.step (.offer sender o quorate quorateTime) = g ∨
      ∃ verdict,
        g.Hears sender o (.ok (g.step (.offer sender o quorate quorateTime), verdict)) := by
  have hears := g.hears_receiveOffer sender o quorate quorateTime
  simp only [step]
  cases hreceived : g.receiveOffer sender o quorate quorateTime with
  | error e =>
    rw [hreceived] at hears
    obtain ⟨-, unfit⟩ := hears
    exact .inl ⟨unfit, rfl⟩
  | ok received =>
    rw [hreceived] at hears
    exact .inr ⟨received.2, hears⟩

/-- A node is clean after an announcement if it was before, or if the announcement is its own and
    counts. -/
theorem isCleanMember_offer_iff (g : DaemonGroup) (sender : NodeId) (o : Offer) (quorate : Bool)
    (quorateTime : Seconds) (node : NodeId) :
    (g.step (.offer sender o quorate quorateTime)).isCleanMember node = true ↔
      g.isCleanMember node = true ∨ sender = node ∧ g.Counts node o := by
  unfold Counts
  simp only [isCleanMember_eq]
  obtain ⟨unfit, hstep⟩ | ⟨verdict, hears⟩ := g.hears_step sender o quorate quorateTime
  · rw [hstep]
    refine ⟨.inl, fun h => h.resolve_right ?_⟩
    rintro ⟨rfl, hlists, hfit, -⟩
    simp [hlists, hfit] at unfit
  · rw [hears.kept.2.2.2.2]
    generalize g.step (.offer sender o quorate quorateTime) = g' at hears ⊢
    cases hears with
    | merged n killed _ hfit hlists hnode hmerge =>
      rw [offer?_insert_killed hnode killed g.ours]
      refine ⟨.inl, fun h => h.resolve_right ?_⟩
      rintro ⟨rfl, -, -, hapart⟩
      simp only [isStatefulMerge, Bool.and_eq_true, bne_iff_ne] at hmerge
      grind
    | held n hfit hlists hnode hapart =>
      rw [offer?_insert]
      by_cases hsender : sender = node
      · subst hsender
        simp only [isStatefulMerge] at hapart
        simp only [hlists, hfit, offer?, hnode]
        grind
      · simp [hsender]

theorem coherent_step {g : DaemonGroup} (h : g.Coherent) (i : DaemonGroupInput) :
    (g.step i).Coherent := by
  cases i with
  | membership members joined now => exact h.changeMembers members now
  | offer sender o quorate quorateTime =>
    obtain ⟨-, hstep⟩ | ⟨verdict, hears⟩ := g.hears_step sender o quorate quorateTime
    · rw [hstep]
      exact h
    · exact h.hears hears
  | proposes =>
    rw [step, propose_fst]
    exact ⟨h.lists_iff, h.lists_of_offer⟩
  | stateful => exact ⟨h.lists_iff, h.lists_of_offer⟩

/-- No input changes which node the group is seen from, and only a membership change its members. -/
theorem us_members_step (g : DaemonGroup) (i : DaemonGroupInput) :
    (g.step i).us = g.us ∧ (g.step i).members = i.members?.getD g.members := by
  cases i with
  | membership members joined now => exact ⟨rfl, rfl⟩
  | offer sender o quorate quorateTime =>
    obtain ⟨-, hstep⟩ | ⟨verdict, hears⟩ := g.hears_step sender o quorate quorateTime
    · rw [hstep]
      exact ⟨rfl, rfl⟩
    · exact ⟨hears.kept.1, hears.kept.2.1⟩
  | proposes =>
    rw [step, propose_fst]
    exact ⟨rfl, rfl⟩
  | stateful => exact ⟨rfl, rfl⟩

/-- Who is a clean member after an input. -/
theorem isCleanMember_step_iff {g : DaemonGroup} (h : g.Coherent) (i : DaemonGroupInput)
    (node : NodeId) :
    (g.step i).isCleanMember node = true ↔
      g.isCleanMember node = true ∧ i.Keeps node ∨
        ∃ o quorate quorateTime, i = .offer node o quorate quorateTime ∧ g.Counts node o := by
  cases i with
  | membership members joined now =>
    rw [isCleanMember_eq, isCleanMember_eq, step, lists_changeMembers, offer?_changeMembers h]
    have hlists := h.lists_of_offer node
    simp only [Keeps]
    by_cases hmember : node ∈ members <;> simp [hmember]
    exact hlists
  | offer sender o quorate quorateTime =>
    rw [isCleanMember_offer_iff]
    simp only [Keeps, and_true, DaemonGroupInput.offer.injEq]
    grind
  | proposes =>
    rw [step, propose_fst]
    simp [isCleanMember, Keeps]
  | stateful => simp [step, setStateful, isCleanMember, Keeps]

section

variable (us : NodeId) (max : Version) (inputs : List DaemonGroupInput)

theorem coherent_play : ((new us max).play inputs).Coherent := by
  induction inputs using List.reverseRecOn with
  | nil => exact coherent_new us max
  | append_singleton inputs i ih =>
    rw [play_append_singleton]
    exact coherent_step ih i

theorem us_members_play :
    ((new us max).play inputs).us = us ∧
      ((new us max).play inputs).members = lastMembers inputs := by
  induction inputs using List.reverseRecOn with
  | nil => exact ⟨rfl, rfl⟩
  | append_singleton inputs i ih =>
    obtain ⟨hus, hmembers⟩ := us_members_step ((new us max).play inputs) i
    rw [play_append_singleton, lastMembers_append_singleton, hus, hmembers, ih.1, ih.2]
    exact ⟨rfl, rfl⟩

theorem lists_play_iff (node : NodeId) :
    ((new us max).play inputs).lists node = true ↔ node ∈ lastMembers inputs := by
  rw [(coherent_play us max inputs).lists_iff, (us_members_play us max inputs).2]

/-- After a run a node is a clean member when one of its announcements counted, and it has stayed a
    member since. -/
theorem isCleanMember_play_iff_counted (node : NodeId) :
    ((new us max).play inputs).isCleanMember node = true ↔
      ∃ heard o quorate quorateTime rest,
        inputs = heard ++ .offer node o quorate quorateTime :: rest ∧
          ((new us max).play heard).Counts node o ∧ ∀ i ∈ rest, i.Keeps node := by
  induction inputs using List.reverseRecOn with
  | nil => simp [play, new, isCleanMember]
  | append_singleton inputs i ih =>
    rw [play_append_singleton, isCleanMember_step_iff (coherent_play us max inputs), ih]
    constructor
    · rintro (⟨⟨heard, o, quorate, quorateTime, rest, rfl, hcounts, hrest⟩, hkeeps⟩ |
        ⟨o, quorate, quorateTime, rfl, hcounts⟩)
      · refine ⟨heard, o, quorate, quorateTime, rest ++ [i], by simp, hcounts, ?_⟩
        simpa [or_imp, forall_and] using ⟨hrest, hkeeps⟩
      · exact ⟨inputs, o, quorate, quorateTime, [], rfl, hcounts, by simp⟩
    · rintro ⟨heard, o, quorate, quorateTime, rest, heq, hcounts, hrest⟩
      obtain rfl | ⟨rest, last, rfl⟩ := rest.eq_nil_or_concat
      · obtain ⟨rfl, rfl⟩ := List.append_singleton_inj.1 heq
        exact .inr ⟨o, quorate, quorateTime, rfl, hcounts⟩
      · rw [List.concat_eq_append, ← List.cons_append, ← List.append_assoc] at heq
        obtain ⟨rfl, rfl⟩ := List.append_singleton_inj.1 heq
        simp only [List.concat_eq_append, List.mem_append, List.mem_singleton, or_imp, forall_and,
          forall_eq] at hrest
        exact .inl ⟨⟨heard, o, quorate, quorateTime, rest, rfl, hcounts, hrest.1⟩, hrest.2⟩

end

end DaemonGroup

namespace DaemonGroupInput

variable {node : NodeId} {inputs before since : List DaemonGroupInput}
  {added : DaemonGroupInput}

/-- A node that was added and has stayed since is a member. -/
theorem AddedAfter.mem_lastMembers (h : AddedAfter node inputs before added since) :
    node ∈ lastMembers inputs := by
  obtain ⟨rfl, -, ⟨members, hmembers, hmember⟩, hsince⟩ := h
  induction since using List.reverseRecOn with
  | nil => rwa [lastMembers_append_singleton, hmembers, Option.getD_some]
  | append_singleton since i ih =>
    simp only [List.mem_append, List.mem_singleton, or_imp, forall_and, forall_eq] at hsince
    rw [← List.cons_append, ← List.append_assoc, lastMembers_append_singleton]
    cases i with
    | membership members joined now => exact hsince.2
    | offer _ _ _ _ | proposes | stateful => exact ih hsince.1

/-- Every member was added at some time and has stayed since. -/
theorem exists_addedAfter (h : node ∈ lastMembers inputs) :
    ∃ before added since, AddedAfter node inputs before added since := by
  induction inputs using List.reverseRecOn with
  | nil => simp [lastMembers] at h
  | append_singleton inputs i ih =>
    by_cases hbefore : node ∈ lastMembers inputs
    · obtain ⟨before, added, since, rfl, hnot, hadded, hsince⟩ := ih hbefore
      refine ⟨before, added, since ++ [i], by simp, hnot, hadded, ?_⟩
      have hkeeps : i.Keeps node := by
        rw [lastMembers_append_singleton] at h
        cases i with
        | membership members joined now => exact h
        | offer _ _ _ _ | proposes | stateful => trivial
      simpa [or_imp, forall_and] using ⟨hsince, hkeeps⟩
    · rw [lastMembers_append_singleton] at h
      cases hmembers : i.members? with
      | none => exact absurd (by simpa [hmembers] using h) hbefore
      | some members =>
        rw [hmembers, Option.getD_some] at h
        exact ⟨inputs, i, [], rfl, hbefore, ⟨members, hmembers, h⟩, by simp⟩

end DaemonGroupInput

namespace DaemonGroup

open DaemonGroupInput

/-- After every run a node is a clean member exactly when it is listed and, since it was last added,
    a well-formed announcement of it came that was our own, or told of no state, or came while we
    had none. An offer is held of members only, and a refusal leaves the group as it was. -/
theorem isCleanMember_play_iff (us : NodeId) (max : Version) :
    (∀ inputs node, ((new us max).play inputs).isCleanMember node = true ↔
      node ∈ lastMembers inputs ∧
        ∃ before added since, AddedAfter node inputs before added since ∧
          ∃ heard o quorate quorateTime rest,
            since = heard ++ .offer node o quorate quorateTime :: rest ∧ o.WellFormed ∧
              (node = us ∨ o.run.isStateful = false ∨
                ((new us max).play (before ++ added :: heard)).ours.run.isStateful = false)) ∧
    (∀ inputs node, (((new us max).play inputs).offer? node).isSome = true →
      node ∈ lastMembers inputs) ∧
    ∀ (g : DaemonGroup) (sender : NodeId) (o : Offer) (quorate : Bool) (quorateTime : Seconds),
      ((hear sender o quorate quorateTime).run g).1 =
          (g.receiveOffer sender o quorate quorateTime).map (·.2) ∧
        ∀ e, ((hear sender o quorate quorateTime).run g).1 = .error e →
          ((hear sender o quorate quorateTime).run g).2 = g := by
  refine ⟨fun inputs node => ?_, fun inputs node hoffer => ?_, ?_⟩
  · rw [isCleanMember_play_iff_counted]
    constructor
    · rintro ⟨heard, o, quorate, quorateTime, rest, rfl, ⟨hlists, hfit, hfree⟩, hrest⟩
      rw [lists_play_iff] at hlists
      obtain ⟨before, added, stay, rfl, hnot, hadded, hstay⟩ := exists_addedAfter hlists
      have hafter : AddedAfter node
          (before ++ added :: stay ++ .offer node o quorate quorateTime :: rest) before added
          (stay ++ .offer node o quorate quorateTime :: rest) := by
        refine ⟨by simp, hnot, hadded, ?_⟩
        simpa [or_imp, forall_and, Keeps] using ⟨hstay, hrest⟩
      rw [(us_members_play us max _).1] at hfree
      exact ⟨hafter.mem_lastMembers, before, added, _, hafter, stay, o, quorate, quorateTime, rest,
        rfl, hfit, hfree⟩
    · rintro ⟨-, before, added, _, ⟨rfl, hnot, hadded, hsince⟩, stay, o, quorate, quorateTime, rest,
        rfl, hfit, hfree⟩
      simp only [List.mem_append, List.mem_cons, or_imp, forall_and] at hsince
      have hstay : AddedAfter node (before ++ added :: stay) before added stay :=
        ⟨rfl, hnot, hadded, hsince.1⟩
      refine ⟨before ++ added :: stay, o, quorate, quorateTime, rest, by simp, ⟨?_, hfit, ?_⟩,
        hsince.2.2⟩
      · rw [lists_play_iff]
        exact hstay.mem_lastMembers
      · rwa [(us_members_play us max _).1]
  · rw [← lists_play_iff us max]
    exact (coherent_play us max inputs).lists_of_offer node hoffer
  · intro g sender o quorate quorateTime
    rw [hear_run]
    cases g.receiveOffer sender o quorate quorateTime with
    | error e => exact ⟨rfl, fun _ _ => rfl⟩
    | ok received => exact ⟨rfl, fun e h => by cases h⟩

section

/-- Both daemons of a pair are heard and gain state. Then node 2 goes and comes back with its
    state. -/
def mergesBack : List DaemonGroupInput :=
  let running (flags : UInt16) : Offer := { max := .highest, run := { Version.highest with flags } }
  [.membership [1, 2] [1, 2] 10, .offer 1 { max := .highest } true 5,
   .offer 2 { max := .highest } true 5, .proposes, .offer 1 (running 0) true 5, .stateful,
   .membership [1] [] 20, .membership [1, 2] [2] 30,
   .offer 2 (running Version.statefulFlag) true 5]

/-- Node 2 is listed again, and no announcement of it has counted since. The announcement of a
    version with a zero in it is refused. -/
theorem isCleanMember_play_iff_mergesBack :
    let g := (new 1 .highest).play mergesBack
    g.isCleanMember 1 = true ∧ 1 ∈ lastMembers mergesBack ∧
      (2 ∈ lastMembers mergesBack ∧
        ¬ ∃ before added since, AddedAfter 2 mergesBack before added since ∧
          ∃ heard o quorate quorateTime rest,
            since = heard ++ .offer 2 o quorate quorateTime :: rest ∧ o.WellFormed ∧
              ((2 : NodeId) = 1 ∨ o.run.isStateful = false ∨
                ((new 1 .highest).play (before ++ added :: heard)).ours.run.isStateful =
                  false)) ∧
      ((hear 2 {} true 5).run g).1 = .error (.invalidVersion 2 (.max {})) ∧
      ((hear 2 {} true 5).run g).2 = g := by
  obtain ⟨hclean, hheld, hrefused⟩ := isCleanMember_play_iff 1 .highest
  have hfirst : ((new 1 .highest).play mergesBack).isCleanMember 1 = true := by decide +kernel
  have hsecond : ((new 1 .highest).play mergesBack).isCleanMember 2 = false := by decide +kernel
  have hoffer : (((new 1 .highest).play mergesBack).offer? 1).isSome = true := by decide +kernel
  have hlisted : 2 ∈ lastMembers mergesBack := by decide
  have hzero : ((hear 2 {} true 5).run ((new 1 .highest).play mergesBack)).1 =
      .error (.invalidVersion 2 (.max {})) := rfl
  refine ⟨hfirst, hheld mergesBack 1 hoffer, ⟨hlisted, fun hcounted => ?_⟩, hzero,
    (hrefused _ _ _ _ _).2 _ hzero⟩
  have hmember := (hclean mergesBack 2).2 ⟨hlisted, hcounted⟩
  rw [hsecond] at hmember
  cases hmember

end

end DaemonGroup

end ClusterFence
