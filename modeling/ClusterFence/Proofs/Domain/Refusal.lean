import ClusterFence.Proofs.Domain.Forgetting
import ClusterFence.Proofs.Records

namespace ClusterFence

namespace Membership

/-- The change lists the node as failed. -/
def fails (m : Membership) (node : NodeId) : Bool :=
  m.left.any fun a => a.node == node && a.reason.isFailure

/-- The change lists the node as one that left cleanly. -/
def dismisses (m : Membership) (node : NodeId) : Bool :=
  m.left.any fun a => a.node == node && !a.reason.isFailure

/-- The node joined ahead of the first one that is no member, and is not the one that keeps the
    histories. -/
def introduces (m : Membership) (us node : NodeId) : Bool :=
  node != us && (m.joined.takeWhile (m.lists ·.node)).any (·.node == node)

end Membership

namespace NodeHistory

/-- The history of a node that failed, left cleanly, or both, in the change numbered `seq`. -/
def marked (n : NodeHistory) (failed dismissed : Bool) (seq : UInt32) (now : Seconds) :
    NodeHistory :=
  { n with
    failTime := if failed then now else n.failTime
    failSeq := if failed then max n.failSeq seq else n.failSeq
    leftTime := if dismissed then now else n.leftTime
    leftSeq := if dismissed then max n.leftSeq seq else n.leftSeq }

/-- The history bears the marks of the change already. -/
def Bears (n : NodeHistory) (failed dismissed : Bool) (seq : UInt32) (now : Seconds) : Prop :=
  (failed = true → n.failTime = now ∧ seq ≤ n.failSeq) ∧
    (dismissed = true → n.leftTime = now ∧ seq ≤ n.leftSeq)

theorem max_seq_idem (old new : UInt32) : max (max old new) new = max old new := by
  simp only [max_seq_eq_ite]
  grind

theorem max_seq_eq_left_iff {old new : UInt32} : max old new = old ↔ new ≤ old := by
  rw [max_seq_eq_ite]
  grind

section

variable (n : NodeHistory) (failed dismissed failed' dismissed' : Bool) (seq : UInt32)
  (now : Seconds)

theorem marked_marked : (n.marked failed dismissed seq now).marked failed' dismissed' seq now =
    n.marked (failed || failed') (dismissed || dismissed') seq now := by
  cases failed <;> cases failed' <;> cases dismissed <;> cases dismissed' <;>
    simp [marked, max_seq_idem]

/-- Marks that are there already change nothing. -/
theorem marked_eq_self_iff :
    n.marked failed dismissed seq now = n ↔ n.Bears failed dismissed seq now := by
  obtain ⟨⟩ := n
  cases failed <;> cases dismissed <;>
    simp [marked, Bears, max_seq_eq_left_iff, and_assoc, and_left_comm, eq_comm (b := now)]

end

end NodeHistory

namespace History

/-- One removal leaves its mark on its own node. -/
theorem get?_recordRemoval (h : History) (a : GroupAddress) (seq : UInt32) (now : Seconds)
    (node : NodeId) :
    (if a.reason.isFailure then h.recordFail a.node seq now
      else h.recordLeft a.node seq now).get? node =
      (h.get? node).map (·.marked (a.node == node && a.reason.isFailure)
        (a.node == node && !a.reason.isFailure) seq now) := by
  cases hreason : a.reason.isFailure with
  | true =>
    rw [if_pos rfl, recordFail, get?_update]
    by_cases hnode : a.node = node <;> simp [hnode, NodeHistory.marked]
  | false =>
    rw [if_neg Bool.false_ne_true, recordLeft, get?_update]
    by_cases hnode : a.node = node <;> simp [hnode, NodeHistory.marked]

theorem get?_recordRemovals (h : History) (left : List GroupAddress) (seq : UInt32)
    (now : Seconds) (node : NodeId) :
    (h.recordRemovals left seq now).get? node =
      (h.get? node).map (·.marked (left.any fun a => a.node == node && a.reason.isFailure)
        (left.any fun a => a.node == node && !a.reason.isFailure) seq now) := by
  unfold recordRemovals
  induction left generalizing h with
  | nil => simp [NodeHistory.marked]
  | cons a rest ih =>
    rw [List.foldl_cons, ih, get?_recordRemoval, Option.map_map]
    congr 1
    funext n
    exact n.marked_marked _ _ _ _ seq now

/-- Nodes that join get a history if they have none, ourselves apart. -/
theorem get?_foldl_ensure (h : History) (us : NodeId) (joined : List GroupAddress)
    (node : NodeId) :
    (joined.foldl (fun h a => if a.node == us then h else h.ensure a.node) h).get? node =
      (h.get? node).or
        (if node != us && joined.any (·.node == node) then some { node } else none) := by
  induction joined generalizing h with
  | nil => simp
  | cons a rest ih =>
    rw [List.foldl_cons, ih]
    by_cases hus : a.node = us
    · by_cases hnode : us = node <;> simp [hus, hnode]
    · rw [if_neg (by simpa using hus), get?_ensure]
      by_cases hnode : a.node = node
      · subst hnode
        cases h.get? a.node <;> simp [hus]
      · simp [hnode]

/-- What a change that is refused makes of the history of each node. -/
theorem get?_of_stray {m : Membership} {stray : NodeId} (hstray : m.stray? = some stray)
    (h : History) (us : NodeId) (seq : UInt32) (now : Seconds) (node : NodeId) :
    ((h.recordRemovals m.left seq now).ensureJoined us m).get? node =
      ((h.get? node).map (·.marked (m.fails node) (m.dismisses node) seq now)).or
        (if m.introduces us node then some { node } else none) := by
  unfold ensureJoined
  dsimp only
  rw [hstray, Option.isNone_some, Bool.false_and, if_neg Bool.false_ne_true, get?_foldl_ensure,
    get?_recordRemovals]
  rfl

/-- A refused change leaves a node's history as it was when it has nothing to mark there, and does
    not start it. -/
theorem get?_of_stray_eq_self_iff (h : History) (m : Membership) (us : NodeId) (seq : UInt32)
    (now : Seconds) (node : NodeId) :
    ((h.get? node).map (·.marked (m.fails node) (m.dismisses node) seq now)).or
        (if m.introduces us node then some { node } else none) = h.get? node ↔
      (∀ n, h.get? node = some n → n.Bears (m.fails node) (m.dismisses node) seq now) ∧
        (m.introduces us node = true → h.contains node = true) := by
  unfold contains
  rw [Std.ExtTreeMap.contains_eq_isSome_getElem?]
  change _ ↔ _ ∧ (_ → (h.get? node).isSome = true)
  cases h.get? node with
  | none => simp
  | some n => simp [NodeHistory.marked_eq_self_iff]

end History

/-- The histories `after` are those of `before` with what a refused change leaves in them: the
    marks of its removals, and new histories of nodes that joined. There is no trace exactly when
    every node that it removes has no history or bears the marks already, and no node is new. -/
structure Membership.Traces (m : Membership) (us : NodeId) (seq : UInt32) (now : Seconds)
    (before after : History) : Prop where
  get? : ∀ node, after.get? node =
    ((before.get? node).map (·.marked (m.fails node) (m.dismisses node) seq now)).or
      (if m.introduces us node then some { node } else none)
  eq_iff : after = before ↔
    (∀ node n, before.get? node = some n →
      n.Bears (m.fails node) (m.dismisses node) seq now) ∧
    ∀ node, m.introduces us node = true → before.contains node = true

theorem Membership.traces_of_stray {m : Membership} {stray : NodeId}
    (hstray : m.stray? = some stray) (us : NodeId) (seq : UInt32) (now : Seconds) (h : History) :
    m.Traces us seq now h ((h.recordRemovals m.left seq now).ensureJoined us m) where
  get? := h.get?_of_stray hstray us seq now
  eq_iff := by
    simp only [History.eq_iff_get?, h.get?_of_stray hstray us seq now,
      h.get?_of_stray_eq_self_iff m us seq now, forall_and]

namespace ChangeQueue

/-- A change that is refused uses up a number, and is not queued. -/
theorem add_refused {q : ChangeQueue} {us : NodeId} {m : Membership} {h : History} {now : Seconds}
    {e : Error} (hrefused : (q.add us m h now).outcome = .error e) :
    (q.add us m h now).queue = { q with changeSeq := q.changeSeq + 1 } ∧
      m.Traces us (q.changeSeq + 1) now h (q.add us m h now).history := by
  unfold add at hrefused ⊢
  cases hstray : m.stray? with
  | none => simp [hstray] at hrefused
  | some stray => exact ⟨rfl, m.traces_of_stray hstray us _ now h⟩

end ChangeQueue

namespace Domain

/-- Where a membership change is refused, its queue and histories are all that it was about. -/
theorem changeMembers_refused {d : Domain} {m : Membership} {now : Seconds} {e : Error}
    (hrefused : (d.changeMembers m now).2 = some e) :
    (d.changes.add d.us m d.history now).outcome = .error e ∧
      (d.changeMembers m now).1.actions = [] ∧
      (d.changeMembers m now).1.domain =
        { d with
          changes := (d.changes.add d.us m d.history now).queue
          history := (d.changes.add d.us m d.history now).history } := by
  unfold changeMembers at hrefused ⊢
  split at hrefused
  · cases hrefused
  · rename_i hstays
    rw [if_neg hstays]
    dsimp only at hrefused ⊢
    split at hrefused
    · rename_i cause houtcome
      rw [houtcome]
      obtain rfl := Option.some.inj hrefused
      exact ⟨rfl, rfl, rfl⟩
    · cases hrefused

/-- The domain with another number for its latest change. -/
def numbered (d : Domain) (seq : UInt32) : Domain :=
  { d with changes := { d.changes with changeSeq := seq } }

/-- A membership change that says nothing but that a node has joined that is no member. -/
def strayAlone (node : NodeId) : DomainInput :=
  .membership { members := [], left := [], joined := [⟨node, .join⟩] }

/-- It is refused, and all that it does is to use up a number. -/
theorem step_strayAlone (d : Domain) (node : NodeId) (now : Seconds) :
    (d.step now (strayAlone node)).1.domain = d.numbered (d.changes.changeSeq + 1) := by
  simp only [step, strayAlone, changeMembers, List.any_nil, Bool.and_false, Bool.false_eq_true,
    if_false]
  rfl

/-- By such changes the number of the latest change gets from any value to any other. -/
theorem play_strayAlone (d : Domain) (node : NodeId) (now : Seconds) (count : Nat) :
    d.play (List.replicate count (now, strayAlone node)) =
      d.numbered (d.changes.changeSeq + .ofNat count) := by
  induction count generalizing d with
  | zero => exact congrArg d.numbered (UInt32.add_zero _).symm
  | succ count ih =>
    rw [List.replicate_succ, play, step_strayAlone, ih, UInt32.ofNat_add,
      UInt32.add_comm (.ofNat count), ← UInt32.add_assoc]
    rfl

/-- A membership change that is refused leaves everything as it was, except that it has used up a
    number and left its traces in the histories. So it is with the queue of changes alone, and with
    the domain. -/
theorem refused_leaves_traces (m : Membership) (now : Seconds) :
    (∀ (q : ChangeQueue) (us : NodeId) (h : History) (e : Error),
      (q.add us m h now).outcome = .error e →
      (q.add us m h now).queue = { q with changeSeq := q.changeSeq + 1 } ∧
        m.Traces us (q.changeSeq + 1) now h (q.add us m h now).history) ∧
    ∀ (d : Domain) (e : Error), (d.changeMembers m now).2 = some e →
      (d.changeMembers m now).1.actions = [] ∧
        ∃ history, (d.changeMembers m now).1.domain =
            { d with
              changes := { d.changes with changeSeq := d.changes.changeSeq + 1 }
              history } ∧
          m.Traces d.us (d.changes.changeSeq + 1) now d.history history := by
  refine ⟨fun q us h e hrefused => ChangeQueue.add_refused hrefused, fun d e hrefused => ?_⟩
  obtain ⟨houtcome, hactions, hdomain⟩ := changeMembers_refused hrefused
  obtain ⟨hqueue, htraces⟩ := ChangeQueue.add_refused houtcome
  rw [hqueue] at hdomain
  exact ⟨hactions, _, hdomain, htraces⟩

section

/-- Node 2 of the pair is listed as failed, and a node that is no member as joined. -/
def failsBesideStray : Membership where
  members := [⟨1, .join⟩]
  left := [⟨2, .nodeDown⟩]
  joined := [⟨3, .join⟩]

/-- The pair once both have joined. -/
def joinedPairInputs : List (Seconds × DomainInput) := failureAfterComplete.take 3

/-- The change is refused because of node 3, and node 2 is remembered to have failed in it. -/
theorem refused_leaves_traces_pair :
    let d := (new pairConfig).play joinedPairInputs
    let added := d.changes.add d.us failsBesideStray d.history 15
    let after := (d.changeMembers failsBesideStray 15).1.domain
    (added.outcome = .error (.invariant (.joinedNotMember 2 3)) ∧
        added.queue = { d.changes with changeSeq := d.changes.changeSeq + 1 }) ∧
      (d.changeMembers failsBesideStray 15).2 = some (.invariant (.joinedNotMember 2 3)) ∧
      after.victims = d.victims ∧ after.changes.pending = d.changes.pending ∧
      after.history.get? 2 = (d.history.get? 2).map (·.marked true false 2 15) := by
  have hadd : (((new pairConfig).play joinedPairInputs).changes.add
      ((new pairConfig).play joinedPairInputs).us failsBesideStray
      ((new pairConfig).play joinedPairInputs).history 15).outcome =
        .error (.invariant (.joinedNotMember 2 3)) := by rfl
  have hrefused : (((new pairConfig).play joinedPairInputs).changeMembers failsBesideStray 15).2 =
      some (.invariant (.joinedNotMember 2 3)) := by rfl
  obtain ⟨hqueued, hchanged⟩ := refused_leaves_traces failsBesideStray 15
  obtain ⟨-, history, hafter, htraces⟩ := hchanged _ _ hrefused
  refine ⟨⟨hadd, (hqueued _ _ _ _ hadd).1⟩, hrefused, ?_⟩
  rw [hafter]
  refine ⟨rfl, rfl, ?_⟩
  have hget := htraces.get? 2
  rw [show failsBesideStray.introduces _ 2 = false by rfl, if_neg Bool.false_ne_true,
    Option.or_none] at hget
  exact hget

/-- A refused change does leave a trace: a node that it lists as failed is remembered to have failed
    in it, and is no victim. -/
theorem refused_failure_is_remembered :
    ¬ ∀ (d : Domain) (m : Membership) (now : Seconds) (e : Error),
        (d.changeMembers m now).2 = some e → ∀ node,
          (d.changeMembers m now).1.domain.history.get? node = d.history.get? node := by
  intro hkept
  have h := hkept ((new pairConfig).play joinedPairInputs) failsBesideStray 15
    (.invariant (.joinedNotMember 2 3)) (by rfl) 2
  exact absurd h (by decide +kernel)

end

end Domain

end ClusterFence
