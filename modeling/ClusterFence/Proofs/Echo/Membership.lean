import ClusterFence.Proofs.Echo.Inputs
import ClusterFence.Proofs.Queue

namespace ClusterFence

/-- A change that lists each member once, us among them. -/
theorem Change.sound_ofMembership {m : Membership} {us : NodeId}
    (hnodup : (m.members.map (·.node)).Nodup) (hlisted : m.lists us = true) (seq : UInt32)
    (now : Seconds) : (ofMembership seq us m now).Sound us := by
  have hnodes : (ofMembership seq us m now).members.map (·.node) = m.members.map (·.node) :=
    map_members_ofMembership (fun _ => rfl) seq us m now
  refine ⟨by rwa [hnodes], ?_, ?_, ?_, fun _ => rfl⟩
  · rw [isMember_iff_mem, hnodes]
    obtain ⟨a, ha, hnode⟩ := List.any_eq_true.1 hlisted
    exact List.mem_map.2 ⟨a, ha, eq_of_beq hnode⟩
  · have hlength := congrArg List.length hnodes
    rw [List.length_map, List.length_map] at hlength
    rw [hlength]
    rfl
  · intro p hp hstarted
    rw [not_started_ofMembership hp] at hstarted
    cases hstarted

namespace Domain

/-- A domain that was told of a membership change, before it gets on. -/
def told (d : Domain) (m : Membership) (now : Seconds) : Domain :=
  let seq := d.changes.changeSeq + 1
  let c := Change.ofMembership seq d.us m now
  let changes := { d.changes with changeSeq := seq, pending := c :: d.changes.pending }
  let history := (d.history.recordRemovals m.left seq now).ensureJoined d.us m
  { d with changes, history }.addVictims c

variable (d : Domain) (m : Membership) (now : Seconds)

@[simp] theorem told_changes : (d.told m now).changes =
    { d.changes with
      changeSeq := d.changes.changeSeq + 1
      pending := .ofMembership (d.changes.changeSeq + 1) d.us m now :: d.changes.pending } :=
  addVictims_changes _ _

@[simp] theorem told_history : (d.told m now).history =
    (d.history.recordRemovals m.left (d.changes.changeSeq + 1) now).ensureJoined d.us m :=
  addVictims_history _ _

@[simp] theorem told_cluster : (d.told m now).cluster = d.cluster := addVictims_cluster _ _

@[simp] theorem told_leaving : (d.told m now).leaving = d.leaving := addVictims_leaving _ _

@[simp] theorem told_us : (d.told m now).us = d.us :=
  congrArg (·.node.id) (addVictims_config _ _)

end Domain

namespace Loopback

variable {l : Loopback} {m : Membership} {now : Seconds}

/-- What is required of a membership change. -/
structure Fitting (l : Loopback) (m : Membership) (now : Seconds) : Prop where
  nodup : (m.members.map (·.node)).Nodup
  listed : m.lists l.domain.us = true
  stays : ∀ a ∈ m.left, a.node ≠ l.domain.us
  stray : m.stray? = none
  room : l.domain.changes.changeSeq.toNat + 1 < UInt32.size
  first : l.domain.changes.latest? = none →
    m.joined.any (·.node == l.domain.us) = true ∧ l.domain.cluster.isMember l.domain.us = true ∧
      (l.domain.history.lookup l.domain.us).clusterAddTime ≤ now
  later : ∀ c, l.domain.changes.latest? = some c → c.createTime ≤ now ∧ m.follows c = true

theorem fitting_of_admits (hadmits : l.admits now (.membership m) = true) : l.Fitting m now := by
  simp only [admits, Bool.and_eq_true, decide_eq_true_eq] at hadmits
  obtain ⟨⟨⟨⟨⟨hnodup, hlisted⟩, hstays⟩, hjoined⟩, hroom⟩, horder⟩ := hadmits
  refine ⟨hnodup, hlisted, ?_, ?_, hroom, ?_, ?_⟩
  · intro a ha heq
    simp only [Bool.not_eq_true', List.any_eq_false] at hstays
    exact hstays a ha (beq_iff_eq.2 heq)
  · exact Membership.stray?_eq_none_iff.2 (List.all_eq_true.1 hjoined)
  · intro hlatest
    simpa [hlatest, and_assoc] using horder
  · intro c hlatest
    simpa [hlatest] using horder

/-- A membership change is queued; the evictions apart, what follows is that of getting on. -/
theorem act_membership_eq (hleaving : l.domain.leaving = false) (hfitting : l.Fitting m now) :
    l.act now (.membership m) =
      { domain := (l.domain.told m now).advance.domain
        queued := l.queued ++ Action.sent (l.domain.told m now).advance.actions } := by
  have hstays : ¬ (l.domain.leaving && m.left.any (·.node == l.domain.us)) = true := by
    simp [hleaving]
  simp only [act, step, Domain.step, Domain.changeMembers, if_neg hstays, ChangeQueue.add,
    hfitting.stray, Action.sent_append, Action.sent_evict, List.nil_append]
  rfl

namespace Steady

/-- The number of a new change is higher than those of all pending ones. -/
theorem lt_next (h : l.Steady) (hfitting : l.Fitting m now) {c : Change}
    (hc : c ∈ l.domain.changes.pending) : c.seq < l.domain.changes.changeSeq + 1 :=
  ClusterFence.lt_next (h.le_changeSeq c hc) hfitting.room

theorem latest?_eq (h : l.Steady) : l.domain.changes.latest? = l.domain.changes.current? := by
  rw [ChangeQueue.latest?, h.started, Option.or_none]

/-- A membership change leaves every history that there is. -/
theorem contains_told_of_contains (hfitting : l.Fitting m now) {node : NodeId}
    (hknown : l.domain.history.contains node = true) :
    (l.domain.told m now).history.contains node = true := by
  rw [Domain.told_history]
  exact History.contains_ensureJoined hfitting.stray
    (.inl (History.contains_recordRemovals hknown _ _ now))

/-- Every member of a new change has a history. -/
theorem contains_told (h : l.Steady) (hfitting : l.Fitting m now) {node : NodeId}
    (hnode : m.lists node = true) : (l.domain.told m now).history.contains node = true := by
  obtain ⟨a, ha, heq⟩ := List.any_eq_true.1 hnode
  rw [beq_iff_eq] at heq
  cases hlatest : l.domain.changes.latest? with
  | none =>
    rw [Domain.told_history]
    exact History.contains_ensureJoined hfitting.stray
      (.inr (.inr ⟨(hfitting.first hlatest).1, a, ha, heq⟩))
  | some c =>
    have hc : c ∈ l.domain.changes.pending := ChangeQueue.current?_mem (h.latest?_eq ▸ hlatest)
    have hknown {node : NodeId} (hmember : c.isMember node = true) :
        (l.domain.told m now).history.contains node = true := by
      obtain ⟨p, hp, heq⟩ := List.any_eq_true.1 hmember
      rw [← eq_of_beq heq]
      exact contains_told_of_contains hfitting (h.known c hc p hp)
    have hfollows := (hfitting.later c hlatest).2
    unfold Membership.follows at hfollows
    rw [Bool.and_eq_true, List.all_eq_true, List.all_eq_true] at hfollows
    have hcame := hfollows.1 a ha
    rw [Bool.or_eq_true, Bool.and_eq_true, heq] at hcame
    obtain ⟨hmember, -⟩ | hjoined := hcame
    · exact hknown hmember
    · by_cases hus : node = l.domain.us
      · rw [hus]
        exact hknown (h.sound c hc).member
      · obtain ⟨b, hb, hbnode⟩ := List.any_eq_true.1 hjoined
        rw [Domain.told_history]
        exact History.contains_ensureJoined hfitting.stray
          (.inr (.inl ⟨b, hb, eq_of_beq hbnode, hus⟩))

/-- Every member of a pending change has a history, those of the new change included. -/
theorem known_told (h : l.Steady) (hfitting : l.Fitting m now) :
    ∀ c ∈ (l.domain.told m now).changes.pending, ∀ p ∈ c.members,
      (l.domain.told m now).history.contains p.node = true := by
  have hnodes : (Change.ofMembership (l.domain.changes.changeSeq + 1) l.domain.us m now).members.map
      (·.node) = m.members.map (·.node) :=
    Change.map_members_ofMembership (fun _ => rfl) _ _ m now
  rw [Domain.told_changes]
  intro c hc p hp
  obtain rfl | hc := List.mem_cons.1 hc
  · have hp : p.node ∈ m.members.map (·.node) := hnodes ▸ List.mem_map_of_mem hp
    obtain ⟨a, ha, heq⟩ := List.mem_map.1 hp
    exact h.contains_told hfitting (List.any_eq_true.2 ⟨a, ha, beq_iff_eq.2 heq⟩)
  · exact contains_told_of_contains hfitting (h.known c hc p hp)

/-- We joined the cluster no later than the change before was made, which is no later than now. -/
theorem clusterAddTime_le (h : l.Steady) (hfitting : l.Fitting m now) :
    (l.domain.history.lookup l.domain.us).clusterAddTime ≤ now := by
  cases hlatest : l.domain.changes.latest? with
  | none => exact (hfitting.first hlatest).2.2
  | some c =>
    have hc := ChangeQueue.current?_mem (h.latest?_eq ▸ hlatest)
    exact UInt64.le_trans (h.ours.clusterAddTime c hc) (hfitting.later c hlatest).1

/-- A membership change from which we are not gone puts nothing on record against us. -/
theorem ours_told (h : l.Steady) (hfitting : l.Fitting m now) :
    ((l.domain.told m now).history.lookup (l.domain.told m now).us).Unremoved
      (l.domain.told m now).changes.pending := by
  rw [Domain.told_changes, Domain.told_us, Domain.told_history, History.lookup_ensureJoined]
  refine History.lookup_recordRemovals (P := fun n => n.Unremoved _) ?_
    fun a ha heq => absurd heq (hfitting.stays a ha)
  refine ⟨h.ours.failSeq, h.ours.leftSeq, fun c hc => ?_⟩
  obtain rfl | hc := List.mem_cons.1 hc
  · exact h.clusterAddTime_le hfitting
  · exact h.ours.clusterAddTime c hc

/-- What was said of a pending change stays so: the new change is not an older one. -/
theorem said_told (h : l.Steady) (hfitting : l.Fitting m now) {said : MessageFlags × Message}
    (hsaid : l.domain.Said said) : (l.domain.told m now).Said said := by
  obtain ⟨report, hreport, c, hc, hdescribes, hsent, hflag⟩ := hsaid
  refine ⟨report, hreport, c, ?_, by rwa [Domain.told_us], hsent, ?_⟩
  · rw [Domain.told_changes]
    exact List.mem_cons_of_mem _ hc
  · intro hunflagged old hold hlt hlooks
    rw [Domain.told_changes] at hold
    obtain rfl | hold := List.mem_cons.1 hold
    · exact absurd hlt (UInt32.lt_asymm (h.lt_next hfitting hc))
    · exact hflag hunflagged old hold hlt hlooks

/-- A new change keeps what holds all along. -/
theorem steady_told (h : l.Steady) (hfitting : l.Fitting m now) :
    Steady { domain := l.domain.told m now, queued := l.queued } := by
  have hnew := Change.sound_ofMembership hfitting.nodup hfitting.listed
    (l.domain.changes.changeSeq + 1) now
  constructor
  case stays =>
    simpa using h.stays
  case started =>
    simpa using h.started
  case never =>
    simpa using h.never
  case keyed =>
    rw [Domain.told_history]
    have hremoved : l.domain.history.Notes l.domain.changes (l.domain.changes.changeSeq + 1)
        (l.domain.history.recordRemovals m.left (l.domain.changes.changeSeq + 1) now) :=
      History.notes_recordRemovals m.left now
    exact History.Notes.keyed (hremoved.trans (.ensureJoined _ l.domain.us m)) h.keyed
  case cluster =>
    intro _
    rw [Domain.told_cluster, Domain.told_us]
    cases hlatest : l.domain.changes.latest? with
    | none => exact (hfitting.first hlatest).2.1
    | some c =>
      have hc := ChangeQueue.current?_mem (h.latest?_eq ▸ hlatest)
      exact h.cluster (List.ne_nil_of_mem hc)
  case decreasing =>
    rw [Domain.told_changes, List.map_cons, List.pairwise_cons]
    refine ⟨fun seq hseq => ?_, h.decreasing⟩
    obtain ⟨c, hc, rfl⟩ := List.mem_map.1 hseq
    exact h.lt_next hfitting hc
  case le_changeSeq =>
    rw [Domain.told_changes]
    rintro c hc
    obtain rfl | hc := List.mem_cons.1 hc
    · exact UInt32.le_refl _
    · exact UInt32.le_of_lt (h.lt_next hfitting hc)
  case sound =>
    rw [Domain.told_changes, Domain.told_us]
    intro c hc
    obtain rfl | hc := List.mem_cons.1 hc
    · exact hnew
    · exact h.sound c hc
  case known =>
    exact h.known_told hfitting
  case ours =>
    exact h.ours_told hfitting
  case said =>
    exact fun said hsaid => h.said_told hfitting (h.said said hsaid)

theorem act_membership (h : l.Steady) (hadmits : l.admits now (.membership m) = true) :
    (l.act now (.membership m)).Steady := by
  have hfitting := fitting_of_admits hadmits
  rw [act_membership_eq h.stays hfitting]
  exact (h.steady_told hfitting).getsOn

/-- Every input that is consistent with what came before keeps what holds all along. -/
theorem act (h : l.Steady) {i : EchoInput} (hadmits : l.admits now i = true) :
    (l.act now i).Steady := by
  cases i with
  | membership m => exact h.act_membership hadmits
  | ring node seq => exact h.act_ring now node seq
  | cluster s => exact h.act_cluster hadmits
  | echo => exact h.act_echo now

end Steady

/-- What inputs lead to that are consistent keeps what each of them keeps. -/
theorem run_induction {P : Loopback → Prop}
    (hact : ∀ l now i, P l → l.admits now i = true → P (l.act now i)) (h : P l)
    {inputs : List (Seconds × EchoInput)} (hadmits : l.admitsAll inputs = true) :
    P (l.run inputs) := by
  induction inputs generalizing l with
  | nil => exact h
  | cons timed rest ih =>
    rw [admitsAll, Bool.and_eq_true] at hadmits
    exact ih (hact l timed.1 timed.2 h hadmits.1) hadmits.2

theorem steady_new (config : Config) : (new config).Steady := by
  have hchanges := Domain.new_changes config
  have hleaving : (Domain.new config).leaving = false := by
    unfold Domain.new
    split <;> rfl
  refine ⟨hleaving, ?_, ?_, Domain.keyed_new config, ?_, ?_, ?_, ?_, ?_, ?_, ?_⟩ <;>
    simp [new, hchanges]
  rw [Domain.lookup_new]
  exact ⟨rfl, rfl, by simp⟩

end Loopback

end ClusterFence
