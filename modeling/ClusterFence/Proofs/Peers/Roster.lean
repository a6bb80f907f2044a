import ClusterFence.Proofs.Domain.Growth

namespace ClusterFence

namespace Membership

def nodes (m : Membership) : List NodeId := m.members.map (·.node)

/-- The members are those of before, less those who left and with those who joined. -/
def succeeds (m : Membership) (before : List NodeId) : Bool :=
  (m.nodes.all fun node => (before.contains node && !m.left.any (·.node == node)) ||
    m.joined.any (·.node == node)) &&
  before.all fun node => m.left.any (·.node == node) || m.lists node

/-- The membership change follows on the members that the group had before, as far as the node `us`
    knows them. It lists each member once, and whoever joined. Without a group before it, `us`
    joins. -/
def consistent (m : Membership) (us : NodeId) (group : Option (List NodeId)) : Bool :=
  decide m.nodes.Nodup && m.joined.all (m.lists ·.node) &&
    match group with
    | none => m.joined.any (·.node == us)
    | some before => m.succeeds before

end Membership

/-- Only a membership change has something to be consistent with. -/
def DomainInput.consistent (us : NodeId) (group : Option (List NodeId)) : DomainInput → Bool
  | .membership m => m.consistent us group
  | _ => true

namespace Domain

/-- The members of the group after an input, as far as the domain is told. After the end of its own
    leave it is in no group. -/
def groupAfter (d : Domain) (group : Option (List NodeId)) : DomainInput → Option (List NodeId)
  | .membership m => if d.endsLeave m then none else some m.nodes
  | _ => group

/-- The membership changes among the inputs follow on one another, until the end of our own leave;
    after it we have to join again. -/
def consistent (d : Domain) (group : Option (List NodeId)) : List (Seconds × DomainInput) → Bool
  | [] => true
  | (now, i) :: rest =>
    i.consistent d.us group && (d.step now i).1.domain.consistent (d.groupAfter group i) rest

end Domain

/-- What a change says of its members: their number, and which nodes they are. -/
def Change.roster (c : Change) : UInt32 × List NodeId := (c.counts.members, c.members.map (·.node))

/-- The members of the change are counted, each is listed once, and each has a history. -/
structure Change.Rostered (c : Change) (h : History) : Prop where
  nodup : (c.members.map (·.node)).Nodup
  size : c.counts.members = UInt32.ofNat c.members.length
  known : ∀ node, c.isMember node = true → h.contains node = true

theorem Change.Rostered.of_roster_eq {c c' : Change} {h h' : History} (hc : c.Rostered h)
    (hroster : c'.roster = c.roster)
    (hknown : ∀ node, h.contains node = true → h'.contains node = true) : c'.Rostered h' := by
  obtain ⟨hcount, hnodes⟩ := Prod.mk.inj hroster
  have hlength := congrArg List.length hnodes
  rw [List.length_map, List.length_map] at hlength
  refine ⟨by rw [hnodes]; exact hc.nodup, by rw [hcount, hlength]; exact hc.size, ?_⟩
  intro node hmember
  rw [isMember_eq_contains, hnodes, ← isMember_eq_contains] at hmember
  exact hknown node (hc.known node hmember)

theorem Change.roster_ofMembership (seq : UInt32) (us : NodeId) (m : Membership) (now : Seconds) :
    (ofMembership seq us m now).roster = (UInt32.ofNat m.members.length, m.nodes) :=
  congrArg (Prod.mk _) (map_members_ofMembership (fun _ => rfl) seq us m now)

theorem Change.roster_updateMember (c : Change) (node : NodeId) {f : Participant → Participant}
    (hf : ∀ m, (f m).node = m.node) : (c.updateMember node f).roster = c.roster :=
  congrArg (Prod.mk _) (map_updateFirst hf c.members)

namespace Domain

section

variable {d d' : Domain} {now : Seconds} {i : DomainInput} {m : Membership} {node : NodeId}

/-- The members of a change that is pending after getting on are those of one that was before. -/
theorem exists_roster_advance {c' : Change} (hc' : c' ∈ d.advance.domain.changes.pending) :
    ∃ c ∈ d.changes.pending, c.roster = c'.roster := by
  obtain ⟨hmap, -⟩ | hnil := d.map_advance (g := Change.roster) fun _ _ _ => rfl
  · exact exists_mem_of_map_eq hmap hc'
  · rw [hnil] at hc'
    cases hc'

/-- A change that is pending has the members of one that was, or it is a new one. -/
theorem Uptake.exists_roster (h : Uptake d now i d') {c' : Change} (hc' : c' ∈ d'.changes.pending) :
    (∃ c ∈ d.changes.pending, c.roster = c'.roster) ∨
      ∃ m, i = .membership m ∧ d.endsLeave m = false ∧
        c'.roster = (UInt32.ofNat m.members.length, m.nodes) := by
  cases h with
  | stays _ _ changes => exact .inl ⟨c', changes ▸ hc', rfl⟩
  | getsOn _ _ changes =>
    obtain ⟨c, hc, heq⟩ := exists_roster_advance hc'
    exact .inl ⟨c, changes ▸ hc, heq⟩
  | @starts e s start =>
    obtain ⟨c, hc, heq⟩ := exists_roster_advance hc'
    rw [changes_receiveStart] at hc
    have hmap : (d.takeDown d.changes s).pending.map Change.roster =
        d.changes.pending.map Change.roster :=
      map_takeDown fun c f hf => c.roster_updateMember s.sender hf
    obtain ⟨first, hfirst, hsame⟩ := exists_mem_of_map_eq hmap hc
    exact .inl ⟨first, hfirst, hsame.trans heq⟩
  | left _ => exact .inl ⟨c', hc', rfl⟩
  | refused _ _ _ changes =>
    rw [changes] at hc'
    exact .inl ⟨c', hc', rfl⟩
  | @queued m leave _ =>
    obtain ⟨c, hc, heq⟩ := exists_roster_advance hc'
    rw [told_changes] at hc
    obtain rfl | hc := List.mem_cons.1 hc
    · exact .inr ⟨m, rfl, leave, heq.symm.trans (Change.roster_ofMembership _ _ m now)⟩
    · exact .inl ⟨c, hc, heq⟩
  | finished =>
    unfold finishFencing at hc'
    split at hc'
    · simp [retireCurrent] at hc'
    · exact .inl ⟨c', hc', rfl⟩

theorem contains_told (hstray : m.stray? = none)
    (hknown : d.history.contains node = true ∨ (∃ a ∈ m.joined, a.node = node ∧ node ≠ d.us) ∨
      m.joined.any (·.node == d.us) = true ∧ ∃ a ∈ m.members, a.node = node) (now : Seconds) :
    (d.told m now).history.contains node = true := by
  rw [told_history]
  refine History.contains_ensureJoined hstray (hknown.imp_left fun hknown => ?_)
  exact History.contains_recordRemovals hknown _ _ now

end

/-- What holds along consistent membership changes, in the group that the domain is told of. -/
structure Rostered (d : Domain) (group : Option (List NodeId)) : Prop where
  group : ∀ nodes, group = some nodes → ∀ node ∈ nodes, d.history.contains node = true
  pending : ∀ c ∈ d.changes.pending, c.Rostered d.history

theorem rostered_new (config : Config) : (new config).Rostered none where
  group := by simp
  pending := by simp [new_changes]

namespace Rostered

variable {d : Domain} {group : Option (List NodeId)} {m : Membership}

theorem stray?_eq_none {us : NodeId} (hconsistent : m.consistent us group = true) :
    m.stray? = none := by
  unfold Membership.consistent at hconsistent
  simp only [Bool.and_eq_true, List.all_eq_true] at hconsistent
  exact Membership.stray?_eq_none_iff.2 hconsistent.1.2

/-- Every member has a history once the domain is told: it was in the group before, or it joined, or
    we joined ourselves. -/
theorem contains_told (h : d.Rostered group) (hconsistent : m.consistent d.us group = true)
    {node : NodeId} (hnode : node ∈ m.nodes) (now : Seconds) :
    (d.told m now).history.contains node = true := by
  apply Domain.contains_told (stray?_eq_none hconsistent)
  obtain ⟨a, ha, heq⟩ := List.mem_map.1 hnode
  by_cases hours : m.joined.any (·.node == d.us) = true
  · exact .inr (.inr ⟨hours, a, ha, heq⟩)
  cases hgroup : group with
  | none => simp [Membership.consistent, hgroup, hours] at hconsistent
  | some before =>
    simp only [Membership.consistent, hgroup, Membership.succeeds, Bool.and_eq_true,
      List.all_eq_true] at hconsistent
    have hcame := hconsistent.2.1 node hnode
    rw [Bool.or_eq_true, Bool.and_eq_true, List.contains_iff_mem] at hcame
    obtain ⟨hbefore, -⟩ | hjoined := hcame
    · exact .inl (h.group before hgroup node hbefore)
    · obtain ⟨b, hb, hbnode⟩ := List.any_eq_true.1 hjoined
      refine .inr (.inl ⟨b, hb, eq_of_beq hbnode, ?_⟩)
      rintro rfl
      exact hours hjoined

theorem step (h : d.Rostered group) {i : DomainInput} (hinput : i.consistent d.us group = true)
    (now : Seconds) : (d.step now i).1.domain.Rostered (d.groupAfter group i) := by
  have hconsistent (m : Membership) (hm : i = .membership m) : m.consistent d.us group = true := by
    rw [hm] at hinput
    exact hinput
  have hkeep {node : NodeId} (hknown : d.history.contains node = true) :
      (d.step now i).1.domain.history.contains node = true := contains_step hknown now i
  -- the members of a change that is taken up
  have hnew {m : Membership} (hm : i = .membership m) (hleave : d.endsLeave m = false)
      {node : NodeId} (hnode : node ∈ m.nodes) :
      (d.step now i).1.domain.history.contains node = true := by
    have hdomain : (d.step now i).1.domain = (d.told m now).advance.domain := by
      rw [hm, Domain.step, changeMembers_of_stray_none (stray?_eq_none (hconsistent m hm)),
        hleave]
      rfl
    rw [hdomain, advance_history]
    exact h.contains_told (hconsistent m hm) hnode now
  constructor
  case group =>
    intro nodes hnodes node hnode
    cases i with
    | membership m =>
      cases hleave : d.endsLeave m with
      | true => simp [groupAfter, hleave] at hnodes
      | false =>
        have heq : m.nodes = nodes := by simpa [groupAfter, hleave] using hnodes
        exact hnew rfl hleave (heq ▸ hnode)
    | _ => exact hkeep (h.group nodes hnodes node hnode)
  case pending =>
    intro c' hc'
    obtain ⟨c, hc, hroster⟩ | ⟨m, hm, hleave, hroster⟩ := (d.uptake_step now i).exists_roster hc'
    · exact (h.pending c hc).of_roster_eq hroster.symm fun _ => hkeep
    · obtain ⟨hcount, hnodes⟩ := Prod.mk.inj hroster
      have hlength := congrArg List.length hnodes
      rw [List.length_map, Membership.nodes, List.length_map] at hlength
      have hlisted := hconsistent m hm
      simp only [Membership.consistent, Bool.and_eq_true, decide_eq_true_eq] at hlisted
      refine ⟨by rw [hnodes]; exact hlisted.1.1, by rw [hcount, hlength], ?_⟩
      intro node hmember
      rw [Change.isMember_iff_mem, hnodes] at hmember
      exact hnew hm hleave hmember

/-- Whatever else happens, the members of the pending changes are known as long as the membership
    changes are consistent. -/
theorem play (h : d.Rostered group) {inputs : List (Seconds × DomainInput)}
    (hconsistent : d.consistent group inputs = true) :
    ∀ c ∈ (d.play inputs).changes.pending, c.Rostered (d.play inputs).history := by
  induction inputs generalizing d group with
  | nil => exact h.pending
  | cons timed rest ih =>
    obtain ⟨now, i⟩ := timed
    rw [consistent, Bool.and_eq_true] at hconsistent
    exact ih (h.step hconsistent.1 now) hconsistent.2

end Rostered

end Domain

end ClusterFence
