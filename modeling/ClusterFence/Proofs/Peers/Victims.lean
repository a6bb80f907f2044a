import ClusterFence.Proofs.Domain.Fencing
import ClusterFence.Proofs.Domain.Forgetting
import ClusterFence.Proofs.Peers.Roster

namespace ClusterFence

/-- Whoever left was in the group. -/
def Membership.removesFrom (m : Membership) (group : Option (List NodeId)) : Bool :=
  m.left.all fun a => (group.getD []).contains a.node

/-- A membership change follows on the group, and removes nobody who was not in it. -/
def DomainInput.regular (us : NodeId) (group : Option (List NodeId)) : DomainInput → Bool
  | .membership m => m.consistent us group && m.removesFrom group
  | _ => true

namespace Domain

/-- The membership changes among the inputs follow on one another, and remove members only. After the
    end of our own leave we have to join again. -/
def regular (d : Domain) (group : Option (List NodeId)) : List (Seconds × DomainInput) → Bool
  | [] => true
  | (now, i) :: rest =>
    i.regular d.us group && (d.step now i).1.domain.regular (d.groupAfter group i) rest

/-- The membership change is taken up, and we join in it. -/
def joinsBy (d : Domain) (m : Membership) : Bool :=
  !d.endsLeave m && m.stray?.isNone && m.joined.any (·.node == d.us)

/-- How a node comes to be a victim once an input is taken up: it was one before, it failed, or it
    is presumed to have failed because it is absent when we join. -/
inductive VictimOrigin (d : Domain) : DomainInput → Victim → Prop
  | before {i v} (mem : v.node ∈ d.victims.ids) : VictimOrigin d i v
  | failed {m a v} (left : a ∈ m.left) (node : a.node = v.node) (initial : v.initial = false) :
      VictimOrigin d (.membership m) v
  | presumed {m nodes v} (joins : d.joinsBy m = true) (configured : d.configured = some nodes)
      (mem : v.node ∈ nodes.map (·.id))
      (absent : d.cluster.isMember v.node = false) (unlisted : m.lists v.node = false) :
      VictimOrigin d (.membership m) v

section

variable {d : Domain} {v : Victim} {m : Membership}

theorem mem_addVictims {c : Change} (hv : v ∈ (d.addVictims c).victims.toList) :
    v ∈ d.victims.toList ∨ v.node ∈ c.failedNodes ∧ v.initial = false ∨
      c.weJoined = true ∧ ∃ nodes, d.configured = some nodes ∧ v.node ∈ nodes.map (·.id) ∧
        d.cluster.isMember v.node = false ∧ c.isMember v.node = false := by
  have hfailed (hv : v ∈ (d.victims.addFailed c d.nameOf).toList) :
      v ∈ d.victims.toList ∨ v.node ∈ c.failedNodes ∧ v.initial = false := by
    obtain hv | ⟨node, hnode, rfl⟩ := Victims.mem_addFailed hv
    · exact .inl hv
    · exact .inr ⟨hnode, rfl⟩
  unfold addVictims at hv
  dsimp only at hv
  split at hv
  · rename_i nodes hjoined hconfigured
    obtain hv | ⟨n, hn, rfl, habsent⟩ := Victims.mem_addInitial hv
    · exact (hfailed hv).imp_right .inl
    · exact .inr (.inr ⟨hjoined, nodes, hconfigured, List.mem_map_of_mem hn, habsent⟩)
  · exact (hfailed hv).imp_right .inl

theorem origin_changeMembers {now : Seconds}
    (hv : v ∈ (d.changeMembers m now).1.domain.victims.toList) :
    VictimOrigin d (.membership m) v := by
  have hbefore (hv : v ∈ d.victims.toList) : VictimOrigin d (.membership m) v :=
    .before (List.mem_map_of_mem hv)
  cases hstray : m.stray? with
  | some node =>
    unfold changeMembers ChangeQueue.add at hv
    rw [hstray] at hv
    split at hv <;> exact hbefore hv
  | none =>
    rw [changeMembers_of_stray_none hstray] at hv
    cases hleave : d.endsLeave m with
    | true =>
      rw [hleave] at hv
      exact hbefore hv
    | false =>
      rw [hleave, if_neg Bool.false_ne_true, advance_victims] at hv
      obtain hv | ⟨hfailed, hinitial⟩ | ⟨hjoined, nodes, hconfigured, hmem, habsent, hunlisted⟩ :=
        mem_addVictims hv
      · exact hbefore hv
      · obtain ⟨a, ha, -, hnode⟩ := Change.mem_failedNodes_ofMembership.1 hfailed
        exact .failed ha hnode hinitial
      · refine .presumed ?_ hconfigured hmem habsent ?_
        · have hours : m.joined.any (·.node == d.us) = true := hjoined
          rw [joinsBy, hleave, hstray, hours]
          rfl
        · rwa [Change.isMember_ofMembership] at hunlisted

/-- Nothing but a membership change makes a victim. -/
theorem origin_step {now : Seconds} {i : DomainInput}
    (hv : v ∈ (d.step now i).1.domain.victims.toList) : VictimOrigin d i v := by
  have hbefore {victims : Victims} (hids : ∀ node ∈ victims.ids, node ∈ d.victims.ids)
      (hv : v ∈ victims.toList) : VictimOrigin d i v :=
    .before (hids _ (List.mem_map_of_mem hv))
  have hsame {victims : Victims} (hvictims : victims = d.victims) (hv : v ∈ victims.toList) :
      VictimOrigin d i v := hbefore (fun _ hnode => hvictims ▸ hnode) hv
  cases i with
  | membership m => exact origin_changeMembers hv
  | message e =>
    simp only [step, receive_victims] at hv
    cases hmessage : e.message with
    | victimDone seq entry =>
      rw [hmessage] at hv
      refine hbefore (fun node hnode => ?_) hv
      rw [Victims.ids_erase] at hnode
      exact List.mem_of_mem_erase hnode
    | complete report =>
      rw [hmessage] at hv
      simp only [receiveComplete_victims] at hv
      split at hv
      · cases hv
      · exact hsame rfl hv
    | _ =>
      rw [hmessage] at hv
      exact hsame rfl hv
  | resolved node how reduced =>
    simp only [step, resolve_domain] at hv
    cases reduced with
    | true =>
      refine hbefore (fun other hother => ?_) hv
      rw [if_pos rfl, Victims.ids_erase] at hother
      exact List.mem_of_mem_erase hother
    | false =>
      refine hbefore (fun other hother => ?_) hv
      rwa [if_neg Bool.false_ne_true, Victims.ids_markResolved] at hother
  | ring node seq => exact hsame (by simp [step, changeRing]) hv
  | cluster s => exact hsame (by simp [step, updateCluster, Reaction.after]) hv
  | finished =>
    refine hsame ?_ hv
    simp only [step, finishFencing]
    split <;> rfl
  | nudged => exact hsame (by simp [step]) hv
  | fencedOutside _ _ | tellExternal _ | attempted _ | leaving => exact hsame rfl hv

@[simp] theorem advance_configured (d : Domain) :
    d.advance.domain.configured = d.configured := by
  obtain ⟨_, _, _, _, h⟩ := d.advance_eq
  rw [h]

theorem configured_addVictims (d : Domain) (c : Change) :
    (d.addVictims c).configured = if c.weJoined = true then none else d.configured := by
  unfold addVictims
  cases c.weJoined <;> cases d.configured <;> rfl

/-- When we join, the configured nodes are used up. -/
theorem configured_changeMembers (d : Domain) (m : Membership) (now : Seconds) :
    (d.changeMembers m now).1.domain.configured =
      if d.joinsBy m = true then none else d.configured := by
  unfold joinsBy
  cases hstray : m.stray? with
  | some node =>
    unfold changeMembers ChangeQueue.add
    rw [hstray]
    split <;> simp
  | none =>
    rw [changeMembers_of_stray_none hstray]
    cases hleave : d.endsLeave m with
    | true => simp
    | false =>
      rw [if_neg Bool.false_ne_true, advance_configured, told, configured_addVictims]
      simp [Change.ofMembership]

/-- Configured nodes that were used up do not come back. -/
theorem configured_step {d : Domain} {now : Seconds} {i : DomainInput} {nodes : List ConfiguredNode}
    (h : (d.step now i).1.domain.configured = some nodes) : d.configured = some nodes := by
  cases i with
  | membership m =>
    rw [step, configured_changeMembers] at h
    split at h
    · cases h
    · exact h
  | message e =>
    obtain ⟨_, _, _, _, heq⟩ := d.accept_eq e now
    simpa [step, receive, Reaction.after, heq] using h
  | ring node seq => simpa [step, changeRing] using h
  | cluster s => simpa [step, updateCluster, Reaction.after] using h
  | resolved victim how reduced => simpa [step, resolve_domain] using h
  | finished =>
    simp only [step, finishFencing] at h
    split at h <;> exact h
  | nudged => simpa [step] using h
  | fencedOutside _ _ | tellExternal _ | attempted _ | leaving => exact h

end

/-- What holds along such a run, in the group that the domain is told of. -/
structure Answerable (d : Domain) (group : Option (List NodeId)) : Prop where
  rostered : d.Rostered group
  victims : ∀ node ∈ d.victims.ids, d.history.contains node = true
  configured : ∀ nodes, d.configured = some nodes →
    ∀ node ∈ nodes.map (·.id), d.history.contains node = true

/-- Who fails was in the group, and whoever is in the group has a history; so do the configured
    nodes. -/
theorem Answerable.step {d : Domain} {group : Option (List NodeId)} (h : d.Answerable group)
    {i : DomainInput} (hregular : i.regular d.us group = true) (now : Seconds) :
    (d.step now i).1.domain.Answerable (d.groupAfter group i) where
  rostered := by
    refine h.rostered.step ?_ now
    cases i with
    | membership m =>
      rw [DomainInput.regular, Bool.and_eq_true] at hregular
      exact hregular.1
    | _ => rfl
  victims := by
    intro node hnode
    obtain ⟨v, hv, rfl⟩ := List.mem_map.1 hnode
    apply contains_step
    cases origin_step hv with
    | before mem => exact h.victims _ mem
    | @failed m a _ left node _ =>
      rw [DomainInput.regular, Bool.and_eq_true, Membership.removesFrom, List.all_eq_true]
        at hregular
      have hmember := hregular.2 a left
      cases group with
      | none => simp at hmember
      | some nodes =>
        rw [← node]
        exact h.rostered.group nodes rfl _ (by simpa using hmember)
    | presumed _ configured mem _ _ => exact h.configured _ configured _ mem
  configured nodes hnodes node hnode :=
    contains_step (h.configured nodes (configured_step hnodes) node hnode) now i

section

variable {d : Domain} {now : Seconds} {i : DomainInput}

end

end Domain

end ClusterFence
