import ClusterFence.Proofs.Episode.Counting

namespace ClusterFence

/-- By whom, how and when a node was last fenced. -/
def NodeHistory.fenced (n : NodeHistory) : NodeId × UInt32 × Seconds :=
  (n.fenceMaster, n.fenceHow, n.fenceTime)

def NodeEntry.fenced (e : NodeEntry) : NodeId × UInt32 × Seconds :=
  (e.fenceMaster, e.fenceHow, e.fenceTime)

/-- The node was reported as dealt with. -/
def Reported (said : List (MessageFlags × Message)) (node : NodeId) : Prop :=
  ∃ x ∈ said, ∃ seq entry, x.2 = .victimDone seq entry ∧ entry.node = node

theorem Reported.append {said : List (MessageFlags × Message)} {node : NodeId}
    (h : Reported said node) (more : List (MessageFlags × Message)) :
    Reported (said ++ more) node := by
  obtain ⟨x, hx, hreport⟩ := h
  exact ⟨x, List.mem_append_left _ hx, hreport⟩

/-- The message tells that the node was dealt with, by a report or by a COMPLETE. -/
def Posted.Settles (m : Posted) (node : NodeId) : Prop :=
  (∃ seq entry, m.message = .victimDone seq entry ∧ entry.node = node) ∨
    m.message.kind = .complete

theorem Posted.Settles.not_isStart {m : Posted} {node : NodeId} (h : m.Settles node) :
    m.isStart = false := by
  unfold isStart
  obtain ⟨seq, entry, hreport, -⟩ | hcomplete := h
  · rw [hreport]
    rfl
  · rw [hcomplete]
    rfl

namespace Outage

/-- What the survivor `p`, that was told, has made of the failed nodes. `pending` is what keeps a
    node from being forgotten: it is a victim that is still to be dealt with, until we report it or
    hear that it was dealt with. -/
structure Dealt (o : Outage) (p : NodeId) (d : Domain) (heard : List Posted)
    (said : List (MessageFlags × Message)) : Prop where
  nodup : d.victims.ids.Nodup
  failed : ∀ f ∈ d.victims.ids, f ∈ o.failed
  pending : ∀ f ∈ o.failed, d.victims.isOpen f = true ∨ Reported said f ∨
    ∃ m ∈ heard, m.sender ≠ p ∧ m.Settles f
  gone : ∀ m ∈ heard, ∀ seq entry, m.message = .victimDone seq entry →
    entry.node ∉ d.victims.ids
  complete : (∃ x ∈ said, x.2.kind = .complete) → ∀ f ∈ o.failed, Reported said f
  own : ∀ x ∈ said, ∀ seq entry, x.2 = .victimDone seq entry →
    entry.node ∈ o.failed ∧ entry.fenceMaster = p ∧ d.victims.isOpen entry.node = false ∧
      d.history.Holds entry.node (·.fenced = entry.fenced)
  noted : ∀ m ∈ heard, ∀ seq entry, m.message = .victimDone seq entry →
    d.history.Holds entry.node (·.fenced = entry.fenced)

variable {o : Outage} {p : NodeId} {order heard : List Posted} {d d' : Domain} {m : Posted}
  {said : List (MessageFlags × Message)} {asked : Nat}

/-- All failed nodes are victims when the survivor is told. -/
theorem Ready.dealt_queued (h : o.Ready p d) : o.Dealt p (o.queued p d) [] [] := by
  have hfailedNodes : (o.change p d).failedNodes = o.failed := by
    have hall : ∀ a ∈ o.membership.left, a.reason.isFailure = true := by
      intro a ha
      rw [o.nodeDown a ha]
      rfl
    have hfilter : (o.membership.left.filter (·.reason.isFailure)) = o.membership.left :=
      List.filter_eq_self.2 hall
    unfold change Change.failedNodes Change.ofMembership failed
    rw [List.filter_map, List.map_map]
    change (o.membership.left.filter (·.reason.isFailure)).map (·.node) = _
    rw [hfilter]
  have hjoined : (o.change p d).weJoined = false := by
    simp [change, Change.ofMembership, o.joined_eq_nil]
  have hnone : d.victims = {} := by
    apply Victims.ext
    exact h.victims
  obtain ⟨name, hvictims⟩ : ∃ name, (o.queued p d).victims =
      ({} : Victims).addFailed (o.change p d) name := by
    unfold queued Domain.addVictims
    dsimp only
    rw [hjoined, hnone]
    exact ⟨_, rfl⟩
  have hids : ∀ f, f ∈ (o.queued p d).victims.ids ↔ f ∈ o.failed := by
    intro f
    rw [hvictims, Victims.mem_ids_addFailed, hfailedNodes]
    simp
  refine ⟨?_, fun f hf => (hids f).1 hf, ?_, ?_, ?_, ?_, ?_⟩
  · have hempty : ({} : Victims).ids.Nodup := List.nodup_nil
    rw [hvictims]
    exact Victims.nodup_ids_addFailed hempty _ _
  · intro f hf
    refine .inl (Victims.isOpen_of_mem_ids ?_ ((hids f).2 hf))
    rw [hvictims]
    apply Victims.resolvedHere_addFailed
    intro victim hvictim
    cases hvictim
  · intro m hm
    cases hm
  · rintro ⟨x, hx, -⟩
    cases hx
  · intro x hx
    cases hx
  · intro m hm
    cases hm

namespace Dealt

/-- A record that respects how nodes were fenced. -/
theorem of_keep (h : o.Dealt p d heard said) (hvictims : d'.victims = d.victims)
    (hkeep : ∀ node fenced, d.history.Holds node (·.fenced = fenced) →
      d'.history.Holds node (·.fenced = fenced)) : o.Dealt p d' heard said where
  nodup := by
    rw [hvictims]
    exact h.nodup
  failed := by
    rw [hvictims]
    exact h.failed
  pending := by
    rw [hvictims]
    exact h.pending
  gone := by
    rw [hvictims]
    exact h.gone
  complete := h.complete
  own x hx seq entry hreport := by
    obtain ⟨hfailed, hmaster, hopen, hfenced⟩ := h.own x hx seq entry hreport
    rw [hvictims]
    exact ⟨hfailed, hmaster, hopen, hkeep _ _ hfenced⟩
  noted m hm seq entry hreport := hkeep _ _ (h.noted m hm seq entry hreport)

theorem of_eq (h : o.Dealt p d heard said) (hvictims : d'.victims = d.victims)
    (hhistory : d'.history = d.history) : o.Dealt p d' heard said := by
  apply h.of_keep hvictims
  intro node fenced hfenced
  rw [hhistory]
  exact hfenced

/-- A START says nothing about victims. -/
theorem append_starts (h : o.Dealt p d heard said) {more : List (MessageFlags × Message)}
    (hmore : ∀ x ∈ more, x.2.kind = .start) : o.Dealt p d heard (said ++ more) where
  nodup := h.nodup
  failed := h.failed
  pending f hf := by
    obtain hopen | hreported | hother := h.pending f hf
    · exact .inl hopen
    · exact .inr (.inl (hreported.append more))
    · exact .inr (.inr hother)
  gone := h.gone
  complete := by
    rintro ⟨x, hx, hcomplete⟩ f hf
    obtain hx | hx := List.mem_append.1 hx
    · exact (h.complete ⟨x, hx, hcomplete⟩ f hf).append more
    · rw [hmore x hx] at hcomplete
      cases hcomplete
  own x hx seq entry hreport := by
    obtain hx | hx := List.mem_append.1 hx
    · exact h.own x hx seq entry hreport
    · have hstart := hmore x hx
      rw [hreport] at hstart
      cases hstart
  noted := h.noted

/-- To hear more is to remember more, if it is no report. -/
theorem hear_other (h : o.Dealt p d heard said)
    (hm : ∀ seq entry, m.message ≠ .victimDone seq entry) : o.Dealt p d (heard ++ [m]) said where
  nodup := h.nodup
  failed := h.failed
  pending f hf := by
    obtain hopen | hreported | ⟨x, hx, hother⟩ := h.pending f hf
    · exact .inl hopen
    · exact .inr (.inl hreported)
    · exact .inr (.inr ⟨x, List.mem_append_left _ hx, hother⟩)
  gone x hx seq entry hreport := by
    obtain hx | hx := List.mem_append.1 hx
    · exact h.gone x hx seq entry hreport
    · rw [List.mem_singleton.1 hx] at hreport
      exact absurd hreport (hm seq entry)
  complete := h.complete
  own := h.own
  noted x hx seq entry hreport := by
    obtain hx | hx := List.mem_append.1 hx
    · exact h.noted x hx seq entry hreport
    · rw [List.mem_singleton.1 hx] at hreport
      exact absurd hreport (hm seq entry)

/-- A START may bring news of fencings, but it comes before all reports of this outage: a survivor
    that has reported a victim takes no START any more, and nobody has heard a report then. -/
theorem receiveStart (h : o.Dealt p d heard said) (hcourse : o.Course p order d said asked)
    (hheard : ∀ x ∈ heard, x.isStart = true) (s : ReceivedStart) (now : Seconds) :
    o.Dealt p (d.receiveStart s now).1 heard said := by
  by_cases hreports : ∃ x ∈ said, x.2.kind ≠ .start
  · obtain ⟨x, hx, hkind⟩ := hreports
    rw [hcourse.receiveStart_eq_self hx hkind]
    exact h
  · have hsaid : ∀ x ∈ said, ∀ seq entry, x.2 ≠ .victimDone seq entry := by
      intro x hx seq entry hreport
      apply hreports
      refine ⟨x, hx, ?_⟩
      rw [hreport]
      exact MessageKind.noConfusion
    have hnoted : ∀ x ∈ heard, ∀ seq entry, x.message ≠ .victimDone seq entry := by
      intro x hx seq entry hreport
      have hstart := hheard x hx
      unfold Posted.isStart at hstart
      rw [hreport] at hstart
      cases hstart
    obtain ⟨_, _, heq⟩ := d.receiveStart_eq s now
    rw [heq]
    refine ⟨h.nodup, h.failed, h.pending, h.gone, h.complete, ?_, ?_⟩
    · intro x hx seq entry hreport
      exact absurd hreport (hsaid x hx seq entry)
    · intro x hx seq entry hreport
      exact absurd hreport (hnoted x hx seq entry)

/-- By its own COMPLETE a master has reported all failed nodes. -/
theorem receiveComplete (h : o.Dealt p d heard said) {report : ChangeReport}
    (hm : m.message = .complete report) (hown : m.sender = p → (m.flags, m.message) ∈ said) :
    o.Dealt p (d.receiveComplete report) (heard ++ [m]) said := by
  have hheard : o.Dealt p d (heard ++ [m]) said := by
    apply h.hear_other
    intro seq entry hreport
    rw [hm] at hreport
    cases hreport
  unfold Domain.receiveComplete
  split
  · refine
      { nodup := List.nodup_nil
        failed := ?_
        pending := ?_
        gone := ?_
        complete := hheard.complete
        own := ?_
        noted := hheard.noted }
    · intro f hf
      cases hf
    · intro f hf
      by_cases hsender : m.sender = p
      · refine .inr (.inl (h.complete ⟨_, hown hsender, ?_⟩ f hf))
        rw [hm]
        rfl
      · refine .inr (.inr ⟨m, List.mem_append_right _ List.mem_cons_self, hsender, .inr ?_⟩)
        rw [hm]
        rfl
    · intro x hx seq entry hreport hmem
      cases hmem
    · intro x hx seq entry hreport
      obtain ⟨hfailed, hmaster, -, hfenced⟩ := hheard.own x hx seq entry hreport
      exact ⟨hfailed, hmaster, rfl, hfenced⟩
  · exact hheard

/-- To hear of a victim that it is dealt with takes it out, whoever says so. What is recorded about
    it has to agree with all reports that were heard. -/
theorem erase (h : o.Dealt p d heard said) {seq : UInt32} {entry : NodeEntry}
    (hm : m.message = .victimDone seq entry)
    (hown : m.sender = p → (m.flags, m.message) ∈ said)
    (hvictims : d'.victims = d.victims.erase entry.node)
    (hsaid : ∀ x ∈ said, ∀ seq' e, x.2 = .victimDone seq' e →
      d'.history.Holds e.node (·.fenced = e.fenced))
    (hheard : ∀ x ∈ heard ++ [m], ∀ seq' e, x.message = .victimDone seq' e →
      d'.history.Holds e.node (·.fenced = e.fenced)) : o.Dealt p d' (heard ++ [m]) said where
  nodup := by
    rw [hvictims, Victims.ids_erase]
    exact h.nodup.erase _
  failed f hf := by
    rw [hvictims, Victims.ids_erase] at hf
    exact h.failed f (List.mem_of_mem_erase hf)
  pending f hf := by
    by_cases hnode : f = entry.node
    · by_cases hsender : m.sender = p
      · exact .inr (.inl ⟨_, hown hsender, seq, entry, hm, hnode.symm⟩)
      · have hsettles : m.Settles f := .inl ⟨seq, entry, hm, hnode.symm⟩
        exact .inr (.inr ⟨m, List.mem_append_right _ List.mem_cons_self, hsender, hsettles⟩)
    · rw [hvictims, Victims.isOpen_erase_of_ne hnode]
      obtain hopen | hreported | ⟨x, hx, hother⟩ := h.pending f hf
      · exact .inl hopen
      · exact .inr (.inl hreported)
      · exact .inr (.inr ⟨x, List.mem_append_left _ hx, hother⟩)
  gone x hx seq' e hreport := by
    rw [hvictims, Victims.ids_erase, h.nodup.mem_erase_iff]
    obtain hx | hx := List.mem_append.1 hx
    · exact fun hmem => h.gone x hx seq' e hreport hmem.2
    · rw [List.mem_singleton.1 hx, hm, Message.victimDone.injEq] at hreport
      rw [hreport.2]
      exact fun hmem => hmem.1 rfl
  complete := h.complete
  own x hx seq' e hreport := by
    obtain ⟨hfailed, hmaster, hopen, -⟩ := h.own x hx seq' e hreport
    refine ⟨hfailed, hmaster, ?_, hsaid x hx seq' e hreport⟩
    rw [hvictims]
    by_cases hnode : e.node = entry.node
    · rw [hnode]
      exact Victims.not_isOpen_erase h.nodup
    · rw [Victims.isOpen_erase_of_ne hnode, hopen]
  noted := hheard

/-- Our own report coming back changes nothing about how the node was fenced. -/
theorem receiveOwn (h : o.Dealt p d heard said) (hus : d.us = p) (hsender : m.sender = p)
    {seq : UInt32} {entry : NodeEntry} (hm : m.message = .victimDone seq entry)
    (hmem : (m.flags, m.message) ∈ said) (now : Seconds) :
    o.Dealt p (d.receiveVictimDone m.sender entry now).1 (heard ++ [m]) said := by
  have hkeep : ∀ node fenced, d.history.Holds node (·.fenced = fenced) →
      (d.history.recordFencedLocal entry.node now).Holds node (·.fenced = fenced) := by
    intro node fenced hfenced
    exact hfenced.keep fun _ n hn => hn
  have heq : (d.receiveVictimDone m.sender entry now).1 =
      { d with
        history := d.history.recordFencedLocal entry.node now
        victims := d.victims.erase entry.node } := by
    simp [Domain.receiveVictimDone, hsender, hus]
  rw [heq]
  apply h.erase hm (fun _ => hmem) rfl
  · intro x hx seq' e hreport
    exact hkeep _ _ (h.own x hx seq' e hreport).2.2.2
  · intro x hx seq' e hreport
    obtain hx | hx := List.mem_append.1 hx
    · exact hkeep _ _ (h.noted x hx seq' e hreport)
    · rw [List.mem_singleton.1 hx] at hreport
      exact hkeep _ _ (h.own _ hmem seq' e hreport).2.2.2

/-- The report of another master is recorded as it is. Reports that were heard before about the
    same node have to say the same. -/
theorem receiveOther (h : o.Dealt p d heard said) (hus : d.us = p) (hsender : m.sender ≠ p)
    {seq : UInt32} {entry : NodeEntry} (hm : m.message = .victimDone seq entry)
    (hknown : d.history.Holds entry.node (·.node = entry.node))
    (hsaid : ∀ x ∈ said, x.2.kind = .start)
    (hagree : ∀ x ∈ heard, ∀ seq' e, x.message = .victimDone seq' e → e.node = entry.node →
      e.fenced = entry.fenced) (now : Seconds) :
    o.Dealt p (d.receiveVictimDone m.sender entry now).1 (heard ++ [m]) said := by
  have heq : (d.receiveVictimDone m.sender entry now).1 =
      { d with
        history := (d.history.recordFencedLocal entry.node now).recordFenced entry.node
          entry.fenceMaster entry.fenceHow entry.fenceTime
        victims := d.victims.erase entry.node } := by
    simp [Domain.receiveVictimDone, hus, hsender]
  have hnew : ((d.history.recordFencedLocal entry.node now).recordFenced entry.node
      entry.fenceMaster entry.fenceHow entry.fenceTime).Holds entry.node
        (·.fenced = entry.fenced) := by
    have hlocal : (d.history.recordFencedLocal entry.node now).Holds entry.node
        (·.node = entry.node) := hknown.keep fun _ n hn => hn
    exact hlocal.update (fun _ n _ => rfl) fun hne => absurd rfl hne
  rw [heq]
  apply h.erase hm (fun hp => absurd hp hsender) rfl
  · intro x hx seq' e hreport
    have hstart := hsaid x hx
    rw [hreport] at hstart
    cases hstart
  · intro x hx seq' e hreport
    obtain hx | hx := List.mem_append.1 hx
    · by_cases hnode : e.node = entry.node
      · rw [hnode, hagree x hx seq' e hreport hnode]
        exact hnew
      · have hlocal : (d.history.recordFencedLocal entry.node now).Holds e.node
            (·.fenced = e.fenced) := (h.noted x hx seq' e hreport).keep fun _ n hn => hn
        exact hlocal.keep fun heq => absurd heq.symm hnode
    · rw [List.mem_singleton.1 hx, hm, Message.victimDone.injEq] at hreport
      rw [← hreport.2]
      exact hnew

end Dealt

end Outage

end ClusterFence
