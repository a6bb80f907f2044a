import ClusterFence.Proofs.Echo.Steady
import Mathlib.Data.List.Perm.Subperm

namespace ClusterFence

/-- A list without repetitions is no longer than there are numbers for nodes. -/
theorem length_le_of_nodup {nodes : List NodeId} (hnodup : nodes.Nodup) :
    nodes.length ≤ UInt32.size := by
  have hnumbers : (nodes.map UInt32.toNat).Nodup := hnodup.map fun _ _ => UInt32.toNat_inj.1
  have hrange : nodes.map UInt32.toNat ⊆ List.range UInt32.size := by
    intro n hn
    obtain ⟨node, -, rfl⟩ := List.mem_map.1 hn
    exact List.mem_range.2 node.toNat_lt
  have hle := (hnumbers.subperm hrange).length_le
  rwa [List.length_map, List.length_range] at hle

/-- Changes that count as many members have the same ones if those of the one are members of the
    other. The count passes over zero, but only an empty list could be taken for a full one. -/
theorem Change.nodes_perm {c other : Change} (hnodup : (c.members.map (·.node)).Nodup)
    (hnodup' : (other.members.map (·.node)).Nodup)
    (hsize : UInt32.ofNat c.members.length = UInt32.ofNat other.members.length)
    (hsome : c.members ≠ []) (hsub : c.members.map (·.node) ⊆ other.members.map (·.node)) :
    (c.members.map (·.node)).Perm (other.members.map (·.node)) := by
  have hle := length_le_of_nodup hnodup
  have hle' := length_le_of_nodup hnodup'
  have hpositive := List.length_pos_iff.2 hsome
  have hsubperm := hnodup.subperm hsub
  have hfewer := hsubperm.length_le
  have hmod : c.members.length % UInt32.size = other.members.length % UInt32.size := by
    simpa using congrArg UInt32.toNat hsize
  rw [List.length_map] at hle hle'
  rw [List.length_map, List.length_map] at hfewer
  apply hsubperm.perm_of_length_le
  rw [List.length_map, List.length_map]
  simp only [UInt32.size] at hmod hle hle'
  omega

namespace Change.Sound

variable {us : NodeId} {c other : Change}

/-- Changes of the same size have the same members if those of the one are members of the other. -/
theorem membersWithin_symm (h : c.Sound us) (hother : other.Sound us)
    (hcounts : other.counts = c.counts) (hwithin : c.membersWithin other = true) :
    other.membersWithin c = true := by
  rw [membersWithin_iff_subset] at hwithin ⊢
  have hsize : UInt32.ofNat c.members.length = UInt32.ofNat other.members.length := by
    rw [← h.size, ← hother.size, hcounts]
  have hsome : c.members ≠ [] := by
    obtain ⟨m, hm, -⟩ := List.any_eq_true.1 h.member
    exact List.ne_nil_of_mem hm
  have hperm := nodes_perm h.nodup hother.nodup hsize hsome hwithin
  exact hperm.symm.subset

/-- We are elected, since nobody else can have started. -/
theorem electMaster_eq (h : c.Sound us) (hstarted : c.allStarted = true) : c.electMaster = us := by
  have hmember : c.isMember c.electMaster = true := by
    refine (c.elected_electMaster hstarted).isMember ?_ ⟨us, h.member⟩
    rintro node ⟨flags, ⟨m, hm, hnode, -⟩, -⟩
    exact List.any_eq_true.2 ⟨m, hm, beq_iff_eq.2 hnode⟩
  obtain ⟨m, hm, hnode⟩ := List.any_eq_true.1 hmember
  rw [← eq_of_beq hnode]
  exact h.alone m hm (List.all_eq_true.1 hstarted m hm)

end Change.Sound

theorem ChangeQueue.updateCurrent_eq {q : ChangeQueue} {c : Change} (h : q.current? = some c)
    (f : Change → Change) : q.updateCurrent f = { q with pending := f c :: q.pending.tail } := by
  unfold updateCurrent
  rw [pending_of_current? h]
  rfl

/-- The same changes are pending, and nothing else was recorded. -/
theorem Domain.Continues.of_pending {d d' : Domain} {pending : List Change}
    (hconfig : d'.config = d.config) (hleaving : d'.leaving = d.leaving)
    (hhistory : d'.history = d.history) (hcluster : d'.cluster = d.cluster)
    (hchanges : d'.changes = { d.changes with pending })
    (hpending : List.Forall₂ (Change.Continues d.us) d.changes.pending pending) :
    d.Continues d' where
  config := hconfig
  leaving := hleaving
  changes := ⟨pending, hchanges, hpending⟩
  keyed h := by rwa [hhistory]
  cluster _ h := by rwa [hcluster]
  known _ h := by rwa [hhistory]
  ours h := by rwa [hhistory]

/-- Only the current change got further. -/
theorem Domain.Continues.of_updateCurrent {d d' : Domain} {c : Change} {f : Change → Change}
    (hcurrent : d.changes.current? = some c) (hf : c.Continues d.us (f c))
    (hconfig : d'.config = d.config) (hleaving : d'.leaving = d.leaving)
    (hhistory : d'.history = d.history) (hcluster : d'.cluster = d.cluster)
    (hchanges : d'.changes = d.changes.updateCurrent f) : d.Continues d' := by
  rw [ChangeQueue.updateCurrent_eq hcurrent] at hchanges
  refine .of_pending hconfig hleaving hhistory hcluster hchanges ?_
  nth_rewrite 1 [ChangeQueue.pending_of_current? hcurrent]
  exact .cons hf (List.forall₂_same.2 fun c _ => .refl d.us c)

namespace Loopback.Steady

variable {l : Loopback} {c : Change}

/-- What comes of getting on: nothing, or our START for the current change goes out, or we begin to
    fence. -/
theorem advance_cases (h : l.Steady) :
    (l.domain.advance.domain = l.domain ∧ Action.sent l.domain.advance.actions = []) ∨
    (∃ c, l.domain.changes.current? = some c ∧ c.phase = .awaitingConditions ∧
      l.domain.advance = l.domain.sendStart c) ∨
    ∃ c, l.domain.changes.current? = some c ∧
      l.domain.advance.domain =
        { l.domain with
          master := l.domain.us
          changes := l.domain.changes.updateCurrent ({ · with phase := .awaitingFencing })
          fencing := true } ∧
      Action.sent l.domain.advance.actions = [] := by
  obtain heq | ⟨c, -, -, -, heq⟩ | ⟨c, -, hcurrent, hphase, -, heq⟩ |
    ⟨c, -, hcurrent, -, hstarted, heq⟩ := l.domain.advance_cases
  · exact .inl (by simp [heq, Action.sent])
  · exact .inl (by simp [heq, Action.sent])
  · exact .inr (.inl ⟨c, hcurrent, hphase, heq⟩)
  · have helect := (h.sound c (ChangeQueue.current?_mem hcurrent)).electMaster_eq hstarted
    refine .inr (.inr ⟨c, hcurrent, ?_, ?_⟩) <;> simp [heq, Domain.settle, helect, Action.sent]

/-- Our START describes the change that it is for. -/
theorem describes_report (h : l.Steady) (hc : c ∈ l.domain.changes.pending) :
    (l.domain.report c).Describes l.domain.us c := by
  have hholds (node : NodeId) (hnode : c.isMember node = true) :
      l.domain.history.Holds node (·.node = node) := by
    obtain ⟨m, hm, heq⟩ := List.any_eq_true.1 hnode
    apply h.keyed.holds_of_contains
    rw [← eq_of_beq heq]
    exact h.known c hc m hm
  have hmember := (h.sound c hc).member
  refine ⟨rfl, rfl, h.never, ?_, fun node => ?_⟩
  · rw [← hmember]
    exact (hholds _ hmember).find?_entriesFor c
  · constructor
    · rintro ⟨e, he, rfl, hflagged⟩
      rwa [← History.isMember_of_mem_entriesFor he]
    · intro hnode
      obtain ⟨e, he, heq⟩ := (hholds node hnode).exists_mem_entriesFor c
      refine ⟨e, he, heq, ?_⟩
      rw [History.isMember_of_mem_entriesFor he, heq, hnode]

/-- A START goes out unflagged only if our STARTs for all older changes that look like its own are
    out. -/
theorem sentStart_of_unflagged (h : l.Steady) (hcurrent : l.domain.changes.current? = some c)
    (hunflagged : (l.domain.reportFlags c l.domain.duplicateFlag).contains .duplicate = false)
    {old : Change} (hold : old ∈ l.domain.changes.pending) (hlt : old.seq < c.seq)
    (hlooks : c.LooksLike old) : old.sentStart = true := by
  have hnone : l.domain.changes.duplicateOfOlder? = none := by
    cases hduplicate : l.domain.changes.duplicateOfOlder? with
    | none => rfl
    | some seq =>
      simp only [Domain.reportFlags, Domain.duplicateFlag, Domain.completeFlag, hduplicate,
        Option.isSome_some, if_true] at hunflagged
      cases hcomplete : l.domain.isComplete <;> cases hjoined : c.weJoined <;>
        simp [hcomplete, hjoined] at hunflagged <;> cases hunflagged
  simp only [ChangeQueue.duplicateOfOlder?, hcurrent, Option.bind_some, List.getLast?_eq_none_iff,
    List.map_eq_nil_iff, List.filter_eq_nil_iff] at hnone
  have hsymm := (h.sound c (ChangeQueue.current?_mem hcurrent)).membersWithin_symm (h.sound old hold)
    hlooks.1 hlooks.2
  simpa [hlt, hlooks.1, hsymm] using hnone old hold

/-- Our START that goes out is that of the current change. -/
theorem said_sendStart (h : l.Steady) (hcurrent : l.domain.changes.current? = some c) :
    (l.domain.sendStart c).domain.Said
      (l.domain.reportFlags c l.domain.duplicateFlag, .start (l.domain.report c)) := by
  have hmem := ChangeQueue.current?_mem hcurrent
  have hf : c.Continues l.domain.us { c with sentStart := true, phase := .awaitingStarts } :=
    .of_phase (by simp) fun _ => rfl
  have hpending : (l.domain.sendStart c).domain.changes.pending =
      { c with sentStart := true, phase := .awaitingStarts } :: l.domain.changes.pending.tail :=
    ChangeQueue.pending_updateCurrent hcurrent _
  refine ⟨l.domain.report c, rfl, _, hpending ▸ List.mem_cons_self,
    (h.describes_report hmem).continues hf, rfl, ?_⟩
  intro hunflagged old hold hlt hlooks
  rw [hpending] at hold
  obtain rfl | hold := List.mem_cons.1 hold
  · exact absurd hlt (UInt32.lt_irrefl _)
  · exact h.sentStart_of_unflagged hcurrent hunflagged (List.mem_of_mem_tail hold) hlt hlooks

/-- Getting on keeps what holds all along. -/
theorem getsOn (h : l.Steady) :
    Steady
      { domain := l.domain.advance.domain
        queued := l.queued ++ Action.sent l.domain.advance.actions } := by
  obtain ⟨heq, hsent⟩ | ⟨c, hcurrent, hphase, heq⟩ | ⟨c, hcurrent, heq, hsent⟩ := h.advance_cases
  · rw [heq, hsent, List.append_nil]
    exact h
  · have hf : c.Continues l.domain.us { c with sentStart := true, phase := .awaitingStarts } :=
      .of_phase (by simp) fun _ => rfl
    have hcontinues : l.domain.Continues (l.domain.sendStart c).domain :=
      .of_updateCurrent hcurrent hf rfl rfl rfl rfl rfl
    rw [heq]
    refine h.continues hcontinues fun said hsaid => ?_
    obtain hsaid | hsaid := List.mem_append.1 hsaid
    · exact .inl hsaid
    · rw [List.mem_singleton.1 hsaid]
      exact .inr (h.said_sendStart hcurrent)
  · have hf : c.Continues l.domain.us { c with phase := .awaitingFencing } :=
      .of_phase (by simp) id
    have hcontinues : l.domain.Continues l.domain.advance.domain := by
      rw [heq]
      exact .of_updateCurrent hcurrent hf rfl rfl rfl rfl rfl
    rw [hsent, List.append_nil]
    exact h.continues hcontinues fun _ hsaid => .inl hsaid

/-- What holds all along is about the changes, the histories and the cluster. -/
theorem of_eq (h : l.Steady) {d' : Domain} (hconfig : d'.config = l.domain.config)
    (hleaving : d'.leaving = l.domain.leaving) (hhistory : d'.history = l.domain.history)
    (hcluster : d'.cluster = l.domain.cluster) (hchanges : d'.changes = l.domain.changes) :
    Steady { domain := d', queued := l.queued } := by
  have hsame := List.forall₂_same.2 fun c (_ : c ∈ l.domain.changes.pending) =>
    Change.Continues.refl l.domain.us c
  exact h.continues (.of_pending hconfig hleaving hhistory hcluster hchanges hsame)
    fun _ hsaid => .inl hsaid

theorem act_ring (h : l.Steady) (now : Seconds) (node : NodeId) (seq : UInt64) :
    (l.act now (.ring node seq)).Steady := by
  have hring : Steady
      { domain := { l.domain with ringNode := node, ringSeq := seq }, queued := l.queued } :=
    h.of_eq rfl rfl rfl rfl rfl
  exact hring.getsOn

/-- A snapshot that keeps us in the cluster changes nothing that matters. -/
theorem continues_cluster (h : l.Steady) {s : ClusterSnapshot} {now : Seconds}
    (hadmits : l.admits now (.cluster s) = true) :
    l.domain.Continues
      { l.domain with
        cluster := l.domain.cluster.update s now
        history := l.domain.cluster.updateHistory s l.domain.history now } := by
  have hkeeps (hpending : l.domain.changes.pending ≠ []) :
      l.domain.cluster.keeps s [l.domain.us] = true := by
    obtain ⟨c, older, hcons⟩ := List.exists_cons_of_ne_nil hpending
    simpa [admits, ChangeQueue.latest?, ChangeQueue.current?, hcons] using hadmits
  have hnotes : l.domain.history.Notes l.domain.changes l.domain.changes.changeSeq
      (l.domain.cluster.updateHistory s l.domain.history now) :=
    History.notes_updateHistory _ s now
  refine ⟨rfl, rfl, ⟨_, rfl, List.forall₂_same.2 fun c _ => .refl _ c⟩, ?_, ?_, ?_, ?_⟩
  · exact hnotes.keyed
  · intro hpending _
    exact ClusterView.isMember_update (hkeeps hpending) (List.mem_singleton.2 rfl) now
  · exact hnotes.contains
  · intro hours
    refine History.lookup_updateHistory
      (P := fun n => n.Unremoved l.domain.changes.pending) hours fun t ht hus n hn => ?_
    have hnil : l.domain.changes.pending = [] := by
      by_contra hpending
      exact ClusterView.ne_of_mem_transitions (hkeeps hpending) (List.mem_singleton.2 rfl)
        (h.cluster hpending) ht hus
    rw [hnil]
    exact ⟨⟨hn.failSeq, hn.leftSeq, by simp⟩, ⟨hn.failSeq, hn.leftSeq, by simp⟩⟩

theorem act_cluster (h : l.Steady) {s : ClusterSnapshot} {now : Seconds}
    (hadmits : l.admits now (.cluster s) = true) : (l.act now (.cluster s)).Steady :=
  (h.continues (h.continues_cluster hadmits) fun _ hsaid => .inl hsaid).getsOn

/-- As a member of a change we have a history. -/
theorem contains_us (h : l.Steady) (hc : c ∈ l.domain.changes.pending) :
    l.domain.history.contains l.domain.us = true := by
  obtain ⟨m, hm, hnode⟩ := List.any_eq_true.1 (h.sound c hc).member
  rw [← eq_of_beq hnode]
  exact h.known c hc m hm

/-- A START of ours is taken down as the part of our own member. -/
theorem continues_receiveStart (h : l.Steady) (hpending : l.domain.changes.pending ≠ [])
    {s : ReceivedStart} (hsender : s.sender = l.domain.us) (now : Seconds) :
    l.domain.Continues (l.domain.receiveStart s now).1 := by
  obtain ⟨_, _, heq⟩ := l.domain.receiveStart_eq s now
  have hnotes := l.domain.notes_receiveStart s now l.domain.changes.changeSeq
  obtain ⟨c, older, hcons⟩ := List.exists_cons_of_ne_nil hpending
  have hus := h.contains_us (hcons ▸ List.mem_cons_self : c ∈ l.domain.changes.pending)
  refine ⟨by rw [heq], by rw [heq], ?_, ?_, ?_, ?_, ?_⟩
  · rw [Domain.changes_receiveStart, Domain.takeDown, hsender]
    cases l.domain.finds s with
    | none => exact ⟨_, rfl, List.forall₂_same.2 fun c _ => .refl _ c⟩
    | some seq =>
      exact ⟨_, rfl, forall₂_updateFirst (.refl _) (.updateMember _ · (s.takenBy_node _)) _⟩
  · exact hnotes.keyed
  · exact fun _ hmember => by rwa [heq]
  · exact hnotes.contains
  · intro hours
    have hholds : l.domain.history.Holds l.domain.us
        (·.Unremoved l.domain.changes.pending) := by
      obtain ⟨n, hn, -⟩ := History.contains_iff.1 hus
      rw [History.lookup_of_get? hn] at hours
      exact ⟨n, hn, hours⟩
    have hafter : (l.domain.receiveStart s now).1.history.Holds l.domain.us
        (·.Unremoved l.domain.changes.pending) := by
      refine Domain.holds_receiveStart hholds (fun _ n hn => hn) ?_ ?_ ?_
      · exact fun _ seq _ n hn => ⟨hn.failSeq, hn.leftSeq, hn.clusterAddTime⟩
      · exact fun n hn => ⟨hn.failSeq, hn.leftSeq, hn.clusterAddTime⟩
      · intro n e hn
        unfold NodeHistory.adoptExternal NodeHistory.adoptFencing
        split <;> split <;> exact ⟨hn.failSeq, hn.leftSeq, hn.clusterAddTime⟩
    obtain ⟨n, hn, hspec⟩ := hafter
    rwa [History.lookup_of_get? hn]

end Loopback.Steady

/-- Our START as it comes back. -/
def Domain.ownStart (d : Domain) (flags : MessageFlags) (report : ChangeReport) : ReceivedStart :=
  { sender := d.us, flags, report }

/-- A START that comes back is taken down, and then the domain gets on. -/
theorem Loopback.act_echo_eq {l : Loopback} {flags : MessageFlags} {report : ChangeReport}
    {later : List (MessageFlags × Message)} (hhead : l.queued = (flags, .start report) :: later)
    (now : Seconds) :
    l.act now .echo =
      { domain := (l.domain.receiveStart (l.domain.ownStart flags report) now).1.advance.domain
        queued := later ++ Action.sent
          (l.domain.receiveStart (l.domain.ownStart flags report) now).1.advance.actions } := by
  simp only [act, deliverOldest, hhead]
  rfl

namespace Loopback.Steady

variable {l : Loopback}

/-- What a START that comes back is, before the domain gets on. -/
theorem received (h : l.Steady) {flags : MessageFlags} {report : ChangeReport}
    {later : List (MessageFlags × Message)} (hhead : l.queued = (flags, .start report) :: later)
    (now : Seconds) :
    Steady
      { domain := (l.domain.receiveStart (l.domain.ownStart flags report) now).1
        queued := later } := by
  have hpending : l.domain.changes.pending ≠ [] := by
    obtain ⟨_, -, c, hc, -⟩ := h.said (flags, .start report) (hhead ▸ List.mem_cons_self)
    exact List.ne_nil_of_mem hc
  refine h.continues (h.continues_receiveStart hpending rfl now) fun said hsaid => .inl ?_
  rw [hhead]
  exact List.mem_cons_of_mem _ hsaid

theorem act_echo (h : l.Steady) (now : Seconds) : (l.act now .echo).Steady := by
  match hhead : l.queued with
  | [] => simpa [act, deliverOldest, hhead] using h
  | (flags, message) :: later =>
    obtain ⟨report, rfl, -⟩ := h.said (flags, message) (hhead ▸ List.mem_cons_self)
    rw [act_echo_eq hhead]
    exact (h.received hhead now).getsOn

end Loopback.Steady

end ClusterFence
