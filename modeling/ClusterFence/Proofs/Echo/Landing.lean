import ClusterFence.Proofs.Echo.Inputs
import ClusterFence.Proofs.Echo.Rivals

namespace ClusterFence

namespace Domain

variable {d : Domain} {seq : UInt32}

theorem mem_startedIn : seq ∈ d.startedIn ↔
    ∃ c ∈ d.changes.pending, c.seq = seq ∧ (c.member? d.us).any (·.started) = true := by
  simp only [startedIn, List.mem_map, List.mem_filter]
  constructor
  · rintro ⟨c, ⟨hc, hstarted⟩, heq⟩
    exact ⟨c, hc, heq, hstarted⟩
  · rintro ⟨c, hc, heq, hstarted⟩
    exact ⟨c, ⟨hc, hstarted⟩, heq⟩

end Domain

namespace Loopback.Steady

variable {l : Loopback} {c c' : Change}

/-- Changes are told apart by their numbers. -/
theorem eq_of_seq_eq (h : l.Steady) (hc : c ∈ l.domain.changes.pending)
    (hc' : c' ∈ l.domain.changes.pending) (heq : c'.seq = c.seq) : c' = c := by
  have hnodup : (l.domain.changes.pending.map (·.seq)).Nodup := by
    refine h.decreasing.imp fun hgt heq => ?_
    rw [heq] at hgt
    exact UInt32.lt_irrefl _ hgt
  exact List.inj_on_of_nodup_map hnodup hc' hc heq

/-- Whether our member has started is nothing that getting on changes. -/
theorem startedIn_advance (h : l.Steady) :
    l.domain.advance.domain.startedIn = l.domain.startedIn := by
  have hcurrent {c : Change} {f : Change → Change} (hc : l.domain.changes.current? = some c)
      (hseq : (f c).seq = c.seq) (hmembers : (f c).members = c.members) :
      (((l.domain.changes.updateCurrent f).pending.filter fun c =>
        (c.member? l.domain.us).any (·.started)).map (·.seq)) = l.domain.startedIn := by
    rw [ChangeQueue.pending_updateCurrent hc, Domain.startedIn]
    nth_rewrite 2 [ChangeQueue.pending_of_current? hc]
    simp only [List.filter_cons, Change.member?, hmembers]
    split <;> simp [hseq]
  obtain ⟨heq, -⟩ | ⟨c, hc, -, heq⟩ | ⟨c, hc, heq, -⟩ := h.advance_cases
  · rw [heq]
  · rw [heq]
    exact hcurrent hc rfl rfl
  · rw [heq]
    exact hcurrent hc rfl rfl

theorem get?_seq (h : l.Steady) (hc : c ∈ l.domain.changes.pending) :
    l.domain.changes.get? c.seq = some c := by
  unfold ChangeQueue.get?
  cases hfind : l.domain.changes.pending.find? (·.seq == c.seq) with
  | none => simpa using List.find?_eq_none.1 hfind c hc
  | some c' =>
    have hseq : c'.seq = c.seq := by simpa using List.find?_some hfind
    rw [h.eq_of_seq_eq hc (List.mem_of_find?_eq_some hfind) hseq]

/-- A START of ours that is taken down starts our member in the change that it is found to be for,
    and in no other. -/
theorem mem_startedIn_receiveStart (h : l.Steady) {s : ReceivedStart}
    (hsender : s.sender = l.domain.us) (hnever : s.report.summary.startedCount = 0) {now : Seconds}
    {seq : UInt32} : seq ∈ (l.domain.receiveStart s now).1.startedIn ↔
      l.domain.finds s = some seq ∨ seq ∈ l.domain.startedIn := by
  obtain ⟨_, _, heq⟩ := l.domain.receiveStart_eq s now
  have hus : (l.domain.receiveStart s now).1.us = l.domain.us := by rw [heq, Domain.us, Domain.us]
  have hallowed : l.domain.disallows s = false := by simp [Domain.disallows, hnever]
  rw [Domain.mem_startedIn, Domain.mem_startedIn, hus, Domain.changes_receiveStart, Domain.takeDown]
  cases hfinds : l.domain.finds s with
  | none => simp
  | some found =>
    obtain ⟨c, hc, rfl, hawaits⟩ := ReceivedStart.find_mem hfinds
    rw [hsender] at hawaits
    have hfind := h.get?_seq hc
    unfold ChangeQueue.get? at hfind
    have hmember : (c.updateMember l.domain.us (s.takenBy false)).member? l.domain.us =
        (c.member? l.domain.us).map (s.takenBy false) :=
      find?_updateFirst (fun m => by rw [s.takenBy_node]) c.members
    obtain ⟨m, hm, hunstarted⟩ := Option.any_eq_true _ _ |>.1 hawaits
    rw [hallowed, hsender, Option.some.injEq]
    constructor
    · rintro ⟨c', hc', rfl, hstarted⟩
      obtain hc' | ⟨first, hfirst, rfl⟩ := find?_of_mem_updateFirst hc'
      · exact .inr ⟨c', hc', rfl, hstarted⟩
      · rw [hfind, Option.some.injEq] at hfirst
        exact .inl (by rw [hfirst]; rfl)
    · rintro (rfl | ⟨c', hc', rfl, hstarted⟩)
      · refine ⟨_, mem_updateFirst_of_find? hfind, rfl, ?_⟩
        rw [hmember, hm]
        rfl
      · refine ⟨c', mem_updateFirst_of_not hc' ?_, rfl, hstarted⟩
        -- our member had not started in the change that is changed
        intro hfound
        rw [hfind, Option.some.injEq] at hfound
        rw [← hfound, hm, Option.any_some] at hstarted
        rw [hstarted] at hunstarted
        cases hunstarted

/-- A START is not found to be for a change in which we have started. -/
theorem not_mem_startedIn_of_finds (h : l.Steady) {s : ReceivedStart}
    (hsender : s.sender = l.domain.us) {seq : UInt32} (hfinds : l.domain.finds s = some seq) :
    seq ∉ l.domain.startedIn := by
  obtain ⟨c, hc, rfl, hawaits⟩ := ReceivedStart.find_mem hfinds
  rw [hsender] at hawaits
  intro hstarted
  obtain ⟨c', hc', heq, hstarted⟩ := Domain.mem_startedIn.1 hstarted
  rw [h.eq_of_seq_eq hc hc' heq] at hstarted
  obtain ⟨m, hm, hunstarted⟩ := Option.any_eq_true _ _ |>.1 hawaits
  rw [hm, Option.any_some] at hstarted
  rw [hstarted] at hunstarted
  cases hunstarted

variable {flags : MessageFlags} {report : ChangeReport} {later : List (MessageFlags × Message)}

/-- The START that comes back next describes the change that it was sent for. -/
theorem describes_of_queued (h : l.Steady) (hhead : l.queued = (flags, .start report) :: later) :
    ∃ c ∈ l.domain.changes.pending, report.Describes l.domain.us c ∧ c.sentStart = true ∧
      (flags.contains .duplicate = false → ∀ old ∈ l.domain.changes.pending, old.seq < c.seq →
        c.LooksLike old → old.sentStart = true) := by
  obtain ⟨_, heq, hsaid⟩ := h.said (flags, .start report) (hhead ▸ List.mem_cons_self)
  rwa [← Message.start.inj heq] at hsaid

/-- Our member has started wherever it had before, and where the START that comes back is found to
    be for. -/
theorem mem_startedIn_act_echo (h : l.Steady)
    (hhead : l.queued = (flags, .start report) :: later) {now : Seconds} {seq : UInt32} :
    seq ∈ (l.act now .echo).domain.startedIn ↔
      l.domain.finds (l.domain.ownStart flags report) = some seq ∨ seq ∈ l.domain.startedIn := by
  obtain ⟨c, -, hdescribes, -⟩ := h.describes_of_queued hhead
  have hadvance := (h.received hhead now).startedIn_advance
  rw [act_echo_eq hhead, hadvance]
  exact h.mem_startedIn_receiveStart rfl hdescribes.never

/-- A START lands on the change that it is found to be for. -/
theorem lands_iff_finds (h : l.Steady) (hhead : l.queued = (flags, .start report) :: later)
    {now : Seconds} {seq : UInt32} :
    l.Lands now seq ↔ l.domain.finds (l.domain.ownStart flags report) = some seq := by
  unfold Lands
  simp only [h.mem_startedIn_act_echo hhead]
  constructor
  · rintro ⟨hnew, hstarted⟩
    exact ((hstarted seq).2 (.inl rfl)).resolve_right hnew
  · intro hfinds
    refine ⟨h.not_mem_startedIn_of_finds rfl hfinds, fun other => ?_⟩
    rw [hfinds, Option.some.injEq, eq_comm]

/-- The changes that our START can be taken for are those that look like its own. -/
theorem candidates_ownStart (h : l.Steady) (hc : c ∈ l.domain.changes.pending)
    (hdescribes : report.Describes l.domain.us c) :
    (l.domain.ownStart flags report).candidates l.domain.us l.domain.changes l.domain.history =
      (l.domain.lookAlikes c).reverse := by
  obtain ⟨n, hn, -⟩ := History.contains_iff.1 (h.contains_us hc)
  have hours := h.ours
  rw [History.lookup_of_get? hn] at hours
  unfold ReceivedStart.candidates Domain.lookAlikes
  rw [← List.filter_reverse]
  apply List.filter_congr
  intro other hother
  have hother := List.mem_reverse.1 hother
  have hallowed : (l.domain.history.get? l.domain.us).any (ReceivedStart.allowedBy · other) =
      decide (l.domain.lastMatch ≤ other.seq) := by
    rw [Domain.lastMatch, History.lookup_of_get? hn, hn, Option.any_some, ReceivedStart.allowedBy,
      hours.failSeq, hours.leftSeq]
    simp [hours.clusterAddTime other hother]
  have hwithin : (report.entries.all fun e => !e.isMember || other.isMember e.node) =
      c.membersWithin other := by
    rw [Bool.eq_iff_iff, List.all_eq_true, Change.membersWithin, List.all_eq_true]
    constructor
    · intro hentries m hm
      obtain ⟨e, he, hnode, hmember⟩ :=
        (hdescribes.flagged m.node).2 (List.any_eq_true.2 ⟨m, hm, beq_self_eq_true _⟩)
      simpa [hmember, hnode] using hentries e he
    · intro hmembers e he
      cases hmember : e.isMember with
      | false => rfl
      | true =>
        obtain ⟨m, hm, hnode⟩ := List.any_eq_true.1 ((hdescribes.flagged _).1 ⟨e, he, rfl, hmember⟩)
        rw [← eq_of_beq hnode]
        exact hmembers m hm
  have hflags : (l.domain.ownStart flags report).flagsMember l.domain.us = true := hdescribes.us
  have hcounts : (report.summary.counts == other.counts) = (other.counts == c.counts) := by
    rw [hdescribes.counts, BEq.comm]
  unfold ReceivedStart.describes
  rw [hflags, show (l.domain.ownStart flags report).sender = l.domain.us from rfl, hallowed,
    show (l.domain.ownStart flags report).report = report from rfl, hwithin, hcounts,
    Bool.true_and]
  ac_rfl

/-- A START lands on its own change if it can be taken for it and, as the STARTs are sorted out, is
    taken for it: unflagged for the oldest of the changes that it can be taken for; flagged for the
    second oldest, or for the only one. -/
theorem lands_iff (h : l.Steady) (hhead : l.queued = (flags, .start report) :: later)
    (hc : c ∈ l.domain.changes.pending) (hdescribes : report.Describes l.domain.us c)
    {now : Seconds} : l.Lands now c.seq ↔ c ∈ l.domain.lookAlikes c ∧
      if flags.contains .duplicate then
        (l.domain.olderLookAlikes c).length = 1 ∨ l.domain.otherLookAlikes c = []
      else l.domain.olderLookAlikes c = [] := by
  have hsorted : (l.domain.lookAlikes c).reverse.Pairwise (·.seq < ·.seq) := by
    rw [List.pairwise_reverse]
    exact (List.pairwise_map.1 h.decreasing).filter _
  have hmem : c.seq ∈ (l.domain.lookAlikes c).reverse.map (·.seq) ↔ c ∈ l.domain.lookAlikes c := by
    rw [List.map_reverse, List.mem_reverse, List.mem_map]
    constructor
    · rintro ⟨c', hc', heq⟩
      have hsame := h.eq_of_seq_eq hc (List.mem_filter.1 hc').1 heq
      rwa [hsame] at hc'
    · intro hc
      exact ⟨c, hc, rfl⟩
  have hfind : l.domain.finds (l.domain.ownStart flags report) = _ :=
    ReceivedStart.find_fst h.decreasing
  rw [h.lands_iff_finds hhead, hfind, h.candidates_ownStart hc hdescribes,
    show (l.domain.ownStart flags report).flags = flags from rfl]
  split
  · rw [getElem?_one_seq_iff hsorted, hmem, List.filter_reverse, List.filter_reverse,
      List.length_reverse, List.reverse_eq_nil_iff, Domain.olderLookAlikes, Domain.otherLookAlikes]
  · rw [getElem?_zero_seq_iff hsorted, hmem, List.filter_reverse, List.reverse_eq_nil_iff,
      Domain.olderLookAlikes]

end Loopback.Steady

end ClusterFence
