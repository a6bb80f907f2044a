import ClusterFence.Proofs.Echo.Membership
import ClusterFence.Proofs.Echo.Landing

namespace ClusterFence

/-- The change that a message of ours is the START of. -/
def Message.startSeq? : Message → Option UInt32
  | .start report => some report.seq
  | _ => none

/-- The pending changes for which our START went out. -/
def Domain.sentFor (d : Domain) : List UInt32 := (d.changes.pending.filter (·.sentStart)).map (·.seq)

/-- The changes whose STARTs are on their way back to us. -/
def Loopback.due (l : Loopback) : List UInt32 := l.queued.filterMap (·.2.startSeq?)

/-- What holds as long as every START has landed on its own change. -/
structure Loopback.Landed (l : Loopback) : Prop where
  steady : l.Steady
  order : l.due.Pairwise (· < ·)
  accounted : ∀ seq ∈ l.domain.sentFor, seq ∈ l.domain.startedIn ∨ seq ∈ l.due
  started : ∀ seq ∈ l.domain.startedIn, seq ∈ l.domain.sentFor ∧ seq ∉ l.due
  matched : l.domain.lastMatch = 0 ∨ l.domain.lastMatch ∈ l.domain.startedIn
  below : ∀ seq ∈ l.due, l.domain.lastMatch ≤ seq

theorem Domain.mem_sentFor {d : Domain} {seq : UInt32} : seq ∈ d.sentFor ↔
    ∃ c ∈ d.changes.pending, c.seq = seq ∧ c.sentStart = true := by
  simp only [sentFor, List.mem_map, List.mem_filter]
  constructor
  · rintro ⟨c, ⟨hc, hsent⟩, heq⟩
    exact ⟨c, hc, heq, hsent⟩
  · rintro ⟨c, hc, heq, hsent⟩
    exact ⟨c, ⟨hc, hsent⟩, heq⟩

/-- For which changes our START went out is read off their marks. -/
theorem Domain.sentFor_of_marks {d d' : Domain}
    (h : d'.changes.pending.map Change.mark = d.changes.pending.map Change.mark) :
    d'.sentFor = d.sentFor := by
  have hmarks (d : Domain) : d.sentFor =
      ((d.changes.pending.map Change.mark).filter (·.2.2)).map (·.1) := by
    rw [List.filter_map, List.map_map]
    rfl
  rw [hmarks, hmarks, h]

namespace Loopback

variable {l : Loopback} {c : Change} {now : Seconds}

/-- The current change has the highest number. -/
theorem Steady.seq_le_current (h : l.Steady) (hcurrent : l.domain.changes.current? = some c)
    {c' : Change} (hc' : c' ∈ l.domain.changes.pending) : c'.seq ≤ c.seq := by
  have hdecreasing := List.pairwise_map.1 h.decreasing
  rw [ChangeQueue.pending_of_current? hcurrent] at hc' hdecreasing
  obtain rfl | hc' := List.mem_cons.1 hc'
  · exact UInt32.le_refl _
  · exact UInt32.le_of_lt ((List.pairwise_cons.1 hdecreasing).1 c' hc')

theorem Steady.mem_sentFor_of_due (h : l.Steady) {seq : UInt32} (hseq : seq ∈ l.due) :
    seq ∈ l.domain.sentFor := by
  obtain ⟨said, hsaid, hstart⟩ := List.mem_filterMap.1 hseq
  obtain ⟨report, hreport, c, hc, hdescribes, hsent, -⟩ := h.said said hsaid
  rw [hreport, Message.startSeq?, Option.some.injEq] at hstart
  exact Domain.mem_sentFor.2 ⟨c, hc, by rw [← hdescribes.seq, hstart], hsent⟩

/-- Getting on sends nothing, or our START for the current change, which was not out. -/
theorem Steady.sentFor_advance (h : l.Steady) :
    (Action.sent l.domain.advance.actions = [] ∧
      l.domain.advance.domain.sentFor = l.domain.sentFor) ∨
    ∃ c flags, l.domain.changes.current? = some c ∧ c.sentStart = false ∧
      Action.sent l.domain.advance.actions = [(flags, .start (l.domain.report c))] ∧
      l.domain.advance.domain.sentFor = c.seq :: l.domain.sentFor := by
  obtain ⟨heq, hsent⟩ | ⟨c, hc, hphase, heq⟩ | ⟨c, hc, heq, hsent⟩ := h.advance_cases
  · exact .inl ⟨hsent, by rw [heq]⟩
  · have hunsent := (h.sound c (ChangeQueue.current?_mem hc)).unsent hphase
    refine .inr ⟨c, _, hc, hunsent, by rw [heq]; rfl, ?_⟩
    rw [heq, Domain.sentFor, Domain.sendStart, ChangeQueue.pending_updateCurrent hc, Domain.sentFor]
    nth_rewrite 2 [ChangeQueue.pending_of_current? hc]
    rw [List.filter_cons_of_pos rfl, List.filter_cons_of_neg (by simp [hunsent])]
    rfl
  · refine .inl ⟨hsent, ?_⟩
    rw [heq, Domain.sentFor, ChangeQueue.pending_updateCurrent hc, Domain.sentFor]
    nth_rewrite 2 [ChangeQueue.pending_of_current? hc]
    simp only [List.filter_cons]
    split <;> rfl

/-- The change that our START is found to be for is the last one matched with one of ours. -/
theorem Steady.lastMatch_receiveStart (h : l.Steady) {c : Change}
    (hc : c ∈ l.domain.changes.pending) {flags : MessageFlags} {report : ChangeReport}
    {seq : UInt32} (hfinds : l.domain.finds (l.domain.ownStart flags report) = some seq)
    (now : Seconds) :
    (l.domain.receiveStart (l.domain.ownStart flags report) now).1.lastMatch = seq := by
  have hheld : (l.domain.receiveStart (l.domain.ownStart flags report) now).1.history.Holds
      l.domain.us (·.lastMatchSeq = seq) := by
    refine Domain.holds_receiveStart (History.contains_iff.1 (h.contains_us hc)) ?_ ?_ ?_ ?_
    · rintro (hother | hnone)
      · exact absurd rfl hother
      · rw [hnone] at hfinds
        cases hfinds
    · intro _ found hfound _ _
      rw [hfinds, Option.some.injEq] at hfound
      exact hfound.symm
    · exact fun n hn => hn
    · intro n e hn
      unfold NodeHistory.adoptExternal NodeHistory.adoptFencing
      split <;> split <;> exact hn
  obtain ⟨n, hn, hmatched⟩ := hheld
  obtain ⟨_, _, heq⟩ := l.domain.receiveStart_eq (l.domain.ownStart flags report) now
  have hus : (l.domain.receiveStart (l.domain.ownStart flags report) now).1.us = l.domain.us := by
    rw [heq, Domain.us, Domain.us]
  rw [Domain.lastMatch, hus, History.lookup_of_get? hn, hmatched]

namespace Landed

/-- What the inputs other than messages change of a domain before it gets on. -/
theorem of_eq (h : l.Landed) {d' : Domain} (hsteady : Steady { domain := d', queued := l.queued })
    (hsent : d'.sentFor = l.domain.sentFor) (hstarted : d'.startedIn = l.domain.startedIn)
    (hmatch : d'.lastMatch = l.domain.lastMatch) :
    Landed { domain := d', queued := l.queued } where
  steady := hsteady
  order := h.order
  accounted := by
    rw [hsent, hstarted]
    exact h.accounted
  started := by
    rw [hsent, hstarted]
    exact h.started
  matched := by
    rw [hmatch, hstarted]
    exact h.matched
  below := by
    rw [hmatch]
    exact h.below

theorem getsOn (h : l.Landed) :
    Landed
      { domain := l.domain.advance.domain
        queued := l.queued ++ Action.sent l.domain.advance.actions } := by
  have hstarted := h.steady.startedIn_advance
  have hmatch : l.domain.advance.domain.lastMatch = l.domain.lastMatch := by
    rw [Domain.lastMatch, Domain.advance_history, Domain.advance_us, Domain.lastMatch]
  obtain ⟨hnothing, hsent⟩ | ⟨c, flags, hcurrent, hunsent, hstart, hsent⟩ := h.steady.sentFor_advance
  · have hsteady := h.steady.getsOn
    rw [hnothing, List.append_nil] at hsteady ⊢
    exact h.of_eq hsteady hsent hstarted hmatch
  have hcurrentMem := ChangeQueue.current?_mem hcurrent
  have hnew : c.seq ∉ l.domain.sentFor := by
    intro hmem
    obtain ⟨c', hc', heq, hsent'⟩ := Domain.mem_sentFor.1 hmem
    rw [h.steady.eq_of_seq_eq hcurrentMem hc' heq, hunsent] at hsent'
    cases hsent'
  have hlt : ∀ seq ∈ l.due, seq < c.seq := by
    intro seq hseq
    have hmem := h.steady.mem_sentFor_of_due hseq
    obtain ⟨c', hc', rfl, -⟩ := Domain.mem_sentFor.1 hmem
    refine UInt32.lt_of_le_of_ne (h.steady.seq_le_current hcurrent hc') ?_
    intro heq
    exact hnew (heq ▸ hmem)
  have hdue : due
      { domain := l.domain.advance.domain
        queued := l.queued ++ Action.sent l.domain.advance.actions } = l.due ++ [c.seq] := by
    rw [hstart, due, List.filterMap_append]
    rfl
  refine ⟨h.steady.getsOn, ?_, ?_, ?_, ?_, ?_⟩
  · rw [hdue, List.pairwise_append]
    refine ⟨h.order, List.pairwise_singleton _ _, fun seq hseq other hother => ?_⟩
    rw [List.mem_singleton.1 hother]
    exact hlt seq hseq
  · rw [hdue, hsent, hstarted]
    intro seq hseq
    obtain rfl | hseq := List.mem_cons.1 hseq
    · exact .inr (List.mem_append_right _ (List.mem_singleton.2 rfl))
    · exact (h.accounted seq hseq).imp_right (List.mem_append_left _)
  · rw [hdue, hsent, hstarted]
    intro seq hseq
    obtain ⟨hout, hreturned⟩ := h.started seq hseq
    refine ⟨List.mem_cons_of_mem _ hout, fun hmem => ?_⟩
    obtain hmem | hmem := List.mem_append.1 hmem
    · exact hreturned hmem
    · exact hnew (List.mem_singleton.1 hmem ▸ hout)
  · rw [hmatch, hstarted]
    exact h.matched
  · rw [hdue, hmatch]
    intro seq hseq
    obtain hseq | hseq := List.mem_append.1 hseq
    · exact h.below seq hseq
    · rw [List.mem_singleton.1 hseq]
      obtain hzero | hmatched := h.matched
      · rw [hzero]
        exact UInt32.zero_le
      · obtain ⟨c', hc', heq, -⟩ := Domain.mem_startedIn.1 hmatched
        rw [← heq]
        exact h.steady.seq_le_current hcurrent hc'

theorem act_ring (h : l.Landed) (now : Seconds) (node : NodeId) (seq : UInt64) :
    (l.act now (.ring node seq)).Landed := by
  have hring : Steady
      { domain := { l.domain with ringNode := node, ringSeq := seq }, queued := l.queued } :=
    h.steady.of_eq rfl rfl rfl rfl rfl
  exact (h.of_eq hring rfl rfl rfl).getsOn

theorem act_cluster (h : l.Landed) {s : ClusterSnapshot}
    (hadmits : l.admits now (.cluster s) = true) : (l.act now (.cluster s)).Landed := by
  have hsteady := h.steady.continues (h.steady.continues_cluster hadmits) fun _ hsaid => .inl hsaid
  refine (h.of_eq hsteady rfl rfl ?_).getsOn
  exact History.lookup_updateHistory (P := fun n => n.lastMatchSeq = l.domain.lastMatch) rfl
    fun _ _ _ _ hn => ⟨hn, hn⟩

theorem act_membership (h : l.Landed) {m : Membership}
    (hadmits : l.admits now (.membership m) = true) : (l.act now (.membership m)).Landed := by
  have hfitting := fitting_of_admits hadmits
  rw [act_membership_eq h.steady.stays hfitting]
  refine (h.of_eq (h.steady.steady_told hfitting) ?_ ?_ ?_).getsOn
  · rw [Domain.sentFor, Domain.told_changes, List.filter_cons_of_neg (by simp [Change.ofMembership])]
    rfl
  · have hunstarted : ¬ ((Change.ofMembership (l.domain.changes.changeSeq + 1) l.domain.us m
        now).member? l.domain.us).any (·.started) = true := by
      intro hany
      obtain ⟨p, hp, hstarted⟩ := Option.any_eq_true _ _ |>.1 hany
      rw [Change.not_started_ofMembership (Change.mem_of_member? hp).1] at hstarted
      cases hstarted
    rw [Domain.startedIn, Domain.told_changes, Domain.told_us, List.filter_cons, if_neg hunstarted]
    rfl
  · rw [Domain.lastMatch, Domain.told_history, Domain.told_us, History.lookup_ensureJoined]
    exact History.lookup_recordRemovals (P := fun n => n.lastMatchSeq = l.domain.lastMatch) rfl
      fun _ _ _ _ hn => ⟨hn, hn⟩

/-- The START that comes back next lands on its own change. -/
theorem received (h : l.Landed) {flags : MessageFlags} {report : ChangeReport}
    {later : List (MessageFlags × Message)} (hhead : l.queued = (flags, .start report) :: later)
    (hlands : l.Lands now report.seq) :
    Landed
      { domain := (l.domain.receiveStart (l.domain.ownStart flags report) now).1
        queued := later } := by
  have hfinds := (h.steady.lands_iff_finds hhead).1 hlands
  obtain ⟨c, hc, hdescribes, -⟩ := h.steady.describes_of_queued hhead
  have hsent : (l.domain.receiveStart (l.domain.ownStart flags report) now).1.sentFor =
      l.domain.sentFor :=
    Domain.sentFor_of_marks (l.domain.touched_receiveStart _ now).marks
  have hstarted {seq : UInt32} :
      seq ∈ (l.domain.receiveStart (l.domain.ownStart flags report) now).1.startedIn ↔
        report.seq = seq ∨ seq ∈ l.domain.startedIn := by
    rw [h.steady.mem_startedIn_receiveStart rfl hdescribes.never, hfinds, Option.some.injEq]
  have hmatch := h.steady.lastMatch_receiveStart hc hfinds now
  have hdue : l.due = report.seq :: due
      { domain := (l.domain.receiveStart (l.domain.ownStart flags report) now).1
        queued := later } := by
    rw [due, hhead]
    rfl
  have horder := h.order
  have hreturned := h.started
  rw [hdue] at horder hreturned
  obtain ⟨hfirst, horder⟩ := List.pairwise_cons.1 horder
  refine ⟨h.steady.received hhead now, horder, ?_, ?_, ?_, ?_⟩
  · rw [hsent]
    intro seq hseq
    rw [hstarted]
    have haccounted := h.accounted seq hseq
    rw [hdue, List.mem_cons] at haccounted
    obtain hold | rfl | hlater := haccounted
    · exact .inl (.inr hold)
    · exact .inl (.inl rfl)
    · exact .inr hlater
  · rw [hsent]
    intro seq hseq
    obtain rfl | hold := hstarted.1 hseq
    · refine ⟨h.steady.mem_sentFor_of_due (hdue ▸ List.mem_cons_self), fun hagain => ?_⟩
      exact UInt32.lt_irrefl _ (hfirst _ hagain)
    · obtain ⟨hout, hnot⟩ := hreturned seq hold
      exact ⟨hout, fun hlater => hnot (List.mem_cons_of_mem _ hlater)⟩
  · rw [hmatch]
    exact .inr (hstarted.2 (.inl rfl))
  · rw [hmatch]
    intro seq hseq
    exact UInt32.le_of_lt (hfirst seq hseq)

theorem act_echo (h : l.Landed)
    (hlands : ∀ flags report later, l.queued = (flags, .start report) :: later →
      l.Lands now report.seq) : (l.act now .echo).Landed := by
  match hhead : l.queued with
  | [] => simpa [act, deliverOldest, hhead] using h
  | (flags, message) :: later =>
    obtain ⟨report, rfl, -⟩ := h.steady.said (flags, message) (hhead ▸ List.mem_cons_self)
    rw [act_echo_eq hhead]
    exact (h.received hhead (hlands flags report later hhead)).getsOn

/-- An input keeps what holds as long as every START lands on its own change, if it is no START that
    does not. -/
theorem act (h : l.Landed) {i : EchoInput} (hadmits : l.admits now i = true)
    (hlands : i = .echo → ∀ flags report later, l.queued = (flags, .start report) :: later →
      l.Lands now report.seq) : (l.act now i).Landed := by
  cases i with
  | membership m => exact h.act_membership hadmits
  | ring node seq => exact h.act_ring now node seq
  | cluster s => exact h.act_cluster hadmits
  | echo => exact h.act_echo (hlands rfl)

theorem run (h : l.Landed) {inputs : List (Seconds × EchoInput)}
    (hadmits : l.admitsAll inputs = true) (hfaithful : l.Faithful inputs) :
    (l.run inputs).Landed := by
  induction inputs generalizing l with
  | nil => exact h
  | cons timed rest ih =>
    rw [admitsAll, Bool.and_eq_true] at hadmits
    exact ih (h.act hadmits.1 hfaithful.1) hadmits.2 hfaithful.2

variable {flags : MessageFlags} {report : ChangeReport} {later : List (MessageFlags × Message)}

/-- The START that comes back next can be taken for its own change. -/
theorem mem_lookAlikes (h : l.Landed) (hhead : l.queued = (flags, .start report) :: later)
    (hc : c ∈ l.domain.changes.pending) (hseq : report.seq = c.seq) :
    c ∈ l.domain.lookAlikes c := by
  have hdue : c.seq ∈ l.due := by
    rw [due, hhead, ← hseq]
    exact List.mem_cons_self
  have hawaits : c.awaits l.domain.us = true := by
    cases hstarted : (c.member? l.domain.us).any (·.started) with
    | true => exact absurd hdue (h.started _ (Domain.mem_startedIn.2 ⟨c, hc, rfl, hstarted⟩)).2
    | false =>
      have hmember := (h.steady.sound c hc).member
      unfold Change.isMember at hmember
      unfold Change.awaits
      unfold Change.member? at hstarted ⊢
      cases hfind : c.members.find? (·.node == l.domain.us) with
      | none =>
        obtain ⟨m, hm, hnode⟩ := List.any_eq_true.1 hmember
        exact absurd hnode (List.find?_eq_none.1 hfind m hm)
      | some m =>
        rw [hfind] at hstarted
        simpa using hstarted
  have hwithin : c.membersWithin c = true :=
    Change.membersWithin_iff_subset.2 (List.Subset.refl _)
  unfold Domain.lookAlikes
  rw [List.mem_filter]
  exact ⟨hc, by simp [hawaits, hwithin, h.below c.seq hdue]⟩

/-- If it is not flagged, it can be taken for no older one: our STARTs for those are out, and so
    have come back before. -/
theorem older_eq_nil (h : l.Landed) (hhead : l.queued = (flags, .start report) :: later)
    (hseq : report.seq = c.seq)
    (hsent : ∀ old ∈ l.domain.changes.pending, old.seq < c.seq → c.LooksLike old →
      old.sentStart = true) :
    l.domain.olderLookAlikes c = [] := by
  rw [Domain.olderLookAlikes, List.filter_eq_nil_iff]
  intro old hold hlt
  unfold Domain.lookAlikes at hold
  simp only [List.mem_filter, Bool.and_eq_true, beq_iff_eq, decide_eq_true_eq] at hold hlt
  obtain ⟨hpending, ⟨⟨hcounts, hwithin⟩, hawaits⟩, -⟩ := hold
  have hout := hsent old hpending hlt ⟨hcounts, hwithin⟩
  have horder := h.order
  have haccounted := h.accounted old.seq (Domain.mem_sentFor.2 ⟨old, hpending, rfl, hout⟩)
  rw [due, hhead] at horder haccounted
  obtain hstarted | hdue := haccounted
  · obtain ⟨c', hc', heq, hstarted⟩ := Domain.mem_startedIn.1 hstarted
    rw [h.steady.eq_of_seq_eq hpending hc' heq] at hstarted
    unfold Change.awaits at hawaits
    cases hmember : old.member? l.domain.us <;> simp_all
  · obtain heq | hlater := List.mem_cons.1 hdue
    · rw [heq, hseq] at hlt
      exact UInt32.lt_irrefl _ hlt
    · have hfirst := (List.pairwise_cons.1 horder).1 old.seq hlater
      rw [hseq] at hfirst
      exact UInt32.lt_asymm hlt hfirst

end Landed

theorem landed_new (config : Config) : (new config).Landed := by
  have hsent : (new config).domain.sentFor = [] := by
    rw [Domain.sentFor, new, Domain.new_changes]
    rfl
  have hstarted : (new config).domain.startedIn = [] := by
    rw [Domain.startedIn, new, Domain.new_changes]
    rfl
  refine ⟨steady_new config, .nil, ?_, ?_, .inl ?_, ?_⟩
  · simp [hsent]
  · simp [hstarted]
  · rw [Domain.lastMatch, new, Domain.lookup_new]
  · exact fun seq hseq => absurd hseq List.not_mem_nil

/-- A message of ours that comes back is the START of a change that is pending. It lands on this
    change, which is to say that it starts our member there and nowhere else, exactly if it can be
    taken for it, and for no older one; or, flagged as a duplicate, for one older one or for no
    other at all. If every START before it has landed on its own change, only a flagged one can miss
    its own: it does so if it can be taken for more than one older change, or for younger ones
    only. -/
theorem lands_run_iff (config : Config) (inputs : List (Seconds × EchoInput)) (l : Loopback)
    (now : Seconds) (flags : MessageFlags) (message : Message)
    (later : List (MessageFlags × Message)) (hadmits : (new config).admitsAll inputs = true)
    (hrun : (new config).run inputs = l) (hhead : l.queued = (flags, message) :: later) :
    ∃ report c, message = .start report ∧ l.domain.changes.get? report.seq = some c ∧
      (l.Lands now report.seq ↔ c ∈ l.domain.lookAlikes c ∧
        if flags.contains .duplicate then
          (l.domain.olderLookAlikes c).length = 1 ∨ l.domain.otherLookAlikes c = []
        else l.domain.olderLookAlikes c = []) ∧
      ((new config).Faithful inputs → (l.Lands now report.seq ↔
        (flags.contains .duplicate = true →
          (l.domain.olderLookAlikes c).length = 1 ∨ l.domain.otherLookAlikes c = []))) := by
  have hsteady : l.Steady := by
    rw [← hrun]
    exact run_induction (fun l now i h hadmits => h.act hadmits) (steady_new config) hadmits
  obtain ⟨report, rfl, c, hc, hdescribes, -, hsent⟩ := hsteady.said (flags, message)
    (hhead ▸ List.mem_cons_self)
  have hlands : l.Lands now c.seq ↔ _ := hsteady.lands_iff hhead hc hdescribes
  rw [← hdescribes.seq] at hlands
  refine ⟨report, c, rfl, hdescribes.seq ▸ hsteady.get?_seq hc, hlands, fun hfaithful => ?_⟩
  have hlanded : l.Landed := by
    rw [← hrun]
    exact (landed_new config).run hadmits hfaithful
  rw [hlands, and_iff_right (hlanded.mem_lookAlikes hhead hc hdescribes.seq)]
  cases hflag : flags.contains .duplicate with
  | true => simp
  | false => simpa using hlanded.older_eq_nil hhead hdescribes.seq (hsent hflag)

section

open Domain (pairConfig)

/-- Node 1 joins while the ring is not agreed on, and node 2 comes and goes a number of times, and
    comes again before the ring is agreed on. -/
def comingAndGoing (times : Nat) : List (Seconds × EchoInput) :=
  let listed (node : NodeId) (name : String) : ClusterNode :=
    { node, name, member := true, incarnation := 1 }
  let alone (left joined : List GroupAddress) : EchoInput :=
    .membership { members := [⟨1, .join⟩], left, joined }
  let both : EchoInput :=
    .membership { members := [⟨1, .join⟩, ⟨2, .join⟩], left := [], joined := [⟨2, .join⟩] }
  [(10, .cluster { quorate := true, ringSeq := 5, nodes := [listed 1 "node1", listed 2 "node2"] }),
   (10, .ring 1 6), (11, alone [] [⟨1, .join⟩])] ++
    (List.replicate times [(12, both), (12, alone [⟨2, .leave⟩] [])]).flatten ++
    [(16, both), (17, .ring 1 5)]

/-- The START of node 1 for a change in which node 2 comes. -/
def comingReport (seq : UInt32) : ChangeReport where
  seq := seq
  summary := { counts := { members := 2, joined := 1 } }
  entries := [{ node := 1, flags := 1 }, { node := 2, flags := 1 }]

/-- A START that is flagged for one older change lands on its own. -/
theorem lands_run_iff_secondOfTwo :
    (new pairConfig).admitsAll (comingAndGoing 1) = true ∧
      ((new pairConfig).run (comingAndGoing 1)).queued = [(.duplicate, .start (comingReport 4))] ∧
      ((new pairConfig).run (comingAndGoing 1)).Lands 18 4 := by
  have hadmits : (new pairConfig).admitsAll (comingAndGoing 1) = true := by decide +kernel
  have hhead : ((new pairConfig).run (comingAndGoing 1)).queued =
      [(.duplicate, .start (comingReport 4))] := by decide +kernel
  obtain ⟨report, c, hmessage, hget, -, hlands⟩ := lands_run_iff pairConfig (comingAndGoing 1) _ 18
    .duplicate (.start (comingReport 4)) [] hadmits rfl hhead
  obtain rfl : comingReport 4 = report := Message.start.inj hmessage
  have holder : (((new pairConfig).run (comingAndGoing 1)).domain.changes.get? 4).all (fun c =>
      (((new pairConfig).run (comingAndGoing 1)).domain.olderLookAlikes c).length == 1) = true := by
    decide +kernel
  rw [show (4 : UInt32) = (comingReport 4).seq from rfl, hget, Option.all_some,
    beq_iff_eq] at holder
  exact ⟨hadmits, hhead, (hlands (by simp [comingAndGoing, Faithful])).2 fun _ => .inl holder⟩

/-- A START that is flagged for two older changes lands on the younger of these. -/
theorem flagged_start_misses :
    ¬ ∀ (config : Config) (inputs : List (Seconds × EchoInput)) (now : Seconds)
        (flags : MessageFlags) (report : ChangeReport) (later : List (MessageFlags × Message)),
        (new config).admitsAll inputs = true →
        ((new config).run inputs).queued = (flags, .start report) :: later →
        (((new config).run inputs).domain.changes.get? report.seq).isSome = true →
        ((new config).run inputs).Lands now report.seq := by
  intro hlands
  have h := hlands pairConfig (comingAndGoing 2) 18 .duplicate (comingReport 6) []
    (by decide +kernel) (by decide +kernel) (by decide +kernel)
  have hmissed : (((new pairConfig).run (comingAndGoing 2)).act 18 .echo).domain.startedIn = [4] := by
    decide +kernel
  have hstarted := (h.2 6).2 (.inl rfl)
  rw [hmissed] at hstarted
  exact absurd hstarted (by decide)

end

end Loopback

end ClusterFence
