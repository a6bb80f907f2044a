import ClusterFence.Proofs.Episode.Recorded

namespace ClusterFence

namespace Outage

/-- A START about the change of the outage: it has its sizes, and flags the survivors as members,
    and them only. -/
structure DescribedBy (o : Outage) (report : ChangeReport) : Prop where
  counts : report.summary.counts = o.counts
  survivors : ∀ q ∈ o.survivors,
    (report.entries.find? (·.node == q)).any (·.isMember) = true
  others : ∀ e ∈ report.entries, e.isMember = true → e.node ∈ o.survivors

/-- Of the STARTs that a survivor has heard, all are counted if all is `clear`. -/
def Counted (clear : Prop) (heard : List Posted) (d : Domain) : Prop :=
  clear → ∀ c ∈ d.changes.pending, ∀ m ∈ heard, m.isStart = true →
    c.awaits m.sender = false

variable {o : Outage} {p : NodeId} {clear : Prop} {order heard : List Posted} {d d' : Domain}
  {c : Change} {said : List (MessageFlags × Message)} {asked : Nat}

namespace Current

theorem isMember_eq_true (h : o.Current p order d c) {q : NodeId} (hq : q ∈ o.survivors) :
    c.isMember q = true := by
  obtain ⟨m, hm, rfl⟩ := h.exists_member hq
  unfold Change.isMember
  rw [List.any_eq_true]
  exact ⟨m, hm, beq_self_eq_true _⟩

theorem mem_of_isMember (h : o.Current p order d c) {q : NodeId} (hq : c.isMember q = true) :
    q ∈ o.survivors := by
  unfold Change.isMember at hq
  rw [List.any_eq_true] at hq
  obtain ⟨m, hm, hnode⟩ := hq
  rw [← eq_of_beq hnode]
  exact h.mem_survivors hm

/-- What a survivor says of its current change describes the change of the outage. -/
theorem describedBy_report (h : o.Current p order d c) (hrecorded : o.Recorded p clear d) :
    o.DescribedBy (d.report c) where
  counts := h.counts
  survivors q hq := by
    have hknown : d.history.Holds q (·.node = q) := by
      obtain ⟨n, hn, hnode, -⟩ := hrecorded.survivors q hq
      exact ⟨n, hn, hnode⟩
    exact (hknown.find?_entriesFor c).trans (h.isMember_eq_true hq)
  others e he hmember := by
    rw [History.isMember_of_mem_entriesFor he] at hmember
    exact h.mem_of_isMember hmember

/-- A START about the change of the outage is for the current change, as long as its sender is
    awaited. -/
theorem describes (h : o.Current p order d c) (hrecorded : o.Recorded p clear d)
    (hclear : clear) (hus : d.us = p) (hp : p ∈ o.survivors) {s : ReceivedStart}
    (hreport : o.DescribedBy s.report) (hawaits : c.awaits s.sender = true) :
    s.describes d.us d.history c = true := by
  have hsender : s.sender ∈ o.survivors := by
    unfold Change.awaits at hawaits
    cases hmember : c.member? s.sender with
    | none => simp [hmember] at hawaits
    | some m =>
      obtain ⟨hm, hnode⟩ := Change.mem_of_member? hmember
      rw [← hnode]
      exact h.mem_survivors hm
  have hallowed : (d.history.get? s.sender).any (ReceivedStart.allowedBy · c) = true := by
    obtain ⟨n, hn, -, hfits⟩ := hrecorded.survivors s.sender hsender
    obtain ⟨htime, hmatch, hfail, hleft⟩ := hfits hclear
    rw [hn, Option.any_some]
    unfold ReceivedStart.allowedBy
    rw [h.createTime, h.seq]
    simp [htime, hmatch, hfail, hleft]
  have hcounts : s.report.summary.counts = c.counts := hreport.counts.trans h.counts.symm
  have hmembers : (s.report.entries.all fun e => !e.isMember || c.isMember e.node) = true := by
    rw [List.all_eq_true]
    intro e he
    cases hmember : e.isMember with
    | false => rfl
    | true => simpa using h.isMember_eq_true (hreport.others e he hmember)
  have hus' : s.flagsMember d.us = true := by
    rw [hus]
    exact hreport.survivors p hp
  unfold ReceivedStart.describes
  rw [hus', hawaits, hallowed, hcounts, hmembers]
  simp

end Current

namespace Counted

/-- Nothing but the changes matters. -/
theorem of_changes_eq (h : Counted clear heard d) (hchanges : d'.changes = d.changes) :
    Counted clear heard d' := by
  unfold Counted
  rw [hchanges]
  exact h

theorem of_pending_nil (hpending : d.changes.pending = []) : Counted clear heard d := by
  intro _ c hc
  rw [hpending] at hc
  cases hc

/-- To get on counts nobody less: the members stay as they are. -/
theorem advance (h : Counted clear heard d) : Counted clear heard d.advance.domain := by
  have hkeep (f : Change → Change) (hf : ∀ c, (f c).members = c.members) {d' : Domain}
      (hchanges : d'.changes = d.changes.updateCurrent f) : Counted clear heard d' := by
    intro hclear c hc m hm hstart
    unfold ChangeQueue.updateCurrent at hchanges
    cases hpending : d.changes.pending with
    | nil =>
      rw [hpending] at hchanges
      rw [hchanges, hpending] at hc
      cases hc
    | cons current older =>
      rw [hpending] at hchanges
      rw [hchanges, List.mem_cons] at hc
      obtain rfl | hc := hc
      · unfold Change.awaits Change.member?
        rw [hf]
        exact h hclear current (by simp [hpending]) m hm hstart
      · exact h hclear c (by simp [hpending, hc]) m hm hstart
  obtain heq | ⟨c, -, -, -, heq⟩ | ⟨c, -, -, -, -, heq⟩ | ⟨c, -, -, -, -, heq⟩ := d.advance_cases
  · rw [heq]
    exact h
  · rw [heq]
    exact h
  · rw [heq]
    exact hkeep ({ · with sentStart := true, phase := .awaitingStarts }) (fun c => rfl) rfl
  · rw [heq]
    unfold Domain.settle
    dsimp only
    split
    · exact hkeep ({ · with phase := .awaitingFencing }) (fun c => rfl) rfl
    · apply of_pending_nil
      simp [Domain.retireCurrent]

/-- A START that is heard is counted then, or was before. -/
theorem receiveStart (h : Counted clear heard d) (hcourse : o.Course p order d said asked)
    (hrecorded : o.Recorded p clear d) (hus : d.us = p) (hp : p ∈ o.survivors) {m : Posted}
    {report : ChangeReport} (hreport : o.DescribedBy report) (now : Seconds) :
    Counted clear (heard ++ [m])
      (d.receiveStart { sender := m.sender, flags := m.flags, report } now).1 := by
  obtain ⟨c, current⟩ | hpending := hcourse.current_or_nil
  · generalize hs : ({ sender := m.sender, flags := m.flags, report } : ReceivedStart) = s
    have hsender : s.sender = m.sender := by rw [← hs]
    cases hdescribes : s.describes d.us d.history c with
    | false =>
      rw [Domain.receiveStart_of_not_describes current.pending hdescribes]
      intro hclear c' hc' x hx hstart
      obtain hx | hx := List.mem_append.1 hx
      · exact h hclear c' hc' x hx hstart
      · rw [current.pending, List.mem_singleton] at hc'
        rw [List.mem_singleton.1 hx, hc', ← hsender, ← Bool.not_eq_true]
        intro hawaits
        have hreport' : o.DescribedBy s.report := by
          rw [← hs]
          exact hreport
        rw [current.describes hrecorded hclear hus hp hreport' hawaits] at hdescribes
        cases hdescribes
    | true =>
      rw [Domain.receiveStart_of_describes current.pending (current.not_hasAdded _) hdescribes]
      intro hclear c' hc' x hx hstart
      rw [List.mem_singleton.1 hc']
      by_cases heq : x.sender = s.sender
      · rw [heq]
        exact c.not_awaits_updateMember s.sender (fun _ => rfl) fun _ => rfl
      · obtain hx | hx := List.mem_append.1 hx
        · rw [c.awaits_updateMember_of_ne ?_ heq]
          · exact h hclear c (by simp [current.pending]) x hx hstart
          · exact fun _ => rfl
        · apply absurd _ heq
          rw [List.mem_singleton.1 hx, hsender]
  · rw [Domain.receiveStart_of_pending_nil hpending]
    exact of_pending_nil hpending

/-- Only STARTs are counted. -/
theorem append_of_not_start (h : Counted clear heard d) {m : Posted} (hm : m.isStart = false) :
    Counted clear (heard ++ [m]) d := by
  intro hclear c hc x hx hstart
  obtain hx | hx := List.mem_append.1 hx
  · exact h hclear c hc x hx hstart
  · rw [List.mem_singleton.1 hx, hm] at hstart
    cases hstart

theorem accept (h : Counted clear heard d) (hcourse : o.Course p order d said asked)
    (hrecorded : o.Recorded p clear d) (hus : d.us = p) (hp : p ∈ o.survivors) {m : Posted}
    (hreport : ∀ report, m.message = .start report → o.DescribedBy report) (now : Seconds) :
    Counted clear (heard ++ [m]) (d.accept m.envelope now).1 := by
  have hother (hkind : m.message.kind ≠ .start) : m.isStart = false := by
    simpa [Posted.isStart] using hkind
  unfold Domain.accept
  cases hmessage : m.message with
  | protocol offer =>
    simp only [Posted.envelope, hmessage]
    exact h.append_of_not_start (hother (by simp [hmessage, Message.kind]))
  | start report =>
    simp only [Posted.envelope, hmessage]
    exact h.receiveStart hcourse hrecorded hus hp (hreport report hmessage) now
  | victimDone seq entry =>
    simp only [Posted.envelope, hmessage]
    obtain ⟨_, heq⟩ := d.receiveVictimDone_eq m.sender entry now
    rw [heq]
    have hstays := h.append_of_not_start (hother (by simp [hmessage, Message.kind]))
    exact hstays.of_changes_eq rfl
  | complete report =>
    have hstays := h.append_of_not_start (hother (by simp [hmessage, Message.kind]))
    simp only [Posted.envelope, hmessage, Domain.receiveComplete]
    split <;> exact hstays.of_changes_eq rfl
  | external victim =>
    simp only [Posted.envelope, hmessage]
    have hstays := h.append_of_not_start (hother (by simp [hmessage, Message.kind]))
    exact hstays.of_changes_eq rfl

end Counted

/-- A survivor misses nothing that counts: it knows what it has to know, its START describes the
    change of the outage, and of the STARTs that it has heard all are counted if all is `clear`. -/
structure Attentive (o : Outage) (p : NodeId) (clear : Prop) (s : Survivor)
    (said : List (MessageFlags × Message)) : Prop where
  recorded : o.Recorded p clear s.domain
  described : ∀ x ∈ said, ∀ report, x.2 = .start report → o.DescribedBy report
  counted : s.told = true → Counted clear s.heard s.domain

section

variable {domains : NodeId → Domain} {e e' : Episode}

/-- To take down what happens misses nothing that counts. -/
theorem Orderly.recorded_taken (hready : ∀ p ∈ o.survivors, o.Ready p (domains p))
    (h : o.Orderly domains e)
    (hall : ∀ q ∈ o.survivors, o.Attentive q (o.Clear (domains q)) (e.site q) (e.said q))
    (hp : p ∈ o.survivors) (htakes : o.Takes p e.order (e.site p) heard d) :
    o.Recorded p (o.Clear (domains p)) d ∧ Counted (o.Clear (domains p)) heard d := by
  have hrecorded := (hall p hp).recorded
  cases htakes with
  | told htold =>
    obtain ⟨hdomain, hheard, -⟩ := h.untold p hp htold
    rw [hdomain, hheard]
    refine ⟨(hready p hp).recorded_queued, ?_⟩
    intro hclear c hc m hm
    cases hm
  | ring htold => exact ⟨hrecorded.of_eq rfl rfl rfl, ((hall p hp).counted htold).of_changes_eq rfl⟩
  | cluster htold hkeeps =>
    exact ⟨hrecorded.cluster hkeeps _, ((hall p hp).counted htold).of_changes_eq rfl⟩
  | @heard now m htold hnext =>
    have hcourse := h.course p hp htold
    have hm : m ∈ e.order := List.mem_of_getElem? hnext
    refine ⟨hrecorded.accept hcourse m now, ?_⟩
    apply ((hall p hp).counted htold).accept hcourse hrecorded (h.us p hp) hp
    intro report hreport
    have hsaid := Episode.mem_said_of_mem_order hm
    exact (hall m.sender (h.senders m hm)).described _ hsaid report hreport

/-- A survivor that gets on sends at most its START, which describes the change. -/
theorem Orderly.attentive_takes (hready : ∀ p ∈ o.survivors, o.Ready p (domains p))
    (h : o.Orderly domains e)
    (hall : ∀ q ∈ o.survivors, o.Attentive q (o.Clear (domains q)) (e.site q) (e.said q))
    (hp : p ∈ o.survivors) (htakes : o.Takes p e.order (e.site p) heard d) :
    o.Attentive p (o.Clear (domains p)) ((e.react p heard d.advance).site p)
      (e.said p ++ Action.sent d.advance.actions) := by
  obtain ⟨hcourse, -, -⟩ := h.taken hready hp htakes
  obtain ⟨hrecorded, hcounted⟩ := h.recorded_taken hready hall hp htakes
  rw [Episode.site_react_self]
  refine ⟨hrecorded.advance, ?_, fun _ => hcounted.advance⟩
  intro x hx report hreport
  obtain hx | hx := List.mem_append.1 hx
  · exact (hall p hp).described x hx report hreport
  · obtain ⟨c, hc, hstart⟩ := Domain.start_of_mem_sent_advance hx
    rw [hreport, Message.start.injEq] at hstart
    obtain ⟨c', current⟩ | hpending := hcourse.current_or_nil
    · rw [current.current?, Option.some.injEq] at hc
      rw [hstart, ← hc]
      exact current.describedBy_report hrecorded
    · simp [ChangeQueue.current?, hpending] at hc

theorem Attentive.resolve {s : Survivor} (h : o.Attentive p clear s said) (htold : s.told = true)
    (victim : NodeId) (how : Resolution) (reduced : Bool) (now : Seconds)
    (outbox : List (MessageFlags × Message)) :
    o.Attentive p clear
      { s with domain := (s.domain.resolve victim how reduced now).domain, told := true, outbox }
      (said ++ Action.sent (s.domain.resolve victim how reduced now).actions) := by
  have hdomain := s.domain.resolve_domain victim how reduced now
  refine ⟨?_, ?_, fun _ => ?_⟩
  · apply h.recorded.update
    · rw [hdomain]
      rfl
    · rw [hdomain]
    · rw [hdomain]
    · exact fun q n hn => hn
    · exact fun n => rfl
  · intro x hx report hreport
    obtain hx | hx := List.mem_append.1 hx
    · exact h.described x hx report hreport
    · obtain ⟨n, seq, -, hdone⟩ := Domain.report_of_mem_sent_resolve hx
      rw [hreport] at hdone
      cases hdone
  · apply (h.counted htold).of_changes_eq
    rw [hdomain]

theorem Attentive.finishFencing {s : Survivor} (h : o.Attentive p clear s said)
    (hfencing : s.domain.fencing = true) (hcurrent : s.domain.changes.current? = some c)
    (outbox : List (MessageFlags × Message)) :
    o.Attentive p clear { s with domain := s.domain.finishFencing.domain, told := true, outbox }
      (said ++ Action.sent s.domain.finishFencing.actions) := by
  have hsent := Domain.sent_finishFencing hfencing hcurrent
  refine ⟨?_, ?_, fun _ => ?_⟩
  · apply h.recorded.of_eq <;>
      simp [Domain.finishFencing, hfencing, Domain.retireCurrent]
  · intro x hx report hreport
    rw [hsent] at hx
    obtain hx | hx := List.mem_append.1 hx
    · exact h.described x hx report hreport
    · rw [List.mem_singleton.1 hx] at hreport
      cases hreport
  · apply Counted.of_pending_nil
    simp [Domain.finishFencing, hfencing, Domain.retireCurrent]

theorem Attentive.moved (hready : ∀ p ∈ o.survivors, o.Ready p (domains p))
    (h : o.Orderly domains e)
    (hall : ∀ q ∈ o.survivors, o.Attentive q (o.Clear (domains q)) (e.site q) (e.said q))
    (hmoved : e.Moved o e') :
    ∀ q ∈ o.survivors, o.Attentive q (o.Clear (domains q)) (e'.site q) (e'.said q) := by
  cases hmoved with
  | idle => exact hall
  | placed hp houtbox =>
    intro q hq
    obtain ⟨outbox, hsite⟩ := Episode.site_place q
    rw [hsite, Episode.said_place houtbox]
    have hold := hall q hq
    exact ⟨hold.recorded, hold.described, hold.counted⟩
  | @takes p heard d hp htakes =>
    apply Episode.forall_react e p heard d.advance hall
    exact h.attentive_takes hready hall hp htakes
  | @resolved p now victim how reduced hp htold hfencing hopen =>
    apply Episode.forall_react e p _ _ hall
    rw [Episode.site_react_self]
    exact (hall p hp).resolve htold victim how reduced now _
  | @finished p hp htold hfencing hresolved =>
    obtain ⟨-, c, current, -⟩ := (h.course p hp htold).of_fencing hfencing
    apply Episode.forall_react e p _ _ hall
    rw [Episode.site_react_self]
    exact (hall p hp).finishFencing hfencing current.current? _

end

end Outage

end ClusterFence
