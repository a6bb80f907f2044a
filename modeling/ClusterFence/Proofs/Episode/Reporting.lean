import ClusterFence.Proofs.Episode.Dealing

namespace ClusterFence.Outage

variable {o : Outage} {p : NodeId} {heard : List Posted} {d : Domain}
  {said : List (MessageFlags × Message)}

section

variable {victim : NodeId}

/-- To deal with a victim records it, and the report tells what was recorded. -/
theorem exists_recorded (hus : d.us = p) (hknown : d.history.Holds victim (·.node = victim))
    (how : Resolution) (reduced : Bool) (now : Seconds) :
    ∃ n, (d.resolve victim how reduced now).domain.history.get? victim = some n ∧
      Reported (Action.sent (d.resolve victim how reduced now).actions) victim ∧
      ∀ x ∈ Action.sent (d.resolve victim how reduced now).actions, ∃ seq entry,
        x.2 = .victimDone seq entry ∧ entry.node = victim ∧ entry.fenceMaster = p ∧
          n.fenced = entry.fenced := by
  have hrecord : (d.history.recordFenced victim d.us how.code now).Holds victim
      fun n => n.node = victim ∧ n.fenceMaster = p :=
    hknown.update (fun _ _ hnode => ⟨hnode, hus⟩) fun hne => absurd rfl hne
  obtain ⟨n, hn, hnode, hmaster⟩ := hrecord
  have hget : (d.resolve victim how reduced now).domain.history.get? victim = some n := by
    rw [d.resolve_domain]
    exact hn
  refine ⟨n, hget, ?_, ?_⟩
  · obtain ⟨x, hx, seq, hreport⟩ := Domain.exists_sent_resolve hget
    exact ⟨x, hx, seq, _, hreport, hnode⟩
  · intro x hx
    obtain ⟨n', seq, hn', hreport⟩ := Domain.report_of_mem_sent_resolve hx
    rw [hget, Option.some.injEq] at hn'
    rw [← hn'] at hreport
    refine ⟨seq, _, hreport, hnode, hus, ?_⟩
    unfold NodeHistory.fenced NodeEntry.fenced
    rw [hmaster, ← hus]
    rfl

end

namespace Dealt

section

variable (h : o.Dealt p d heard said) (hus : d.us = p) {victim : NodeId}
  (hopen : d.victims.isOpen victim = true) (hknown : d.history.Holds victim (·.node = victim))

include h hopen

/-- A victim that is still open was not reported. -/
theorem node_ne_of_isOpen {x : MessageFlags × Message} (hx : x ∈ said) {seq : UInt32}
    {entry : NodeEntry} (hreport : x.2 = .victimDone seq entry) : entry.node ≠ victim := by
  intro heq
  have hshut := (h.own x hx seq entry hreport).2.2.1
  rw [heq, hopen] at hshut
  cases hshut

include hus hknown

/-- What the survivor has reported is dealt with, the victim that it deals with included. -/
theorem own_resolve (how : Resolution) (reduced : Bool) (now : Seconds) :
    ∀ x ∈ said ++ Action.sent (d.resolve victim how reduced now).actions,
      ∀ seq entry, x.2 = .victimDone seq entry →
        entry.node ∈ o.failed ∧ entry.fenceMaster = p ∧
          (d.resolve victim how reduced now).domain.victims.isOpen entry.node = false ∧
            (d.resolve victim how reduced now).domain.history.Holds entry.node
              (·.fenced = entry.fenced) := by
  obtain ⟨-, -, hclosed, hothers⟩ := Victims.resolve_spec h.nodup victim reduced
  obtain ⟨n, hn, -, hsent⟩ := exists_recorded hus hknown how reduced now
  intro x hx seq entry hreport
  obtain hx | hx := List.mem_append.1 hx
  · obtain ⟨hfailed, hmaster, hshut, hfenced⟩ := h.own x hx seq entry hreport
    have hne := h.node_ne_of_isOpen hopen hx hreport
    rw [d.resolve_domain]
    refine ⟨hfailed, hmaster, ?_, hfenced.keep fun heq => absurd heq.symm hne⟩
    exact (hothers entry.node hne).trans hshut
  · obtain ⟨seq', entry', hsent', hnode, hmaster, hfenced⟩ := hsent x hx
    rw [hreport, Message.victimDone.injEq] at hsent'
    rw [hsent'.2, hnode]
    refine ⟨h.failed victim (Victims.mem_ids_of_isOpen hopen), hmaster, ?_, n, hn, hfenced⟩
    rw [d.resolve_domain]
    exact hclosed

/-- An open victim that is dealt with is closed and reported. -/
theorem resolve (hheard : ∀ m ∈ heard, ∀ seq entry, m.message = .victimDone seq entry →
      (m.flags, m.message) ∈ said) (how : Resolution) (reduced : Bool) (now : Seconds) :
    o.Dealt p (d.resolve victim how reduced now).domain heard
      (said ++ Action.sent (d.resolve victim how reduced now).actions) := by
  obtain ⟨hnodup, hsub, -, hothers⟩ := Victims.resolve_spec h.nodup victim reduced
  obtain ⟨_, -, ⟨y, hy, hreported⟩, hsent⟩ := exists_recorded hus hknown how reduced now
  have hown := h.own_resolve hus hopen hknown how reduced now
  have hdomain := d.resolve_domain victim how reduced now
  refine ⟨?_, ?_, ?_, ?_, ?_, hown, ?_⟩
  · rw [hdomain]
    exact hnodup
  · rw [hdomain]
    exact fun f hf => h.failed f (hsub f hf)
  · intro f hf
    by_cases heq : f = victim
    · rw [heq]
      exact .inr (.inl ⟨y, List.mem_append_right _ hy, hreported⟩)
    · obtain hopen' | hreported | hother := h.pending f hf
      · refine .inl ?_
        rw [hdomain]
        exact (hothers f heq).trans hopen'
      · exact .inr (.inl (hreported.append _))
      · exact .inr (.inr hother)
  · intro m hm seq entry hreport hmem
    rw [hdomain] at hmem
    exact h.gone m hm seq entry hreport (hsub entry.node hmem)
  · rintro ⟨x, hx, hcomplete⟩ f hf
    obtain hx | hx := List.mem_append.1 hx
    · exact (h.complete ⟨x, hx, hcomplete⟩ f hf).append _
    · obtain ⟨seq, entry, hreport, -⟩ := hsent x hx
      rw [hreport] at hcomplete
      cases hcomplete
  · intro m hm seq entry hreport
    have hmem := hheard m hm seq entry hreport
    exact (hown _ (List.mem_append_left _ hmem) seq entry hreport).2.2.2

end

/-- A master is through with fencing once it has reported every failed node. -/
theorem finishFencing (h : o.Dealt p d heard said) (hfencing : d.fencing = true) {c : Change}
    (hcurrent : d.changes.current? = some c)
    (hresolved : d.victims.toList.all (·.resolvedHere) = true)
    (halone : ∀ m ∈ heard, m.isStart = false → m.sender = p) :
    o.Dealt p d.finishFencing.domain heard (said ++ Action.sent d.finishFencing.actions) := by
  have hvictims : d.finishFencing.domain.victims = d.victims := by
    simp [Domain.finishFencing, hfencing, Domain.retireCurrent]
  have hhistory : d.finishFencing.domain.history = d.history := by
    simp [Domain.finishFencing, hfencing, Domain.retireCurrent]
  have hsent := Domain.sent_finishFencing hfencing hcurrent
  have hreported : ∀ f ∈ o.failed, Reported said f := by
    intro f hf
    obtain hopen | hreported | ⟨m, hm, hsender, hsettles⟩ := h.pending f hf
    · unfold Victims.isOpen at hopen
      rw [List.any_eq_true] at hopen
      obtain ⟨victim, hvictim, hopen⟩ := hopen
      rw [List.all_eq_true] at hresolved
      rw [hresolved victim hvictim, Bool.not_true, Bool.and_false] at hopen
      cases hopen
    · exact hreported
    · exact absurd (halone m hm hsettles.not_isStart) hsender
  have hafter := h.of_eq hvictims hhistory
  refine ⟨hafter.nodup, hafter.failed, ?_, hafter.gone, ?_, ?_, hafter.noted⟩
  · intro f hf
    exact .inr (.inl ((hreported f hf).append _))
  · intro _ f hf
    exact (hreported f hf).append _
  · intro x hx seq entry hreport
    rw [hsent] at hx
    obtain hx | hx := List.mem_append.1 hx
    · exact hafter.own x hx seq entry hreport
    · rw [List.mem_singleton.1 hx] at hreport
      cases hreport

end Dealt

section

variable {domains : NodeId → Domain} {e e' : Episode}

namespace Orderly

variable (h : o.Orderly domains e)

include h

/-- All that stands before a START in the order is STARTs. -/
theorem starts_of_next {m : Posted} (hnext : e.order[(e.site p).heard.length]? = some m)
    (hm : m.isStart = true) : ∀ x ∈ (e.site p).heard, x.isStart = true := by
  have hordered := h.startsFirst.sublist (h.prefix_of_next hnext).sublist
  rw [List.pairwise_append] at hordered
  intro x hx
  exact hordered.2.2 x hx m List.mem_cons_self hm

/-- Only one survivor says more than its START. -/
theorem sender_eq {m m' : Posted} (hm : m ∈ e.order) (hstart : m.isStart = false)
    (hm' : m' ∈ e.order) (hstart' : m'.isStart = false) : m.sender = m'.sender :=
  (h.elects_of_mem hm hstart).unique (h.elects_of_mem hm' hstart')

/-- Who fences has heard nothing but STARTs from others. -/
theorem sender_eq_of_fencing (hp : p ∈ o.survivors) (htold : (e.site p).told = true)
    (hfencing : (e.site p).domain.fencing = true) {m : Posted} (hm : m ∈ (e.site p).heard)
    (hstart : m.isStart = false) : m.sender = p := by
  have helects := ((h.course p hp htold).of_fencing hfencing).1
  exact (h.elects_of_mem ((h.heard p).subset hm) hstart).unique helects

end Orderly

theorem not_isStart_of_report {m : Posted} {seq : UInt32} {entry : NodeEntry}
    (hm : m.message = .victimDone seq entry) : m.isStart = false := by
  simp [Posted.isStart, hm, Message.kind]

/-- A report that comes to a survivor is taken down there as it is everywhere. -/
theorem Dealt.receiveVictimDone (h : o.Orderly domains e)
    (hknown : ∀ f ∈ o.failed, (e.site p).domain.history.Holds f (·.node = f))
    (hdealt : ∀ q ∈ o.survivors, (e.site q).told = true →
      o.Dealt q (e.site q).domain (e.site q).heard (e.said q))
    (hp : p ∈ o.survivors) (htold : (e.site p).told = true) {m : Posted} (hm : m ∈ e.order)
    {seq : UInt32} {entry : NodeEntry} (hreport : m.message = .victimDone seq entry)
    (now : Seconds) :
    o.Dealt p ((e.site p).domain.receiveVictimDone m.sender entry now).1
      ((e.site p).heard ++ [m]) (e.said p) := by
  have hown := hdealt p hp htold
  have hsaid := Episode.mem_said_of_mem_order hm
  by_cases hsender : m.sender = p
  · apply hown.receiveOwn (h.us p hp) hsender hreport
    rw [← hsender]
    exact hsaid
  · have hstart := not_isStart_of_report hreport
    have hmaster := h.senders m hm
    have htheirs := hdealt m.sender hmaster (h.told_of_said hmaster hsaid)
    have hentry := htheirs.own _ hsaid seq entry hreport
    refine hown.receiveOther (h.us p hp) hsender hreport (hknown _ hentry.1) ?_ ?_ now
    · intro x hx
      by_cases hkind : x.2.kind = .start
      · exact hkind
      · have helects := (h.course p hp htold).elects_of_not_start hx hkind
        exact absurd ((h.elects_of_mem hm hstart).unique helects) hsender
    · intro x hx seq' e' hreport' hnode
      have hx' := (h.heard p).subset hx
      have hsame := h.sender_eq hx' (not_isStart_of_report hreport') hm hstart
      have hsaid' := Episode.mem_said_of_mem_order hx'
      rw [hsame] at hsaid'
      have hentry' := htheirs.own _ hsaid' seq' e' hreport'
      rw [hnode] at hentry'
      obtain ⟨n, hn', hn⟩ := hentry'.2.2.2.and hentry.2.2.2
      exact hn'.symm.trans hn

/-- To take down what happens forgets no failed node. -/
theorem Dealt.taken (hready : ∀ p ∈ o.survivors, o.Ready p (domains p))
    (h : o.Orderly domains e)
    (hall : ∀ q ∈ o.survivors, o.Attentive q (o.Clear (domains q)) (e.site q) (e.said q))
    (hdealt : ∀ q ∈ o.survivors, (e.site q).told = true →
      o.Dealt q (e.site q).domain (e.site q).heard (e.said q))
    (hp : p ∈ o.survivors) (htakes : o.Takes p e.order (e.site p) heard d) :
    o.Dealt p d heard (e.said p) := by
  cases htakes with
  | told htold =>
    obtain ⟨hdomain, hheard, hsaid, -⟩ := h.untold p hp htold
    rw [hdomain, hheard, hsaid]
    exact (hready p hp).dealt_queued
  | ring htold => exact (hdealt p hp htold).of_eq rfl rfl
  | cluster htold =>
    refine (hdealt p hp htold).of_keep rfl ?_
    intro node fenced hfenced
    apply hfenced.updateHistory
    intro t ht heq n hn
    exact ⟨hn, hn⟩
  | @heard now m htold hnext =>
    have hm : m ∈ e.order := List.mem_of_getElem? hnext
    have hown := hdealt p hp htold
    unfold Domain.accept
    cases hmessage : m.message with
    | protocol offer =>
      simp only [Posted.envelope, hmessage]
      exact hown.hear_other (by simp [hmessage])
    | start report =>
      have hstart : m.isStart = true := by simp [Posted.isStart, hmessage, Message.kind]
      simp only [Posted.envelope, hmessage]
      have hreceived := hown.receiveStart (h.course p hp htold) (h.starts_of_next hnext hstart)
        { sender := m.sender, flags := m.flags, report } now
      exact hreceived.hear_other (by simp [hmessage])
    | victimDone seq entry =>
      simp only [Posted.envelope, hmessage]
      exact receiveVictimDone h (hall p hp).recorded.failed hdealt hp htold hm hmessage now
    | complete report =>
      simp only [Posted.envelope, hmessage]
      apply hown.receiveComplete hmessage
      intro hsender
      rw [← hsender]
      exact Episode.mem_said_of_mem_order hm
    | external victim =>
      simp only [Posted.envelope, hmessage]
      have hnoted : o.Dealt p ((e.site p).domain.receiveExternal m.sender victim now).1
          (e.site p).heard (e.said p) := by
        refine hown.of_keep rfl ?_
        intro node fenced hfenced
        exact hfenced.keep fun _ n hn => hn
      exact hnoted.hear_other (by simp [hmessage])

/-- What one survivor does has no part in what the others have made of the failed nodes. -/
theorem Dealt.react (hdealt : ∀ q ∈ o.survivors, (e.site q).told = true →
      o.Dealt q (e.site q).domain (e.site q).heard (e.said q)) {r : Reaction}
    (hown : o.Dealt p r.domain heard (e.said p ++ Action.sent r.actions)) :
    ∀ q ∈ o.survivors, ((e.react p heard r).site q).told = true →
      o.Dealt q ((e.react p heard r).site q).domain ((e.react p heard r).site q).heard
        ((e.react p heard r).said q) := by
  apply Episode.forall_react (R := fun q s said => s.told = true → o.Dealt q s.domain s.heard said)
    e p heard r hdealt
  rw [Episode.site_react_self]
  exact fun _ => hown

theorem Dealt.moved (hready : ∀ p ∈ o.survivors, o.Ready p (domains p))
    (h : o.Orderly domains e)
    (hall : ∀ q ∈ o.survivors, o.Attentive q (o.Clear (domains q)) (e.site q) (e.said q))
    (hdealt : ∀ q ∈ o.survivors, (e.site q).told = true →
      o.Dealt q (e.site q).domain (e.site q).heard (e.said q))
    (hmoved : e.Moved o e') :
    ∀ q ∈ o.survivors, (e'.site q).told = true →
      o.Dealt q (e'.site q).domain (e'.site q).heard (e'.said q) := by
  cases hmoved with
  | idle => exact hdealt
  | placed hp houtbox =>
    intro q hq htold
    obtain ⟨outbox, hsite⟩ := Episode.site_place q
    rw [hsite] at htold ⊢
    rw [Episode.said_place houtbox]
    exact hdealt q hq htold
  | @takes p heard d hp htakes =>
    apply Dealt.react hdealt
    have htaken := Dealt.taken hready h hall hdealt hp htakes
    have hadvance := htaken.of_eq d.advance_victims d.advance_history
    apply hadvance.append_starts
    intro x hx
    obtain ⟨c, -, hstart⟩ := Domain.start_of_mem_sent_advance hx
    rw [hstart]
    rfl
  | @resolved p now victim how reduced hp htold hfencing hopen =>
    apply Dealt.react hdealt
    have hown := hdealt p hp htold
    have hfailed := hown.failed victim (Victims.mem_ids_of_isOpen hopen)
    apply hown.resolve (h.us p hp) hopen ((hall p hp).recorded.failed victim hfailed)
    intro m hm seq entry hreport
    have hsender := h.sender_eq_of_fencing hp htold hfencing hm (not_isStart_of_report hreport)
    have hsaid := Episode.mem_said_of_mem_order ((h.heard p).subset hm)
    rw [hsender] at hsaid
    exact hsaid
  | @finished p hp htold hfencing hresolved =>
    apply Dealt.react hdealt
    obtain ⟨-, c, current, -⟩ := (h.course p hp htold).of_fencing hfencing
    apply (hdealt p hp htold).finishFencing hfencing current.current? hresolved
    intro m hm hstart
    exact h.sender_eq_of_fencing hp htold hfencing hm hstart

end

end ClusterFence.Outage
