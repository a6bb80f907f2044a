import ClusterFence.Proofs.Episode.Course

namespace ClusterFence

namespace Domain

variable {d : Domain} {x : MessageFlags × Message}

/-- All that is sent on getting on is our START for the current change. -/
theorem start_of_mem_sent_advance (hx : x ∈ Action.sent d.advance.actions) :
    ∃ c, d.changes.current? = some c ∧ x.2 = .start (d.report c) := by
  obtain h | ⟨c, -, -, -, h⟩ | ⟨c, -, hc, -, -, h⟩ | ⟨c, -, -, -, -, h⟩ := d.advance_cases
  · simp [h, Action.sent] at hx
  · simp [h, Action.sent] at hx
  · rw [h] at hx
    have hstart : x = (d.reportFlags c d.duplicateFlag, .start (d.report c)) :=
      List.mem_singleton.1 hx
    rw [hstart]
    exact ⟨c, hc, rfl⟩
  · rw [h] at hx
    unfold settle at hx
    dsimp only at hx
    split at hx <;> simp [Action.sent] at hx

/-- All that is sent on dealing with a victim is our report about it, as it is recorded then. -/
theorem report_of_mem_sent_resolve {victim : NodeId} {how : Resolution} {reduced : Bool}
    {now : Seconds} (hx : x ∈ Action.sent (d.resolve victim how reduced now).actions) :
    ∃ n seq, (d.resolve victim how reduced now).domain.history.get? victim = some n ∧
      x.2 = .victimDone seq { n.entry false with fenceMaster := d.us } := by
  rw [resolve_domain]
  unfold resolve victimDoneAction? at hx
  dsimp only at hx
  split at hx
  · rename_i action haction
    obtain ⟨n, hn, rfl⟩ := Option.map_eq_some_iff.1 haction
    rw [Action.sent, Action.sent, List.mem_singleton] at hx
    rw [hx]
    exact ⟨n, _, hn, rfl⟩
  · cases hx

/-- A victim with a history is reported. -/
theorem exists_sent_resolve {victim : NodeId} {how : Resolution} {reduced : Bool} {now : Seconds}
    {n : NodeHistory}
    (hn : (d.resolve victim how reduced now).domain.history.get? victim = some n) :
    ∃ x ∈ Action.sent (d.resolve victim how reduced now).actions, ∃ seq,
      x.2 = .victimDone seq { n.entry false with fenceMaster := d.us } := by
  rw [resolve_domain] at hn
  unfold resolve victimDoneAction?
  dsimp only
  rw [hn]
  exact ⟨_, List.mem_cons_self, _, rfl⟩

theorem countP_startsRun_resolve (victim : NodeId) (how : Resolution) (reduced : Bool)
    (now : Seconds) : (d.resolve victim how reduced now).actions.countP Action.startsRun = 0 := by
  unfold resolve victimDoneAction?
  dsimp only
  split
  · rename_i action haction
    obtain ⟨n, -, rfl⟩ := Option.map_eq_some_iff.1 haction
    rfl
  · rfl

/-- All that is sent at the end of fencing is our COMPLETE. -/
theorem sent_finishFencing {c : Change} (hfencing : d.fencing = true)
    (hcurrent : d.changes.current? = some c) :
    Action.sent d.finishFencing.actions = [(d.reportFlags c {}, .complete (d.report c))] := by
  unfold finishFencing
  rw [if_pos hfencing, hcurrent]
  rfl

end Domain

namespace Outage

variable {o : Outage} {p : NodeId} {order : List Posted} {d : Domain}
  {said : List (MessageFlags × Message)} {asked : Nat}

theorem not_mem_failed (hp : p ∈ o.survivors) : p ∉ o.failed := by
  intro hfailed
  have hnodup := o.nodup
  rw [List.map_append, List.nodup_append] at hnodup
  exact hnodup.2.2 p hp p hfailed rfl

/-- The change that the outage brings to a survivor. -/
def change (o : Outage) (p : NodeId) (d : Domain) : Change :=
  Change.ofMembership (d.changes.changeSeq + 1) p o.membership (o.time p)

/-- A survivor that was told, before it gets on. -/
def queued (o : Outage) (p : NodeId) (d : Domain) : Domain :=
  let seq := d.changes.changeSeq + 1
  let changes :=
    { d.changes with changeSeq := seq, pending := o.change p d :: d.changes.pending }
  let history := d.history.recordRemovals o.membership.left seq (o.time p)
  { d with changes, history }.addVictims (o.change p d)

/-- To be told of an outage is to queue its change and to get on; the evictions apart, what follows
    is that of getting on. -/
theorem step_told (hp : p ∈ o.survivors) (hus : d.us = p) :
    (d.step (o.time p) (.membership o.membership)).1.domain =
        (o.queued p d).advance.domain ∧
      (d.step (o.time p) (.membership o.membership)).1.actions =
        o.membership.evictions.map .evict ++ (o.queued p d).advance.actions := by
  have hstay : o.membership.left.any (·.node == p) = false := by
    rw [List.any_eq_false]
    intro a ha hnode
    apply not_mem_failed hp
    rw [← eq_of_beq hnode]
    exact List.mem_map_of_mem ha
  have hstray : o.membership.stray? = none := by simp [Membership.stray?, o.joined_eq_nil]
  have hjoined (h : History) : h.ensureJoined p o.membership = h := by
    simp [History.ensureJoined, o.joined_eq_nil]
  simp only [Domain.step, Domain.changeMembers, hstay, Bool.and_false, Bool.false_eq_true,
    if_false, ChangeQueue.add, hstray, hus, hjoined]
  exact ⟨rfl, rfl⟩

theorem current_queued (hpending : d.changes.pending = []) :
    o.Current p order (o.queued p d) (o.change p d) where
  pending := by simp [queued, hpending]
  seq := by simp [queued, change, Change.ofMembership]
  createTime := rfl
  counts := rfl
  nodes := by simp [change, Change.ofMembership, o.joined_eq_nil, survivors]
  added m hm := by
    simp only [change, Change.ofMembership, o.joined_eq_nil, List.foldl_nil, List.mem_map] at hm
    obtain ⟨a, -, rfl⟩ := hm
    rfl
  started m hm hstarted := by
    simp only [change, Change.ofMembership, o.joined_eq_nil, List.foldl_nil, List.mem_map] at hm
    obtain ⟨a, -, rfl⟩ := hm
    cases hstarted

/-- The course of a survivor begins when it is told. -/
theorem course_queued (hpending : d.changes.pending = []) (hfencing : d.fencing = false) :
    o.Course p order (o.queued p d) [] 0 := by
  have hqueued : (o.queued p d).fencing = false := by simp [queued, hfencing]
  exact .waiting (current_queued hpending) rfl hqueued rfl rfl

/-- Once all have started, a START is for nothing any more. -/
theorem Current.receiveStart_eq_self {c : Change} (h : o.Current p order d c)
    (hall : c.allStarted = true) (s : ReceivedStart) (now : Seconds) :
    (d.receiveStart s now).1 = d := by
  apply Domain.receiveStart_of_not_describes h.pending
  rw [← Bool.not_eq_true]
  intro hdescribes
  have hawaits := ReceivedStart.awaits_of_describes hdescribes
  rw [Change.not_awaits_of_allStarted hall] at hawaits
  cases hawaits

namespace Course

/-- A START is counted by a survivor that waits for it; one that is through with the STARTs of all
    makes nothing of it. -/
theorem receiveStart (h : o.Course p order d said asked) {s : ReceivedStart}
    (hflags : startFlags? order s.sender = some s.flags) (now : Seconds) :
    o.Course p order (d.receiveStart s now).1 said asked := by
  have hsame : (d.receiveStart s now).1 = d →
      o.Course p order (d.receiveStart s now).1 said asked := by
    intro hsame
    rw [hsame]
    exact h
  cases h with
  | @waiting c current phase fencing said_eq asked_eq =>
    cases hdescribes : s.describes d.us d.history c with
    | false => exact hsame (Domain.receiveStart_of_not_describes current.pending hdescribes now)
    | true =>
      have hcurrent := current.receiveStart hflags hdescribes now
      refine .waiting hcurrent phase ?_ said_eq asked_eq
      obtain ⟨_, _, heq⟩ := d.receiveStart_eq s now
      rw [heq]
      exact fencing
  | @starting c start current phase fencing said_eq isStart asked_eq =>
    cases hdescribes : s.describes d.us d.history c with
    | false => exact hsame (Domain.receiveStart_of_not_describes current.pending hdescribes now)
    | true =>
      have hcurrent := current.receiveStart hflags hdescribes now
      refine .starting hcurrent phase ?_ said_eq isStart asked_eq
      obtain ⟨_, _, heq⟩ := d.receiveStart_eq s now
      rw [heq]
      exact fencing
  | @fencing c start rest current allStarted =>
    exact hsame (current.receiveStart_eq_self allStarted s now)
  | deferring pending => exact hsame (Domain.receiveStart_of_pending_nil pending now)
  | finished pending => exact hsame (Domain.receiveStart_of_pending_nil pending now)

/-- Who has said more than its START takes no START any more. -/
theorem receiveStart_eq_self (h : o.Course p order d said asked) {x : MessageFlags × Message}
    (hx : x ∈ said) (hkind : x.2.kind ≠ .start) (s : ReceivedStart) (now : Seconds) :
    (d.receiveStart s now).1 = d := by
  cases h with
  | waiting current phase fencing said_eq => simp [said_eq] at hx
  | starting current phase fencing said_eq isStart =>
    rw [said_eq, List.mem_singleton] at hx
    rw [hx] at hkind
    exact absurd isStart hkind
  | fencing current allStarted => exact current.receiveStart_eq_self allStarted s now
  | deferring pending => exact Domain.receiveStart_of_pending_nil pending now
  | finished pending => exact Domain.receiveStart_of_pending_nil pending now

/-- No message but a START touches the change. -/
theorem accept (h : o.Course p order d said asked) {m : Posted}
    (hflags : m.isStart = true → startFlags? order m.sender = some m.flags) (now : Seconds) :
    o.Course p order (d.accept m.envelope now).1 said asked := by
  unfold Domain.accept
  cases hmessage : m.message with
  | protocol offer =>
    simp only [Posted.envelope, hmessage]
    exact h
  | start report =>
    have hstart : m.isStart = true := by simp [Posted.isStart, hmessage, Message.kind]
    simp only [Posted.envelope, hmessage]
    exact h.receiveStart (hflags hstart) now
  | victimDone seq entry =>
    simp only [Posted.envelope, hmessage]
    obtain ⟨_, heq⟩ := d.receiveVictimDone_eq m.sender entry now
    rw [heq]
    exact h.of_eq rfl rfl rfl
  | complete report =>
    simp only [Posted.envelope, hmessage, Domain.receiveComplete]
    split <;> exact h.of_eq rfl rfl rfl
  | external victim =>
    simp only [Posted.envelope, hmessage]
    exact h.of_eq rfl rfl rfl

/-- The report about a victim is one more thing that a fencing master says. -/
theorem resolve (h : o.Course p order d said asked) (hfencing : d.fencing = true)
    (victim : NodeId) (how : Resolution) (reduced : Bool) (now : Seconds) :
    o.CourseAfter p order (d.resolve victim how reduced now) said asked ∧
      (d.resolve victim how reduced now).domain.Idle := by
  have hdomain := d.resolve_domain victim how reduced now
  have hfencing' : (d.resolve victim how reduced now).domain.fencing = true := by
    rw [hdomain]
    exact hfencing
  refine ⟨?_, Domain.idle_of_fencing hfencing'⟩
  cases h with
  | waiting _ _ fencing => simp [fencing] at hfencing
  | starting _ _ fencing => simp [fencing] at hfencing
  | @fencing c start rest current allStarted fencing elects master said_eq isStart reports asked_eq =>
    unfold CourseAfter
    rw [said_eq, asked_eq]
    have hcurrent : o.Current p order (d.resolve victim how reduced now).domain c := by
      apply current.of_changes_eq
      rw [hdomain]
    refine .fencing hcurrent allStarted hfencing' elects ?_ rfl isStart ?_ ?_
    · rw [hdomain]
      exact master
    · intro x hx
      obtain hx | hx := List.mem_append.1 hx
      · exact reports x hx
      · obtain ⟨n, seq, -, hreport⟩ := Domain.report_of_mem_sent_resolve hx
        rw [hreport]
        rfl
    · rw [Domain.countP_startsRun_resolve]
  | deferring _ _ fencing => simp [fencing] at hfencing
  | finished _ _ fencing => simp [fencing] at hfencing

/-- The end of its fencing run takes a master through with the change. -/
theorem finishFencing (h : o.Course p order d said asked) (hfencing : d.fencing = true) :
    o.CourseAfter p order d.finishFencing said asked ∧ d.finishFencing.domain.Idle := by
  have hpending : d.finishFencing.domain.changes.pending = [] := by
    simp [Domain.finishFencing, hfencing, Domain.retireCurrent]
  refine ⟨?_, Domain.idle_of_pending_nil hpending⟩
  cases h with
  | waiting _ _ fencing => simp [fencing] at hfencing
  | starting _ _ fencing => simp [fencing] at hfencing
  | @fencing c start rest current allStarted fencing elects master said_eq isStart reports asked_eq =>
    have hsent := Domain.sent_finishFencing fencing current.current?
    have hruns : d.finishFencing.actions.countP Action.startsRun = 0 := by
      simp [Domain.finishFencing, fencing, current.current?, Domain.completeAction,
        Action.startsRun]
    have hretired : o.Retired d.finishFencing.domain.changes := by
      unfold Domain.finishFencing
      rw [if_pos fencing]
      exact current.retired
    have hdomain : d.finishFencing.domain.fencing = false ∧ d.finishFencing.domain.master = p := by
      simp [Domain.finishFencing, fencing, Domain.retireCurrent, master]
    unfold CourseAfter
    rw [hsent, hruns, said_eq, asked_eq]
    refine .finished hpending hretired hdomain.1 elects hdomain.2 rfl isStart ?_ ?_ rfl
    · intro x hx
      obtain hx | hx := List.mem_append.1 hx
      · rw [reports x hx]
        exact MessageKind.noConfusion
      · rw [List.mem_singleton.1 hx]
        exact MessageKind.noConfusion
    · refine ⟨(d.reportFlags c {}, .complete (d.report c)), ?_, rfl⟩
      exact List.mem_append_right _ List.mem_cons_self
  | deferring _ _ fencing => simp [fencing] at hfencing
  | finished _ _ fencing => simp [fencing] at hfencing

end Course

/-- What a survivor takes down of a happening before it gets on: its domain then, and what it has
    heard then. -/
inductive Takes (o : Outage) (p : NodeId) (order : List Posted) (s : Survivor) :
    List Posted → Domain → Prop
  | told (untold : s.told = false) : Takes o p order s s.heard (o.queued p s.domain)
  | ring {node seq} (told : s.told = true) :
      Takes o p order s s.heard { s.domain with ringNode := node, ringSeq := seq }
  | cluster {now snapshot} (told : s.told = true)
      (keeps : s.domain.cluster.keeps snapshot o.survivors = true) :
      Takes o p order s s.heard
        { s.domain with
          cluster := s.domain.cluster.update snapshot now
          history := s.domain.cluster.updateHistory snapshot s.domain.history now }
  | heard {now m} (told : s.told = true) (next : order[s.heard.length]? = some m) :
      Takes o p order s (s.heard ++ [m]) (s.domain.accept m.envelope now).1

end Outage

namespace Episode

/-- What a happening can come to: nothing, a message in its place, or a survivor that gets on, deals
    with a victim or is through with fencing. -/
inductive Moved (o : Outage) (e : Episode) : Episode → Prop
  | idle : Moved o e e
  | placed {p flags message rest} (mem : p ∈ o.survivors)
      (outbox : (e.site p).outbox = (flags, message) :: rest) :
      Moved o e (e.place p flags message rest)
  | takes {p heard d} (mem : p ∈ o.survivors) (takes : o.Takes p e.order (e.site p) heard d) :
      Moved o e (e.react p heard d.advance)
  | resolved {p now victim how reduced} (mem : p ∈ o.survivors)
      (told : (e.site p).told = true) (fencing : (e.site p).domain.fencing = true)
      (isOpen : (e.site p).domain.victims.isOpen victim = true) :
      Moved o e
        (e.react p (e.site p).heard ((e.site p).domain.resolve victim how reduced now))
  | finished {p} (mem : p ∈ o.survivors) (told : (e.site p).told = true)
      (fencing : (e.site p).domain.fencing = true)
      (resolved : (e.site p).domain.victims.toList.all (·.resolvedHere) = true) :
      Moved o e (e.react p (e.site p).heard (e.site p).domain.finishFencing)

/-- Of a reaction only the domain, the messages and the fencing runs asked for matter. -/
theorem react_congr {e : Episode} {p : NodeId} {heard : List Posted} {r r' : Reaction}
    (hdomain : r.domain = r'.domain) (hsent : Action.sent r.actions = Action.sent r'.actions)
    (hruns : r.actions.countP Action.startsRun = r'.actions.countP Action.startsRun) :
    e.react p heard r = e.react p heard r' := by
  unfold react
  rw [hdomain, hsent, hruns]

theorem moved_move {o : Outage} {e : Episode}
    (hus : ∀ p ∈ o.survivors, (e.site p).domain.us = p) (p : NodeId) (now : Seconds)
    (happening : Happening) : Moved o e (e.move o p now happening) := by
  unfold move
  by_cases hmem : p ∈ o.survivors
  · rw [if_neg (not_not_intro hmem)]
    cases happening with
    | told =>
      dsimp only
      split
      · exact .idle
      · rename_i htold
        obtain ⟨hdomain, hactions⟩ := Outage.step_told hmem (hus p hmem)
        have hact : e.act p (e.site p).heard (o.time p) (.membership o.membership) =
            e.react p (e.site p).heard (o.queued p (e.site p).domain).advance := by
          apply react_congr hdomain
          · rw [hactions, Action.sent_append, Action.sent_evict, List.nil_append]
          · rw [hactions, List.countP_append, Action.countP_startsRun_evict, Nat.zero_add]
        rw [hact]
        exact .takes hmem (.told (by simpa using htold))
    | ring node seq =>
      dsimp only
      split
      · exact .takes hmem (.ring ‹_›)
      · exact .idle
    | cluster snapshot =>
      dsimp only
      split
      · rename_i hguard
        rw [Bool.and_eq_true] at hguard
        exact .takes hmem (.cluster hguard.1 hguard.2)
      · exact .idle
    | placed =>
      dsimp only
      split
      · exact .idle
      · exact .placed hmem ‹_›
    | hears =>
      dsimp only
      split
      · exact .idle
      · split
        · exact .takes hmem (.heard ‹_› ‹_›)
        · exact .idle
    | resolves victim how reduced =>
      dsimp only
      split
      · rename_i hguard
        rw [Bool.and_eq_true, Bool.and_eq_true] at hguard
        exact .resolved hmem hguard.1.1 hguard.1.2 hguard.2
      · exact .idle
    | finishes =>
      dsimp only
      split
      · rename_i hguard
        rw [Bool.and_eq_true, Bool.and_eq_true] at hguard
        exact .finished hmem hguard.1.1 hguard.1.2 hguard.2
      · exact .idle
  · rw [if_pos hmem]
    exact .idle

end Episode

end ClusterFence
