import ClusterFence.Proofs.Domain.Refusal
import ClusterFence.Proofs.Episode.Reporting

namespace ClusterFence

/-- The survivor knows who fences: it does so itself, or it is through with the change. -/
def Survivor.Settled (s : Survivor) : Prop :=
  s.told = true ∧ (s.domain.fencing = true ∨ s.domain.changes.pending = [])

namespace Outage

/-- Nothing is left to happen by itself. All survivors were told and have heard all that was said,
    the conditions are met everywhere, and no fencing is outstanding. -/
structure Quiet (o : Outage) (e : Episode) : Prop where
  told : ∀ p ∈ o.survivors, (e.site p).told = true
  placed : ∀ p ∈ o.survivors, (e.site p).outbox = []
  heard : ∀ p ∈ o.survivors, (e.site p).heard = e.order
  conditions : ∀ p ∈ o.survivors, (e.site p).domain.conditionsMet = true
  fenced : ∀ p ∈ o.survivors, (e.site p).domain.fencing = false

/-- The outage was handled everywhere: `master` fenced, every survivor is through with the change
    and has no victims, and all have the same record of how each failed node was dealt with. -/
structure HandledBy (o : Outage) (e : Episode) (master : NodeId) : Prop where
  mem : master ∈ o.survivors
  fencers : e.fencers = [master]
  agreed : ∀ p ∈ o.survivors, (e.site p).domain.master = master
  pending : ∀ p ∈ o.survivors, (e.site p).domain.changes.pending = []
  retired : ∀ p ∈ o.survivors, o.Retired (e.site p).domain.changes
  victims : ∀ p ∈ o.survivors, (e.site p).domain.victims.ids = []
  fenced : ∀ f ∈ o.failed, ∃ how time, ∀ p ∈ o.survivors,
    (e.site p).domain.history.Holds f fun n =>
      n.fenceMaster = master ∧ n.fenceHow = how ∧ n.fenceTime = time

/-- What holds at every moment of an episode that began with the given domains. When nothing is left
    to happen, the outage was handled, if nothing was in its way at any survivor. -/
structure HandledOnce (o : Outage) (domains : NodeId → Domain) (e : Episode) : Prop where
  once : e.fencers.length ≤ 1
  survivors : ∀ p ∈ e.fencers, p ∈ o.survivors
  agree : ∀ p ∈ o.survivors, ∀ q ∈ o.survivors, (e.site p).Settled → (e.site q).Settled →
    (e.site p).domain.master = (e.site q).domain.master
  obeyed : ∀ p ∈ e.fencers, ∀ q ∈ o.survivors, (e.site q).Settled → (e.site q).domain.master = p
  kept : ∀ p ∈ o.survivors, (e.site p).told = true → ∀ f ∈ o.failed,
    (e.site p).domain.victims.isOpen f = true ∨ ∃ q ∈ e.fencers, Reported (e.said q) f
  everywhere : o.Quiet e → (∀ p ∈ o.survivors, o.Clear (domains p)) →
    ∃ master, o.HandledBy e master

/-- Every survivor is on its course, misses nothing that counts, and forgets no failed node. -/
structure Sound (o : Outage) (domains : NodeId → Domain) (e : Episode) : Prop where
  orderly : o.Orderly domains e
  attentive : ∀ q ∈ o.survivors, o.Attentive q (o.Clear (domains q)) (e.site q) (e.said q)
  dealt : ∀ q ∈ o.survivors, (e.site q).told = true →
    o.Dealt q (e.site q).domain (e.site q).heard (e.said q)

/-- Among the messages is a report that the node was dealt with so. -/
def Informs (heard : List Posted) (node : NodeId) (fenced : NodeId × UInt32 × Seconds) : Prop :=
  ∃ m ∈ heard, ∃ seq entry, m.message = .victimDone seq entry ∧ entry.node = node ∧
    entry.fenced = fenced

variable {o : Outage} {p : NodeId} {order : List Posted} {d : Domain} {c : Change}
  {said : List (MessageFlags × Message)} {asked : Nat} {domains : NodeId → Domain} {e e' : Episode}

theorem Sound.new (hready : ∀ p ∈ o.survivors, o.Ready p (domains p)) :
    o.Sound domains (.new domains) where
  orderly := .new hready
  attentive q hq := by
    refine ⟨(hready q hq).recorded, ?_, ?_⟩
    · intro x hx
      cases hx
    · intro htold
      cases htold
  dealt q hq htold := by cases htold

theorem Sound.moved (hready : ∀ p ∈ o.survivors, o.Ready p (domains p)) (h : o.Sound domains e)
    (hmoved : e.Moved o e') : o.Sound domains e' where
  orderly := h.orderly.moved hready hmoved
  attentive := Attentive.moved hready h.orderly h.attentive hmoved
  dealt := Dealt.moved hready h.orderly h.attentive h.dealt hmoved

theorem Sound.play (hready : ∀ p ∈ o.survivors, o.Ready p (domains p))
    (moves : List (NodeId × Seconds × Happening)) :
    o.Sound domains ((Episode.new domains).play o moves) := by
  refine Episode.play_induction ?_ (Sound.new hready) moves
  intro e p now happening h
  exact h.moved hready (Episode.moved_move h.orderly.us p now happening)

theorem Current.allStarted_of_not_awaits (h : o.Current p order d c)
    (hnone : ∀ q ∈ o.survivors, c.awaits q = false) : c.allStarted = true := by
  have hnodup : (c.members.map (·.node)).Nodup := by
    have hall := o.nodup
    rw [List.map_append, List.nodup_append] at hall
    rw [h.nodes]
    exact hall.1
  apply Change.allStarted_of_not_awaits hnodup
  intro m hm
  exact hnone m.node (h.mem_survivors hm)

namespace Course

/-- A survivor that has nothing to get on with, though the conditions are met, has started. -/
theorem exists_start (h : o.Course p order d said asked) (hidle : d.Idle)
    (hmet : d.conditionsMet = true) : ∃ x ∈ said, x.2.kind = .start := by
  cases h with
  | waiting current phase fencing =>
    exact absurd hidle (Domain.not_idle_of_conditionsMet fencing current.current? phase hmet)
  | starting current phase fencing said_eq isStart =>
    rw [said_eq]
    exact ⟨_, List.mem_cons_self, isStart⟩
  | fencing current allStarted fencing elects master said_eq isStart =>
    rw [said_eq]
    exact ⟨_, List.mem_cons_self, isStart⟩
  | deferring pending retired fencing elects other said_eq isStart =>
    rw [said_eq]
    exact ⟨_, List.mem_cons_self, isStart⟩
  | finished pending retired fencing elects master said_eq isStart =>
    rw [said_eq]
    exact ⟨_, List.mem_cons_self, isStart⟩

/-- A survivor that knows who fences knows the elected one. -/
theorem elects_master (h : o.Course p order d said asked)
    (hsettled : d.fencing = true ∨ d.changes.pending = []) : o.Elects order d.master := by
  cases h with
  | waiting current _ fencing => simp [fencing, current.pending] at hsettled
  | starting current _ fencing => simp [fencing, current.pending] at hsettled
  | fencing current allStarted fencing elects master =>
    rw [master]
    exact elects
  | deferring pending retired fencing elects => exact elects
  | finished pending retired fencing elects master =>
    rw [master]
    exact elects

/-- A survivor that is neither waiting nor fencing is through with the change, and if it is the
    master it has said so. -/
theorem through (h : o.Course p order d said asked) (hidle : d.Idle)
    (hmet : d.conditionsMet = true) (hfencing : d.fencing = false)
    (hstarted : ∀ c ∈ d.changes.pending, c.allStarted = true) :
    d.changes.pending = [] ∧ o.Retired d.changes ∧ o.Elects order d.master ∧
      (d.master = p → ∃ x ∈ said, x.2.kind = .complete) := by
  cases h with
  | waiting current phase fencing =>
    exact absurd hidle (Domain.not_idle_of_conditionsMet fencing current.current? phase hmet)
  | @starting c start current phase fencing =>
    have hall := hstarted c (by simp [current.pending])
    exact absurd hidle (Domain.not_idle_of_allStarted fencing current.current? phase hall)
  | fencing _ _ fencing => simp [fencing] at hfencing
  | deferring pending retired fencing elects other =>
    exact ⟨pending, retired, elects, fun hmaster => absurd hmaster other⟩
  | finished pending retired fencing elects master said_eq isStart others complete =>
    obtain ⟨x, hx, hcomplete⟩ := complete
    rw [said_eq, master]
    exact ⟨pending, retired, elects, fun _ => ⟨x, List.mem_cons_of_mem _ hx, hcomplete⟩⟩

end Course

namespace Dealt

variable {heard : List Posted} {master f : NodeId} {how : UInt32} {time : Seconds}

/-- Who has heard reports about all failed nodes has no victims left. -/
theorem ids_victims_eq_nil (h : o.Dealt p d heard said)
    (hreported : ∀ f ∈ o.failed, ∃ how time, Informs heard f (master, how, time)) :
    d.victims.ids = [] := by
  rw [List.eq_nil_iff_forall_not_mem]
  intro f hf
  obtain ⟨how, time, m, hm, seq, entry, hreport, hnode, -⟩ := hreported f (h.failed f hf)
  apply h.gone m hm seq entry hreport
  rw [hnode]
  exact hf

/-- Who has heard a report knows how the node was dealt with. -/
theorem holds_of_informs (h : o.Dealt p d heard said)
    (hinforms : Informs heard f (master, how, time)) :
    d.history.Holds f fun n => n.fenceMaster = master ∧ n.fenceHow = how ∧ n.fenceTime = time := by
  obtain ⟨m, hm, seq, entry, hreport, hnode, hentry⟩ := hinforms
  obtain ⟨n, hn, hfenced⟩ := h.noted m hm seq entry hreport
  rw [hnode] at hn
  refine ⟨n, hn, ?_⟩
  rw [hentry] at hfenced
  unfold NodeHistory.fenced at hfenced
  rw [Prod.mk.injEq, Prod.mk.injEq] at hfenced
  exact hfenced

end Dealt

namespace Sound

variable (h : o.Sound domains e)

include h

theorem agree {q : NodeId} (hp : p ∈ o.survivors) (hq : q ∈ o.survivors)
    (hsettled : (e.site p).Settled) (hsettled' : (e.site q).Settled) :
    (e.site p).domain.master = (e.site q).domain.master := by
  obtain ⟨htold, hthrough⟩ := hsettled
  obtain ⟨htold', hthrough'⟩ := hsettled'
  have helects := (h.orderly.course p hp htold).elects_master hthrough
  exact helects.unique ((h.orderly.course q hq htold').elects_master hthrough')

theorem obeyed {q : NodeId} (hp : p ∈ e.fencers) (hq : q ∈ o.survivors)
    (hsettled : (e.site q).Settled) : (e.site q).domain.master = p := by
  obtain ⟨htold, hthrough⟩ := hsettled
  have helects := (h.orderly.course q hq htold).elects_master hthrough
  exact helects.unique (h.orderly.elects_of_mem_fencers hp)

/-- A failed node stays an open victim until the master has reported it. -/
theorem kept (hp : p ∈ o.survivors) (htold : (e.site p).told = true) {f : NodeId}
    (hf : f ∈ o.failed) :
    (e.site p).domain.victims.isOpen f = true ∨ ∃ q ∈ e.fencers, Reported (e.said q) f := by
  have hfencer : ∀ q ∈ o.survivors, Reported (e.said q) f →
      ∃ q ∈ e.fencers, Reported (e.said q) f := by
    intro q hq ⟨x, hx, seq, entry, hreport, hnode⟩
    refine ⟨q, h.orderly.mem_fencers_of_said hq hx ?_, x, hx, seq, entry, hreport, hnode⟩
    rw [hreport]
    exact MessageKind.noConfusion
  obtain hopen | hreported | ⟨m, hm, -, hsettles⟩ := (h.dealt p hp htold).pending f hf
  · exact .inl hopen
  · exact .inr (hfencer p hp hreported)
  · have hm' := (h.orderly.heard p).subset hm
    have hsaid := Episode.mem_said_of_mem_order hm'
    have hsender := h.orderly.senders m hm'
    apply Or.inr
    apply hfencer m.sender hsender
    obtain ⟨seq, entry, hreport, hnode⟩ | hcomplete := hsettles
    · exact ⟨_, hsaid, seq, entry, hreport, hnode⟩
    · have htold' := h.orderly.told_of_said hsender hsaid
      exact (h.dealt m.sender hsender htold').complete ⟨_, hsaid, hcomplete⟩ f hf

/-- When nothing is left to happen, all START messages were counted, and nobody waits any more. -/
theorem through (hquiet : o.Quiet e)
    (hclear : ∀ p ∈ o.survivors, o.Clear (domains p)) (hp : p ∈ o.survivors) :
    (e.site p).domain.changes.pending = [] ∧ o.Retired (e.site p).domain.changes ∧
      o.Elects e.order (e.site p).domain.master ∧
        ((e.site p).domain.master = p → ∃ x ∈ e.said p, x.2.kind = .complete) := by
  have hcourse (q : NodeId) (hq : q ∈ o.survivors) := h.orderly.course q hq (hquiet.told q hq)
  have hidle (q : NodeId) (hq : q ∈ o.survivors) := h.orderly.idle q hq (hquiet.told q hq)
  -- every survivor has said its START, so every survivor has heard it and counted its sender
  have hheard : ∀ q ∈ o.survivors, ∃ m ∈ e.order, m.sender = q ∧ m.isStart = true := by
    intro q hq
    obtain ⟨x, hx, hkind⟩ := (hcourse q hq).exists_start (hidle q hq) (hquiet.conditions q hq)
    have horder := Episode.mem_order_of_mem_said (hquiet.placed q hq) hx
    exact ⟨_, horder, rfl, beq_iff_eq.2 hkind⟩
  apply (hcourse p hp).through (hidle p hp) (hquiet.conditions p hp) (hquiet.fenced p hp)
  intro c hc
  obtain ⟨c', current⟩ | hpending := (hcourse p hp).current_or_nil
  · rw [current.pending, List.mem_singleton] at hc
    rw [hc]
    apply current.allStarted_of_not_awaits
    intro q hq
    obtain ⟨m, hm, hsender, hstart⟩ := hheard q hq
    have hcounted := (h.attentive p hp).counted (hquiet.told p hp) (hclear p hp) c'
      (by simp [current.pending]) m
    rw [hquiet.heard p hp, hsender] at hcounted
    exact hcounted hm hstart
  · rw [hpending] at hc
    cases hc

/-- What a master has reported by the time of its COMPLETE is in the order, once all it has said
    is. -/
theorem informs {master : NodeId} (hmem : master ∈ o.survivors)
    (htold : (e.site master).told = true) (hplaced : (e.site master).outbox = [])
    (hcomplete : ∃ x ∈ e.said master, x.2.kind = .complete) {f : NodeId} (hf : f ∈ o.failed) :
    ∃ how time, Informs e.order f (master, how, time) := by
  have hdealt := h.dealt master hmem htold
  obtain ⟨x, hx, seq, entry, hreport, hnode⟩ := hdealt.complete hcomplete f hf
  have hmaster := (hdealt.own x hx seq entry hreport).2.1
  have horder := Episode.mem_order_of_mem_said hplaced hx
  refine ⟨entry.fenceHow, entry.fenceTime, _, horder, seq, entry, hreport, hnode, ?_⟩
  rw [← hmaster]
  rfl

/-- When nothing is left to happen, the outage was handled everywhere, if nothing was in its way. -/
theorem everywhere (hquiet : o.Quiet e) (hclear : ∀ p ∈ o.survivors, o.Clear (domains p)) :
    ∃ master, o.HandledBy e master := by
  obtain ⟨first, hfirst⟩ : ∃ first, first ∈ o.survivors := by
    apply List.exists_mem_of_ne_nil
    unfold survivors
    rw [ne_eq, List.map_eq_nil_iff]
    exact o.survivors_ne_nil
  have hthrough (p : NodeId) (hp : p ∈ o.survivors) := h.through hquiet hclear hp
  obtain ⟨-, -, helects, -⟩ := hthrough first hfirst
  generalize (e.site first).domain.master = master at helects
  have hmem := helects.mem
  have hagreed : ∀ p ∈ o.survivors, (e.site p).domain.master = master := by
    intro p hp
    exact (hthrough p hp).2.2.1.unique helects
  have hcomplete := (hthrough master hmem).2.2.2 (hagreed master hmem)
  have hfencer : master ∈ e.fencers := by
    obtain ⟨x, hx, hkind⟩ := hcomplete
    apply h.orderly.mem_fencers_of_said hmem hx
    rw [hkind]
    exact MessageKind.noConfusion
  have hinforms (f : NodeId) (hf : f ∈ o.failed) :=
    h.informs hmem (hquiet.told master hmem) (hquiet.placed master hmem) hcomplete hf
  have hdealt (p : NodeId) (hp : p ∈ o.survivors) :
      o.Dealt p (e.site p).domain e.order (e.said p) := by
    rw [← hquiet.heard p hp]
    exact h.dealt p hp (hquiet.told p hp)
  refine ⟨master, hmem, h.orderly.fencers_eq hfencer, hagreed, ?_, ?_, ?_, ?_⟩
  · exact fun p hp => (hthrough p hp).1
  · exact fun p hp => (hthrough p hp).2.1
  · exact fun p hp => (hdealt p hp).ids_victims_eq_nil hinforms
  · intro f hf
    obtain ⟨how, time, hreport⟩ := hinforms f hf
    exact ⟨how, time, fun p hp => (hdealt p hp).holds_of_informs hreport⟩

theorem handledOnce : o.HandledOnce domains e where
  once := h.orderly.length_fencers_le
  survivors := h.orderly.fencers
  agree _ hp _ hq hsettled hsettled' := h.agree hp hq hsettled hsettled'
  obeyed _ hp _ hq hsettled := h.obeyed hp hq hsettled
  kept _ hp htold _ hf := h.kept hp htold hf
  everywhere := h.everywhere

end Sound

/-- An outage is handled once, and everywhere if nothing is in its way at any survivor, whatever the
    pace of the survivors. -/
theorem handledOnce_play (o : Outage) (domains : NodeId → Domain)
    (hready : ∀ p ∈ o.survivors, o.Ready p (domains p))
    (moves : List (NodeId × Seconds × Happening)) :
    o.HandledOnce domains ((Episode.new domains).play o moves) :=
  (Sound.play hready moves).handledOnce

/-- The quorum service lists three nodes, some of them as members. -/
def listing (ringSeq : UInt32) (members : List NodeId) : ClusterSnapshot where
  quorate := true
  ringSeq := ringSeq
  nodes := [⟨1, "node1", members.contains 1, 1⟩, ⟨2, "node2", members.contains 2, 1⟩,
    ⟨3, "node3", members.contains 3, 1⟩]

/-- Three nodes have joined together. -/
def joinedTogether (node : NodeId) : Domain :=
  let nodes : List GroupAddress := [⟨1, .join⟩, ⟨2, .join⟩, ⟨3, .join⟩]
  let report : ChangeReport :=
    { seq := 1
      summary := { counts := { members := 3, joined := 3 } }
      entries := [{ node := 1, flags := NodeEntry.memberFlag },
        { node := 2, flags := NodeEntry.memberFlag }, { node := 3, flags := NodeEntry.memberFlag }] }
  let start (sender : NodeId) : DomainInput :=
    .message ⟨{ sender, flags := .joining }, .start report⟩
  (Domain.new { Config.forNode node "node" with domain := { cleanStart := true } }).play
    [(100, .cluster (listing 1 [1, 2, 3])), (100, .ring 1 1),
     (101, .membership { members := nodes, left := [], joined := nodes }), (102, start 1),
     (103, start 2), (104, start 3), (105, .finished)]

/-- The third of them goes down. -/
def thirdDown : Outage where
  membership :=
    { members := [⟨1, .join⟩, ⟨2, .join⟩], left := [⟨3, .nodeDown⟩], joined := [] }
  time := fun _ => 110
  survivors_ne_nil := by decide
  failed_ne_nil := by decide
  joined_eq_nil := rfl
  nodeDown := by decide
  nodup := by decide

/-- Node 1 is quick, node 2 takes its time, and node 1 fences the third. -/
def thirdFenced : List (NodeId × Seconds × Happening) :=
  let gone := Happening.cluster (listing 2 [1, 2])
  [(1, 110, .told), (2, 110, .told), (1, 111, .ring 1 2), (1, 111, gone), (1, 112, .placed),
   (1, 113, .hears), (2, 114, gone), (2, 114, .ring 1 2), (2, 115, .placed), (1, 116, .hears),
   (2, 117, .hears), (1, 118, .resolves 3 .agent false), (1, 118, .placed), (1, 118, .finishes),
   (2, 119, .hears), (1, 119, .placed), (1, 119, .hears), (1, 119, .hears), (2, 120, .hears),
   (2, 120, .hears)]

theorem mem_survivors_thirdDown (hp : p ∈ thirdDown.survivors) : p = 1 ∨ p = 2 := by
  have hsurvivors : thirdDown.survivors = [1, 2] := rfl
  simpa [hsurvivors] using hp

theorem mem_failed_thirdDown (hp : p ∈ thirdDown.failed) : p = 3 := by
  have hfailed : thirdDown.failed = [3] := rfl
  simpa [hfailed] using hp

theorem ready_thirdDown {d : Domain}
    (hreachable : ∃ config inputs, d = (Domain.new config).play inputs)
    (hstate : d.us = p ∧ d.changes.pending = [] ∧ d.fencing = false ∧ d.victims.toList = [])
    (hfirst : d.history.Holds 1 (·.NotAfter 110 d.changes.changeSeq))
    (hsecond : d.history.Holds 2 (·.NotAfter 110 d.changes.changeSeq))
    (hthird : d.history.Holds 3 (·.NotAfter 110 d.changes.changeSeq)) : thirdDown.Ready p d where
  reachable := hreachable
  us := hstate.1
  pending := hstate.2.1
  fencing := hstate.2.2.1
  victims := hstate.2.2.2
  known q hq := by
    obtain hq | hq := List.mem_append.1 hq
    · obtain rfl | rfl := mem_survivors_thirdDown hq
      · exact hfirst
      · exact hsecond
    · cases mem_failed_thirdDown hq
      exact hthird

theorem ready_joinedTogether :
    ∀ p ∈ thirdDown.survivors, thirdDown.Ready p (joinedTogether p) := by
  intro p hp
  apply ready_thirdDown ⟨_, _, rfl⟩ <;>
    obtain rfl | rfl := mem_survivors_thirdDown hp <;> decide +kernel

theorem clear_joinedTogether :
    ∀ p ∈ thirdDown.survivors, thirdDown.Clear (joinedTogether p) := by
  intro p hp
  refine ⟨?_, ?_⟩
  · obtain rfl | rfl := mem_survivors_thirdDown hp <;> decide +kernel
  · intro q hq
    obtain rfl | rfl := mem_survivors_thirdDown hp <;>
      obtain rfl | rfl := mem_survivors_thirdDown hq <;> decide +kernel

/-- Two survivors get through the failure of the third. -/
theorem handledOnce_play_thirdFenced :
    (∀ p ∈ thirdDown.survivors, thirdDown.Ready p (joinedTogether p)) ∧
      (∀ p ∈ thirdDown.survivors, thirdDown.Clear (joinedTogether p)) ∧
      thirdDown.Quiet ((Episode.new joinedTogether).play thirdDown thirdFenced) ∧
      ∃ master, thirdDown.HandledBy ((Episode.new joinedTogether).play thirdDown thirdFenced)
        master := by
  have hready := ready_joinedTogether
  have hquiet : thirdDown.Quiet ((Episode.new joinedTogether).play thirdDown thirdFenced) := by
    constructor <;> intro p hp <;>
      obtain rfl | rfl := mem_survivors_thirdDown hp <;> decide +kernel
  have hclear := clear_joinedTogether
  have honce := handledOnce_play thirdDown joinedTogether hready thirdFenced
  exact ⟨hready, hclear, hquiet, honce.everywhere hquiet hclear⟩

/-- All premises hold and nothing is left to happen, but nobody has asked for a fencing run, and all
    failed nodes are still to be dealt with. -/
structure Unhandled (o : Outage) (domains : NodeId → Domain) (e : Episode) : Prop where
  ready : ∀ p ∈ o.survivors, o.Ready p (domains p)
  started : ∀ p ∈ o.survivors, (domains p).changes.startedCount ≠ 0
  quiet : o.Quiet e
  fencers : e.fencers = []
  victims : ∀ p ∈ o.survivors, ∀ f ∈ o.failed, (e.site p).domain.victims.isOpen f = true

/-- Three nodes have joined together, and of the numbers of changes all but one are used up. -/
def lastNumbered (node : NodeId) : Domain := (joinedTogether node).numbered 4294967295

theorem ready_lastNumbered :
    ∀ p ∈ thirdDown.survivors, thirdDown.Ready p (lastNumbered p) := by
  intro p hp
  obtain ⟨config, inputs, hreachable⟩ := (ready_joinedTogether p hp).reachable
  have hseq : (joinedTogether p).changes.changeSeq + .ofNat 4294967294 = 4294967295 := by
    obtain rfl | rfl := mem_survivors_thirdDown hp <;> decide +kernel
  have hrefused : lastNumbered p = (Domain.new config).play
      (inputs ++ List.replicate 4294967294 (106, Domain.strayAlone 4)) := by
    rw [Domain.play_append, ← hreachable, Domain.play_strayAlone, hseq]
    rfl
  apply ready_thirdDown ⟨_, _, hrefused⟩ <;>
    obtain rfl | rfl := mem_survivors_thirdDown hp <;> decide +kernel

/-- Three nodes have joined together, and the quorum service of one of the first two has lost the
    other. -/
def outOfSight (node : NodeId) : Domain :=
  (joinedTogether node).play [(106, .cluster (listing 1 [node, 3]))]

theorem ready_outOfSight :
    ∀ p ∈ thirdDown.survivors, thirdDown.Ready p (outOfSight p) := by
  intro p hp
  obtain ⟨config, inputs, hreachable⟩ := (ready_joinedTogether p hp).reachable
  have hlost : outOfSight p =
      (Domain.new config).play (inputs ++ [(106, .cluster (listing 1 [p, 3]))]) := by
    rw [Domain.play_append, ← hreachable]
    rfl
  apply ready_thirdDown ⟨_, _, hlost⟩ <;>
    obtain rfl | rfl := mem_survivors_thirdDown hp <;> decide +kernel

/-- The two survivors are told and hear each other's START. -/
def bothStarted : List (NodeId × Seconds × Happening) :=
  let gone := Happening.cluster (listing 2 [1, 2])
  [(1, 110, .told), (2, 110, .told), (1, 111, .ring 1 2), (1, 111, gone), (2, 111, .ring 1 2),
   (2, 111, gone), (1, 112, .placed), (2, 112, .placed), (1, 113, .hears), (1, 113, .hears),
   (2, 113, .hears), (2, 113, .hears)]

theorem unhandled_thirdDown {domains : NodeId → Domain} {e : Episode}
    (hready : ∀ p ∈ thirdDown.survivors, thirdDown.Ready p (domains p)) (hfencers : e.fencers = [])
    (hwaits : ∀ p, p = 1 ∨ p = 2 →
      (domains p).changes.startedCount ≠ 0 ∧ (e.site p).told = true ∧ (e.site p).outbox = [] ∧
        (e.site p).heard = e.order ∧ (e.site p).domain.conditionsMet = true ∧
          (e.site p).domain.fencing = false ∧ (e.site p).domain.victims.isOpen 3 = true) :
    thirdDown.Unhandled domains e := by
  have hsurvivor (p : NodeId) (hp : p ∈ thirdDown.survivors) := hwaits p (mem_survivors_thirdDown hp)
  refine ⟨hready, fun p hp => (hsurvivor p hp).1, ⟨?_, ?_, ?_, ?_, ?_⟩, hfencers, ?_⟩
  · exact fun p hp => (hsurvivor p hp).2.1
  · exact fun p hp => (hsurvivor p hp).2.2.1
  · exact fun p hp => (hsurvivor p hp).2.2.2.1
  · exact fun p hp => (hsurvivor p hp).2.2.2.2.1
  · exact fun p hp => (hsurvivor p hp).2.2.2.2.2.1
  · intro p hp f hf
    rw [mem_failed_thirdDown hf]
    exact (hsurvivor p hp).2.2.2.2.2.2

theorem unhandled_lastNumbered :
    thirdDown.Unhandled lastNumbered
      ((Episode.new lastNumbered).play thirdDown bothStarted) := by
  refine unhandled_thirdDown ready_lastNumbered (by decide +kernel) ?_
  rintro p (rfl | rfl) <;> decide +kernel

theorem unhandled_outOfSight :
    thirdDown.Unhandled outOfSight ((Episode.new outOfSight).play thirdDown bothStarted) := by
  refine unhandled_thirdDown ready_outOfSight (by decide +kernel) ?_
  rintro p (rfl | rfl) <;> decide +kernel

/-- Whether an outage is handled does depend on what came before: a START counts neither for a change
    whose number is zero again, nor if its sender comes back to the cluster only after the change.
    Then everybody waits, and nobody fences. -/
theorem not_always_handled :
    thirdDown.Unhandled lastNumbered ((Episode.new lastNumbered).play thirdDown bothStarted) ∧
      thirdDown.Unhandled outOfSight ((Episode.new outOfSight).play thirdDown bothStarted) ∧
      ¬ ∀ (o : Outage) (domains : NodeId → Domain) (moves : List (NodeId × Seconds × Happening)),
        (∀ p ∈ o.survivors, o.Ready p (domains p) ∧ (domains p).changes.startedCount ≠ 0) →
          o.Quiet ((Episode.new domains).play o moves) →
            ∃ master, o.HandledBy ((Episode.new domains).play o moves) master := by
  refine ⟨unhandled_lastNumbered, unhandled_outOfSight, ?_⟩
  intro hhandled
  have hpremises : ∀ p ∈ thirdDown.survivors,
      thirdDown.Ready p (lastNumbered p) ∧ (lastNumbered p).changes.startedCount ≠ 0 :=
    fun p hp => ⟨ready_lastNumbered p hp, unhandled_lastNumbered.started p hp⟩
  obtain ⟨master, hmaster⟩ := hhandled thirdDown lastNumbered bothStarted hpremises
    unhandled_lastNumbered.quiet
  have hfencers := hmaster.fencers
  rw [unhandled_lastNumbered.fencers] at hfencers
  cases hfencers

end Outage

end ClusterFence
