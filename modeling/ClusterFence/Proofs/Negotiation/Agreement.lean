import ClusterFence.Proofs.Negotiation.Log

namespace ClusterFence

open LogEntry

/-- The group as a daemon sees it goes by the entries that the daemon has taken up. It runs the
    first version that it has heard, and holds the offers of those only whom it has heard. -/
structure DaemonGroup.Reflects (g : DaemonGroup) (node : NodeId) (heard : List LogEntry) :
    Prop where
  coherent : g.Coherent
  members : g.members = lastMembers heard
  version : g.ours.version? = firstHeard? node heard
  wellFormed : g.ours.WellFormed
  isSet_of_isStateful : g.ours.run.isStateful = true → g.ours.run.isSet = true
  held : ∀ other, (g.offer? other).isSome = true → Heard node heard other

/-- A member at its seat: it has not been added again since the entries that it has taken up, and
    what it has sent can get into the log. -/
structure Seat.Faithful (s : Seat) (node : NodeId) (log : List LogEntry) : Prop where
  reflects : s.group.Reflects node (log.take s.next)
  next_le : s.next ≤ log.length
  stays : ∀ e ∈ log.drop s.next, e.adds node = false
  outbox : ∀ sent ∈ s.outbox, (LogEntry.offer node sent.1 sent.2).Follows log

namespace Assembly

/-- Something that happens: a delivery, a membership change, or a daemon that runs a version gains
    state. -/
inductive Move where
  | delivery (d : Delivery)
  | membership (members : List NodeId) (highest : NodeId → PositiveVersion)
      (moment : NodeId → Moment)
  | stateful (node : NodeId)

def move (a : Assembly) : Move → Assembly
  | .delivery d => a.deliver d
  | .membership members highest moment => a.changeMembers members highest moment
  | .stateful node =>
    if (a.seat node).group.running?.isSome then
      a.put node { a.seat node with group := (a.seat node).group.setStateful }
    else a

/-- The assembly after moves. -/
def play (a : Assembly) (moves : List Move) : Assembly := moves.foldl move a

/-- The log is sound, and every member goes by what it has taken up of it. -/
structure Faithful (a : Assembly) : Prop where
  sound : Sound a.log
  seats : ∀ node ∈ a.members, (a.seat node).Faithful node a.log

end Assembly

section

variable {node : NodeId} {log heard : List LogEntry} {e : LogEntry}

namespace DaemonGroup

variable {g g' : DaemonGroup}

theorem version?_adopt (g : DaemonGroup) (o : Offer) :
    Offer.version? { g.ours with run := g.adopt o.run } = g.ours.version?.or o.version? := by
  unfold Offer.version?
  obtain ⟨hkept, heq⟩ | ⟨hunset, hset, heq⟩ := g.adopt_cases o.run
  · rw [heq]
    obtain hset | hunset := hkept
    · simp [hset]
    · simp [hunset]
  · have hadopted : (g.adopt o.run).isSet = true := by rw [heq]; exact hset
    rw [if_pos hadopted, heq, if_pos hset, hunset]
    rfl

theorem Reflects.changeMembers (h : g.Reflects node heard) {members joined : List NodeId}
    (hadds : (LogEntry.membership members joined).adds node = false) (now : Seconds) :
    (g.changeMembers members now).Reflects node (heard ++ [.membership members joined]) := by
  have hadds : ∀ e ∈ [LogEntry.membership members joined], e.adds node = false := by
    simpa using hadds
  refine ⟨h.coherent.changeMembers members now, ?_, ?_, h.wellFormed, h.isSet_of_isStateful, ?_⟩
  · rw [lastMembers_append_singleton]
    rfl
  · rw [firstHeard?_append heard hadds, List.findSome?_singleton, version?, Option.or_none]
    exact h.version
  · intro other hoffer
    rw [offer?_changeMembers h.coherent] at hoffer
    split at hoffer
    · obtain ⟨made, o, ho⟩ := h.held other hoffer
      refine ⟨made, o, ?_⟩
      rw [sinceAdded_append heard hadds]
      exact List.mem_append_left _ ho
    · cases hoffer

theorem Reflects.hears (h : g.Reflects node heard) {sender : NodeId} {o : Offer}
    {verdict : OfferVerdict} (made : Nat) (hears : g.Hears sender o (.ok (g', verdict))) :
    g'.Reflects node (heard ++ [.offer sender made o]) := by
  have hadds : ∀ e ∈ [LogEntry.offer sender made o], e.adds node = false := by simp [adds]
  obtain ⟨-, hmembers, -, -, -⟩ := hears.kept
  have hversion : g'.ours.version? = g.ours.version?.or o.version? := by
    cases hears with
    | merged n killed _ _ _ _ hmerge =>
      -- Who takes this for a sign of a partition has state, so it runs a version.
      simp only [isStatefulMerge, Bool.and_eq_true] at hmerge
      have hset := h.isSet_of_isStateful hmerge.2
      simp [Offer.version?, hset]
    | held n _ _ _ _ => exact g.version?_adopt o
  refine ⟨h.coherent.hears hears, ?_, ?_, ?_, ?_, ?_⟩
  · rw [lastMembers_append_singleton, hmembers, h.members]
    rfl
  · rw [firstHeard?_append heard hadds, hversion, h.version]
    simp [LogEntry.version?]
  · cases hears with
    | merged => exact h.wellFormed
    | held n fit _ _ _ =>
      obtain ⟨hmajor, hminor, hpatch, hrun⟩ := h.wellFormed
      refine ⟨hmajor, hminor, hpatch, ?_⟩
      obtain ⟨-, heq⟩ | ⟨-, -, heq⟩ := g.adopt_cases o.run <;> rw [heq]
      · exact hrun
      · exact fit.2.2.2
  · cases hears with
    | merged => exact h.isSet_of_isStateful
    | held n _ _ _ _ =>
      obtain ⟨-, heq⟩ | ⟨-, hset, heq⟩ := g.adopt_cases o.run <;> rw [heq]
      · exact h.isSet_of_isStateful
      · exact fun _ => hset
  · intro other hoffer
    rw [Heard, sinceAdded_append heard hadds]
    obtain hkept | ⟨rfl, -⟩ := hears.offer?_cases other
    · obtain ⟨made', o', ho'⟩ := h.held other (hkept ▸ hoffer)
      exact ⟨made', o', List.mem_append_left _ ho'⟩
    · exact ⟨made, o, List.mem_append_right _ List.mem_cons_self⟩

theorem Reflects.propose (h : g.Reflects node heard) : g.propose.1.Reflects node heard := by
  rw [propose_fst]
  exact ⟨⟨h.coherent.lists_iff, h.coherent.lists_of_offer⟩, h.members, h.version, h.wellFormed,
    h.isSet_of_isStateful, h.held⟩

theorem Reflects.setStateful (h : g.Reflects node heard) (hset : g.ours.run.isSet = true) :
    g.setStateful.Reflects node heard :=
  ⟨⟨h.coherent.lists_iff, h.coherent.lists_of_offer⟩, h.members, h.version, h.wellFormed,
    fun _ => hset, h.held⟩

/-- What goes out when it is due is a proposal. -/
theorem Reflects.tells_proposal (h : g.Reflects node heard) {o : Offer}
    (hproposal : g.proposal? = some o) : o.WellFormed ∧ Tells node heard o := by
  obtain ⟨hmay, run, hlowest, rfl⟩ := proposal?_eq_some_iff.1 hproposal
  simp only [mayPropose, allHeard, Bool.and_eq_true, Bool.not_eq_true', List.all_eq_true] at hmay
  obtain ⟨⟨hunset, -⟩, -, hall⟩ := hmay
  obtain ⟨hmajor, hminor, hpatch, -⟩ := h.wellFormed
  refine ⟨⟨hmajor, hminor, hpatch, .inr (positive_of_lowestVersion hlowest).2⟩, .inr ⟨?_, ?_⟩⟩
  · rw [← h.version, Offer.version?, hunset]
    rfl
  · intro other hother
    exact h.held other (hall other (h.members ▸ hother))

/-- A daemon that has taken up nothing but the change that adds it. -/
theorem reflects_new {members joined : List NodeId} (log : List LogEntry)
    (hadds : (LogEntry.membership members joined).adds node = true) (highest : PositiveVersion)
    (now : Seconds) :
    ((new node highest).changeMembers members now).Reflects node
      (log ++ [.membership members joined]) := by
  have hcoherent := coherent_new node (highest : Version)
  obtain ⟨hmajor, hminor, hpatch⟩ := highest.2
  refine ⟨hcoherent.changeMembers members now, ?_, ?_, ⟨hmajor, hminor, hpatch, .inl rfl⟩, ?_, ?_⟩
  · rw [lastMembers_append_singleton]
    rfl
  · rw [firstHeard?, sinceAdded_append_of_adds log hadds]
    rfl
  · intro hstateful
    simp [DaemonGroup.changeMembers, new, Version.isStateful] at hstateful
  · intro other hoffer
    rw [offer?_changeMembers_new] at hoffer
    cases hoffer

end DaemonGroup

namespace Seat

variable {s s' : Seat}

theorem Faithful.append_singleton (h : s.Faithful node log) (hadds : e.adds node = false)
    (hmem : node ∈ lastMembers (log ++ [e])) : s.Faithful node (log ++ [e]) := by
  refine ⟨?_, ?_, ?_, fun sent hsent => (h.outbox sent hsent).append_singleton hadds hmem⟩
  · rw [List.take_append_of_le_length h.next_le]
    exact h.reflects
  · rw [List.length_append]
    exact Nat.le_add_right_of_le h.next_le
  · rw [List.drop_append_of_le_length h.next_le]
    simpa [or_imp, forall_and] using ⟨h.stays, hadds⟩

theorem Faithful.sends (h : s.Faithful node log) (hmem : node ∈ lastMembers log)
    {offers : List Offer}
    (htells : ∀ o ∈ offers, o.WellFormed ∧ Tells node (log.take s.next) o) :
    (s.sends offers).Faithful node log := by
  refine ⟨h.reflects, h.next_le, h.stays, fun sent hsent => ?_⟩
  obtain hsent | hsent := List.mem_append.1 hsent
  · exact h.outbox sent hsent
  · obtain ⟨o, ho, rfl⟩ := List.mem_map.1 hsent
    obtain ⟨hfit, htells⟩ := htells o ho
    exact ⟨hmem, h.next_le, h.stays, hfit, htells⟩

/-- A member that takes up the next entry goes by one more. -/
theorem Faithful.takes (h : s.Faithful node log) (hsound : Sound log)
    (hmem : node ∈ lastMembers log) (hnext : log[s.next]? = some e) (htakes : s.Takes e s') :
    s'.Faithful node log := by
  have htake := take_succ_of_next hnext
  obtain ⟨hlt, hget⟩ := List.getElem?_eq_some_iff.1 hnext
  have hdrop : log.drop s.next = e :: log.drop (s.next + 1) := by
    rw [List.drop_eq_getElem_cons hlt, hget]
  obtain ⟨hadds, hstays⟩ := List.forall_mem_cons.1 (hdrop ▸ h.stays)
  have hfollows : e.Follows (log.take s.next) :=
    hsound _ e (log.drop (s.next + 1)) (by rw [← hdrop, List.take_append_drop])
  -- All that is left to show is that the group goes by the entries, and tells of them.
  have hon {g : DaemonGroup} {offers : List Offer}
      (hreflects : g.Reflects node (log.take s.next ++ [e]))
      (htells : ∀ o ∈ offers, o.WellFormed ∧ Tells node (log.take s.next ++ [e]) o) :
      ({ s with group := g, next := s.next + 1 }.sends offers).Faithful node log := by
    rw [← htake] at hreflects htells
    have hfaithful : ({ s with group := g, next := s.next + 1 } : Seat).Faithful node log :=
      ⟨hreflects, hlt, hstays, h.outbox⟩
    exact hfaithful.sends hmem htells
  cases htakes with
  | told members joined now =>
    have hreflects := h.reflects.changeMembers hadds now
    refine hon hreflects fun o ho => ?_
    split at ho
    · rw [List.mem_singleton.1 ho]
      exact ⟨hreflects.wellFormed, .inl hreflects.version⟩
    · cases ho
  | refused sender made o unfit =>
    obtain ⟨hsender, -, -, hfit, -⟩ := hfollows
    rw [← h.reflects.members, ← h.reflects.coherent.lists_iff] at hsender
    obtain hunfit | hnot := unfit
    · exact absurd hfit hunfit
    · rw [hsender] at hnot
      cases hnot
  | heard sender made o g verdict hears =>
    have hreflects := h.reflects.hears made hears
    exact hon hreflects.propose fun o ho =>
      hreflects.tells_proposal (Option.mem_toList.1 ho)

/-- A node that joins. -/
theorem faithful_joins {members joined : List NodeId} (log : List LogEntry)
    (hadds : (LogEntry.membership members joined).adds node = true) (hmem : node ∈ members)
    (highest : PositiveVersion) (moment : Moment) :
    (Seat.takes { group := .new node highest, next := log.length } moment
      (.membership members joined)).Faithful node (log ++ [.membership members joined]) := by
  have hreflects := DaemonGroup.reflects_new log hadds highest moment.now
  have hlength : (log ++ [LogEntry.membership members joined]).length = log.length + 1 := by simp
  have htake : (log ++ [LogEntry.membership members joined]).take (log.length + 1) =
      log ++ [.membership members joined] := List.take_of_length_le hlength.le
  rw [← htake] at hreflects
  refine Faithful.sends ⟨hreflects, hlength.ge, ?_, by simp⟩ ?_ fun o ho => ?_
  · simp
  · rw [lastMembers_append_singleton]
    exact hmem
  · split at ho
    · rw [List.mem_singleton.1 ho]
      exact ⟨hreflects.wellFormed, .inl hreflects.version⟩
    · cases ho

end Seat

namespace Assembly

variable {a a' : Assembly}

theorem faithful_new : new.Faithful :=
  ⟨fun before e after heq => by simp [new] at heq, fun node hnode => by cases hnode⟩

theorem Faithful.delivered (h : a.Faithful) (hdelivered : a.Delivered a') : a'.Faithful := by
  cases hdelivered with
  | idle => exact h
  | takesUp node e s hmem hnext htakes =>
    refine ⟨h.sound, fun other hother => ?_⟩
    by_cases hne : other = node
    · subst hne
      rw [seat_put_self]
      exact (h.seats other hmem).takes h.sound hmem hnext htakes
    · rw [seat_put_of_ne s hne]
      exact h.seats other hother
  | placed node made o rest hmem houtbox =>
    have hhead : (LogEntry.offer node made o).Follows a.log :=
      (h.seats node hmem).outbox (made, o) (by rw [houtbox]; exact List.mem_cons_self)
    refine ⟨h.sound.append_singleton hhead, fun other hother => ?_⟩
    obtain ⟨reflects, next_le, stays, hsent⟩ :=
      (h.seats other (members_place ▸ hother)).append_singleton (e := .offer node made o) rfl hother
    obtain ⟨outbox, hsubset, hseat⟩ := seat_place houtbox other
    rw [hseat, log_place]
    exact ⟨reflects, next_le, stays, fun sent hmem => hsent sent (hsubset hmem)⟩

theorem Faithful.changeMembers (h : a.Faithful) (members : List NodeId)
    (highest : NodeId → PositiveVersion) (moment : NodeId → Moment) :
    (a.changeMembers members highest moment).Faithful := by
  have hfollows : (LogEntry.membership members (a.joining members)).Follows a.log :=
    fun node => a.contains_joining_iff
  refine ⟨h.sound.append_singleton hfollows, fun node hnode => ?_⟩
  have hlast : node ∈ lastMembers (a.log ++ [.membership members (a.joining members)]) := hnode
  rw [members_changeMembers] at hnode
  cases hadds : (a.joining members).contains node with
  | true =>
    rw [seat_changeMembers_of_mem a highest moment hadds]
    exact Seat.faithful_joins a.log hadds hnode (highest node) (moment node)
  | false =>
    rw [seat_changeMembers_of_not_mem a highest moment hadds]
    have hbefore : node ∈ a.members := by
      by_contra hnot
      rw [a.contains_joining_iff.2 ⟨hnode, hnot⟩] at hadds
      cases hadds
    exact (h.seats node hbefore).append_singleton hadds hlast

theorem Faithful.stateful (h : a.Faithful) (hset : (a.seat node).group.ours.run.isSet = true) :
    (a.put node { a.seat node with group := (a.seat node).group.setStateful }).Faithful := by
  refine ⟨h.sound, fun other hother => ?_⟩
  obtain ⟨reflects, next_le, stays, outbox⟩ := h.seats other hother
  by_cases hne : other = node
  · subst hne
    rw [seat_put_self]
    exact ⟨reflects.setStateful hset, next_le, stays, outbox⟩
  · rw [seat_put_of_ne _ hne]
    exact ⟨reflects, next_le, stays, outbox⟩

theorem Faithful.move (h : a.Faithful) (m : Move) : (a.move m).Faithful := by
  cases m with
  | delivery d => exact h.delivered (a.delivered_deliver d)
  | membership members highest moment => exact h.changeMembers members highest moment
  | stateful node =>
    simp only [Assembly.move]
    split
    · rename_i hrunning
      refine h.stateful ?_
      unfold DaemonGroup.running? at hrunning
      by_contra hunset
      simp [hunset] at hrunning
    · exact h

theorem Faithful.play (h : a.Faithful) (moves : List Move) : (a.play moves).Faithful := by
  induction moves generalizing a with
  | nil => exact h
  | cons m rest ih => exact ih (h.move m)

/-- What a member runs is what it has heard first, in all of the log as far as it goes. -/
theorem Faithful.firstHeard?_of_running (h : a.Faithful) (hmem : node ∈ a.members) {v : Version}
    (hrunning : (a.seat node).group.running? = some v) :
    firstHeard? node a.log = some v.withoutFlags := by
  obtain ⟨reflects, -, stays, -⟩ := h.seats node hmem
  rw [← List.take_append_drop (a.seat node).next a.log]
  refine firstHeard?_append_of_some stays ?_
  rw [← reflects.version]
  unfold DaemonGroup.running? at hrunning
  split at hrunning
  · rename_i hset
    cases hrunning
    exact if_pos hset
  · cases hrunning

/-- In a state in which no join has overtaken an outdated announcement, members that run a version
    run the same one. -/
theorem Faithful.agree (h : a.Faithful) (hover : NoneOvertaken a.log) {p q : NodeId}
    (hp : p ∈ a.members) (hq : q ∈ a.members) {v w : Version}
    (hv : (a.seat p).group.running? = some v) (hw : (a.seat q).group.running? = some w) :
    v.withoutFlags = w.withoutFlags :=
  h.sound.agree hover p hp q hq _ _ (h.firstHeard?_of_running hp hv)
    (h.firstHeard?_of_running hq hw)

/-- Members that run a version run the same one, whoever joins or goes meanwhile, as long as no join
    overtakes an outdated announcement. -/
theorem running_agree (moves : List Move) (hover : NoneOvertaken (new.play moves).log) :
    let a := new.play moves
    ∀ p ∈ a.members, ∀ q ∈ a.members, ∀ v w, (a.seat p).group.running? = some v →
      (a.seat q).group.running? = some w → v.withoutFlags = w.withoutFlags :=
  fun _ hp _ hq _ _ hv hw => (faithful_new.play moves).agree hover hp hq hv hw

end Assembly

end

namespace Assembly

section

/-- Nodes 1 and 2 speak up to 1.2.1, node 3 up to 1.1.1. -/
def twoAhead (node : NodeId) : PositiveVersion :=
  if node = 3 then ⟨{ major := 1, minor := 1, patch := 1 }, by decide⟩
  else ⟨{ major := 1, minor := 2, patch := 1 }, by decide⟩

/-- Nodes 1 and 2 form a group and run 1.2.1. Node 1 gains state, node 3 joins, and node 2 goes. -/
def joinsLater : List Move :=
  let members (members : List NodeId) : Move := .membership members twoAhead fun _ => {}
  let takesUp (node : NodeId) : Move := .delivery (.takesUp node {})
  let places (node : NodeId) : Move := .delivery (.places node)
  [members [1, 2], places 1, places 2, takesUp 1, takesUp 1, takesUp 2, takesUp 2, places 1,
   places 2, takesUp 1, takesUp 1, takesUp 2, takesUp 2, .stateful 1, members [1, 2, 3], takesUp 1,
   takesUp 2, places 3, places 1, places 2, takesUp 3, takesUp 3, members [1, 3]]

/-- Node 3 hears from node 1 what is run, and runs it. -/
theorem running_agree_joinsLater :
    NoneOvertaken (new.play joinsLater).log ∧
      ∃ v w, ((new.play joinsLater).seat 1).group.running? = some v ∧
        ((new.play joinsLater).seat 3).group.running? = some w ∧
        v.isStateful = true ∧ w.isStateful = false ∧ v.withoutFlags = w.withoutFlags := by
  have hover : NoneOvertaken (new.play joinsLater).log := by decide +kernel
  have hfirst : ((new.play joinsLater).seat 1).group.running? =
      some { major := 1, minor := 2, patch := 1, flags := Version.statefulFlag } := by
    decide +kernel
  have hthird : ((new.play joinsLater).seat 3).group.running? =
      some { major := 1, minor := 2, patch := 1 } := by decide +kernel
  exact ⟨hover, _, _, hfirst, hthird, by decide, by decide, running_agree joinsLater hover 1
    (by decide +kernel) 3 (by decide +kernel) _ _ hfirst hthird⟩

/-- Node 1 is alone and proposes 1.2.1. The proposal is in the log after node 2 has joined, before
    the announcement that node 1 makes for it. Then node 3 joins, and hears from nodes 1 and 2 only
    what they announced before they took up the proposal. -/
def overtaken : List Move :=
  let members (members : List NodeId) : Move := .membership members twoAhead fun _ => {}
  let takesUp (node : NodeId) : Move := .delivery (.takesUp node {})
  let places (node : NodeId) : Move := .delivery (.places node)
  [members [1], places 1, takesUp 1, members [1, 2], places 1, takesUp 1, takesUp 1, takesUp 2,
   members [1, 2, 3], places 1, places 2, places 3, takesUp 3, takesUp 3, takesUp 3, places 3,
   takesUp 3]

/-- Node 3 has heard everyone, and nobody of a version. It proposes its own and runs it, while
    nodes 1 and 2 run 1.2.1. -/
theorem overtaken_disagree :
    ¬ ∀ moves : List Move, let a := new.play moves
      ∀ p ∈ a.members, ∀ q ∈ a.members, ∀ v w, (a.seat p).group.running? = some v →
        (a.seat q).group.running? = some w → v.withoutFlags = w.withoutFlags := by
  intro h
  have hfirst : ((new.play overtaken).seat 1).group.running? =
      some { major := 1, minor := 2, patch := 1 } := by decide +kernel
  have hthird : ((new.play overtaken).seat 3).group.running? =
      some { major := 1, minor := 1, patch := 1 } := by decide +kernel
  have hequal := h overtaken 1 (by decide +kernel) 3 (by decide +kernel) _ _ hfirst hthird
  revert hequal
  decide

end

end Assembly

end ClusterFence
