import ClusterFence.Proofs.Domain.Taken

namespace ClusterFence

/-- The message as a START, if it is one. -/
def Envelope.start? (e : Envelope) : Option ReceivedStart :=
  match e.message with
  | .start report => some { sender := e.header.sender, flags := e.header.flags, report }
  | _ => none

/-- The change as it is once everybody has started it. -/
def Change.agreed (c : Change) : Change := { c with phase := .awaitingFencing }

namespace Domain

/-- Everybody has started the current change `c` of the changes `q`: what the domain `d` comes to,
    and what it asks for. -/
def settled (d : Domain) (q : ChangeQueue) (c : Change) :
    ChangeQueue × NodeId × Bool × List Action :=
  let agreed := q.updateCurrent Change.agreed
  if c.electMaster = d.us then
    (agreed, d.us, true,
      [.setStateful, .startFencing (q.nodesAdded || d.cluster.quorateFromLastUpdate)])
  else (agreed.retire, c.electMaster, false, [.setStateful])

/-- What the domain `d`, whose current change is `c`, comes to by STARTs, and what it asks for on
    the way. It looks at its changes only when a START comes. -/
def arrival (d : Domain) (c : Change) (starts : List ReceivedStart) :
    ChangeQueue × NodeId × Bool × List Action :=
  let current := starts.foldl d.takeDownIn c
  if starts ≠ [] ∧ current.allStarted = true then d.settled (d.taken starts) current
  else (d.taken starts, d.master, false, [])

/-- A domain that awaits STARTs for its change `c` gets on once all of them are there. -/
theorem advance_of_awaitingStarts {d : Domain} {c : Change} (hidle : d.fencing = false)
    (hcurrent : d.changes.current? = some c) (hphase : c.phase = .awaitingStarts) :
    (d.advance.domain.changes, d.advance.domain.master, d.advance.domain.fencing,
        d.advance.actions) =
      if c.allStarted = true then d.settled d.changes c else (d.changes, d.master, false, []) := by
  unfold advance
  rw [hidle, hcurrent, if_neg Bool.false_ne_true]
  simp only [hphase]
  cases c.allStarted with
  | false => simp [hidle]
  | true =>
    simp only [if_true, settle, settled]
    by_cases hmaster : c.electMaster = d.us
    · simp [hmaster]
      rfl
    · have hne : (c.electMaster == d.us) = false := beq_false_of_ne hmaster
      simp [hmaster, hne, retireCurrent, hidle]
      rfl

/-- The domain awaits STARTs for its current change `c`, whose number is its own, and knows every
    member of its changes. The number is always its own while the numbers have not come round
    (`awaitsStarts_play`). -/
structure AwaitsStarts (d : Domain) (c : Change) : Prop where
  idle : d.fencing = false
  current : d.changes.current? = some c
  phase : c.phase = .awaitingStarts
  own : ∀ old ∈ d.changes.pending.tail, old.seq ≠ c.seq
  known : ∀ c' ∈ d.changes.pending, ∀ m ∈ c'.members, d.history.contains m.node = true

/-- The domain `d` has come to `d'` by STARTs, and asked for some actions on the way. -/
structure Took (d : Domain) (c : Change) (starts : List ReceivedStart) (d' : Domain)
    (actions : List Action) : Prop where
  config : d'.config = d.config
  cluster : d'.cluster = d.cluster
  victims : d'.victims = d.victims
  stamps : ∀ node, (∀ s ∈ starts, s.sender ≠ node) → (d.history.stamps? node).isSome = true →
    d'.history.stamps? node = d.history.stamps? node
  arrival : (d'.changes, d'.master, d'.fencing, actions) = d.arrival c starts

section

variable {d d' : Domain} {c : Change} {s : ReceivedStart} {starts : List ReceivedStart}
  {actions : List Action}

theorem AwaitsStarts.awaits_of_finds (h : d.AwaitsStarts c) (hfinds : d.finds s = some c.seq) :
    c.awaits s.sender = true := by
  obtain ⟨c', hc', hseq, hawaits⟩ := ReceivedStart.find_mem hfinds
  rw [ChangeQueue.pending_of_current? h.current] at hc'
  obtain rfl | hc' := List.mem_cons.1 hc'
  · exact hawaits
  · exact absurd hseq (h.own c' hc')

/-- Once everybody has started, no other START is for the current change. -/
theorem AwaitsStarts.finds_ne (h : d.AwaitsStarts c)
    (hstarted : (starts.foldl d.takeDownIn c).allStarted = true)
    (hnew : ∀ s' ∈ starts, s'.sender ≠ s.sender) : d.finds s ≠ some c.seq := by
  intro hfinds
  have hawaits := h.awaits_of_finds hfinds
  have hmember := (d.foldl_takeDownIn_eq c starts).2.2 s.sender hnew
  have hnone := Change.not_awaits_of_allStarted hstarted s.sender
  unfold Change.awaits at hawaits hnone
  rw [hmember, hawaits] at hnone
  cases hnone

theorem AwaitsStarts.stamps_of_awaited (h : d.AwaitsStarts c)
    (hawaited : ∃ c' ∈ d.changes.pending, c'.awaits s.sender = true) :
    (d.history.stamps? s.sender).isSome = true := by
  obtain ⟨c', hc', hawaits⟩ := hawaited
  unfold Change.awaits at hawaits
  rw [Option.any_eq_true] at hawaits
  obtain ⟨m, hmember, -⟩ := hawaits
  obtain ⟨hm, hnode⟩ := Change.mem_of_member? hmember
  rw [History.stamps?_isSome_iff, ← hnode]
  exact h.known c' hc' m hm

/-- The START of one more node is taken down as it would have been at first. -/
theorem Took.takeDown_eq (h : d.AwaitsStarts c) (htook : d.Took c starts d' actions)
    (hnew : ∀ s' ∈ starts, s'.sender ≠ s.sender)
    (hcount : d'.changes.startedCount = d.changes.startedCount)
    (hpending : d'.changes.pending.map (·.seenBy s.sender) =
      (d.taken starts).pending.map (·.seenBy s.sender)) (q : ChangeQueue) :
    d'.takeDown q s = d.takeDown q s := by
  refine takeDown_congr ?_ hcount ?_ ?_ q
  · unfold us
    rw [htook.config]
  · rw [hpending, seenBy_taken hnew]
  · intro hawaited
    exact htook.stamps s.sender hnew (h.stamps_of_awaited hawaited)

/-- The changes that are settled look to STARTs as they did before. -/
theorem seenBy_updateCurrent (q : ChangeQueue) (node : NodeId) :
    (q.updateCurrent Change.agreed).pending.map (·.seenBy node) =
      q.pending.map (·.seenBy node) := by
  unfold ChangeQueue.updateCurrent
  split
  · rfl
  · rename_i hpending
    rw [hpending]
    rfl

theorem startedCount_updateCurrent (q : ChangeQueue) (f : Change → Change) :
    (q.updateCurrent f).startedCount = q.startedCount := by
  unfold ChangeQueue.updateCurrent
  split <;> rfl

theorem current?_taken_of_current (hcurrent : d.changes.current? = some c)
    (starts : List ReceivedStart) :
    (d.taken starts).current? = some (starts.foldl d.takeDownIn c) := by
  rw [current?_taken, hcurrent]
  rfl

theorem taken_append (d : Domain) (starts : List ReceivedStart) (s : ReceivedStart) :
    d.taken (starts ++ [s]) = d.takeDown (d.taken starts) s := by
  unfold taken
  rw [List.foldl_append]
  rfl

/-- What everybody's START leads to is not changed by a START for an older change, or for none. -/
theorem settled_append (h : d.AwaitsStarts c)
    (hstarted : (starts.foldl d.takeDownIn c).allStarted = true)
    (hnew : ∀ s' ∈ starts, s'.sender ≠ s.sender) :
    let current := starts.foldl d.takeDownIn c
    (starts ++ [s]).foldl d.takeDownIn c = current ∧
      d.settled (d.taken (starts ++ [s])) current =
        if current.electMaster = d.us then
          (d.takeDown ((d.taken starts).updateCurrent Change.agreed) s,
            (d.settled (d.taken starts) current).2)
        else d.settled (d.taken starts) current := by
  intro current
  have hother : d.finds s ≠ some current.seq := by
    rw [(d.foldl_takeDownIn_eq c starts).1]
    exact h.finds_ne hstarted hnew
  have hnodes : (d.takeDown (d.taken starts) s).nodesAdded = (d.taken starts).nodesAdded := by
    rw [← taken_append, nodesAdded_taken, nodesAdded_taken]
  have hpending : (d.taken starts).pending = current :: (d.taken starts).pending.tail :=
    ChangeQueue.pending_of_current? (current?_taken_of_current h.current starts)
  constructor
  · rw [List.foldl_append]
    exact if_neg hother
  · rw [taken_append]
    unfold settled
    rw [hnodes]
    generalize d.taken starts = q at hpending ⊢
    generalize q.pending.tail = older at hpending
    have hagreed : (q.updateCurrent Change.agreed).pending = current.agreed :: older := by
      simp [ChangeQueue.updateCurrent, hpending]
    rw [takeDown_of_finds_ne hpending hother, takeDown_of_finds_ne hagreed hother]
    by_cases hmaster : current.electMaster = d.us
    · simp [hmaster, ChangeQueue.updateCurrent, hpending]
    · simp [hmaster, ChangeQueue.updateCurrent, ChangeQueue.retire, hpending]

theorem settled_congr (hus : d'.us = d.us) (hcluster : d'.cluster = d.cluster) :
    d'.settled = d.settled := by
  funext q c
  unfold settled
  rw [hus, hcluster]

theorem advance_of_pending_nil (hpending : d.changes.pending = []) :
    d.advance = { domain := d } := by
  unfold advance
  simp [ChangeQueue.current?, hpending]

/-- One more START, from a node that has sent none of those before. -/
theorem Took.arrival_receiveStart (h : d.AwaitsStarts c) (htook : d.Took c starts d' actions)
    (hnew : ∀ s' ∈ starts, s'.sender ≠ s.sender) (now : Seconds) :
    let r := (d'.receiveStart s now).1.advance
    (r.domain.changes, r.domain.master, r.domain.fencing, actions ++ r.actions) =
      d.arrival c (starts ++ [s]) := by
  intro r
  obtain ⟨changes, history, hdomain⟩ := d'.receiveStart_eq s now
  have hchanges : changes = d'.takeDown d'.changes s := by
    rw [← changes_receiveStart d' s now, hdomain]
  have hus : d'.us = d.us := by rw [us, htook.config, us]
  have harrival := htook.arrival
  unfold Domain.arrival at harrival ⊢
  by_cases hgot : starts ≠ [] ∧ (starts.foldl d.takeDownIn c).allStarted = true
  · obtain ⟨hcurrent, hsettled⟩ := settled_append h hgot.2 hnew
    rw [if_pos hgot] at harrival
    rw [hcurrent, if_pos ⟨List.append_ne_nil_of_right_ne_nil _ (List.cons_ne_nil _ _), hgot.2⟩,
      hsettled, ← harrival]
    unfold settled at harrival
    split
    · -- the domain fences, and does not get on until that is over
      rename_i hmaster
      rw [if_pos hmaster, Prod.mk.injEq, Prod.mk.injEq, Prod.mk.injEq] at harrival
      have hfencing : r = { domain := (d'.receiveStart s now).1 } := by
        apply advance_of_fencing
        rw [hdomain]
        exact harrival.2.2.1
      have hdown : d'.takeDown d'.changes s = d.takeDown d'.changes s := by
        apply htook.takeDown_eq h hnew
        · rw [harrival.1, startedCount_updateCurrent, startedCount_taken]
        · rw [harrival.1, seenBy_updateCurrent]
      rw [hfencing, hdomain, hchanges, hdown, harrival.1, List.append_nil]
    · -- the domain is through with all of its changes
      rename_i hmaster
      rw [if_neg hmaster, Prod.mk.injEq] at harrival
      have hnil : d'.changes.pending = [] := by rw [harrival.1, ChangeQueue.pending_retire]
      have hsame : r = { domain := d' } := by
        show (d'.receiveStart s now).1.advance = _
        rw [receiveStart_of_pending_nil hnil, advance_of_pending_nil hnil]
      rw [hsame, List.append_nil]
  · rw [if_neg hgot, Prod.mk.injEq, Prod.mk.injEq, Prod.mk.injEq] at harrival
    obtain ⟨hwaiting, hmaster, hidle, rfl⟩ := harrival
    have hdown : d'.takeDown d'.changes s = d.taken (starts ++ [s]) := by
      rw [taken_append, ← hwaiting]
      apply htook.takeDown_eq h hnew
      · rw [hwaiting, startedCount_taken]
      · rw [hwaiting]
    have hreached : r = (d'.receiveStart s now).1.advance := rfl
    generalize (d'.receiveStart s now).1 = d₁ at hdomain hreached
    have hchanged : d₁.changes = d.taken (starts ++ [s]) := by rw [hdomain, hchanges, hdown]
    have hadvance := advance_of_awaitingStarts (d := d₁)
      (c := (starts ++ [s]).foldl d.takeDownIn c) (by rw [hdomain, hidle])
      (by rw [hchanged, current?_taken_of_current h.current])
      ((d.foldl_takeDownIn_eq c _).2.1.trans h.phase)
    have hsame : d₁.settled = d.settled := by
      apply settled_congr
      · rw [hdomain]
        exact hus
      · rw [hdomain]
        exact htook.cluster
    have hmaster₁ : d₁.master = d.master := by rw [hdomain, hmaster]
    rw [List.nil_append, hreached, hadvance, hsame, hchanged, hmaster₁]
    simp

theorem Took.receive (h : d.AwaitsStarts c) (htook : d.Took c starts d' actions) {e : Envelope}
    (he : e.start? = some s) (hnew : ∀ s' ∈ starts, s'.sender ≠ s.sender) (now : Seconds) :
    d.Took c (starts ++ [s]) (d'.receive e now).domain (actions ++ (d'.receive e now).actions) := by
  have haccept : (d'.accept e now).1 = (d'.receiveStart s now).1 := by
    unfold Envelope.start? at he
    unfold accept
    cases hmessage : e.message <;> simp [hmessage] at he
    rw [← he]
  have hdomain : (d'.receive e now).domain = (d'.receiveStart s now).1.advance.domain := by
    simp only [Domain.receive, Reaction.after, haccept]
  have hactions : (d'.receive e now).actions = (d'.receiveStart s now).1.advance.actions := by
    simp only [Domain.receive, Reaction.after, haccept]
  obtain ⟨changes, history, hstart⟩ := d'.receiveStart_eq s now
  rw [hdomain, hactions]
  refine ⟨?_, ?_, ?_, ?_, htook.arrival_receiveStart h hnew now⟩
  · rw [advance_config, hstart, htook.config]
  · rw [advance_cluster, hstart, htook.cluster]
  · rw [advance_victims, hstart, htook.victims]
  · intro node hothers hknown
    have hbefore : d'.history.stamps? node = d.history.stamps? node :=
      htook.stamps node (fun s' hs' => hothers s' (List.mem_append_left _ hs')) hknown
    have hsender := hothers s (List.mem_append_right _ (List.mem_singleton_self s))
    rw [advance_history, stamps?_receiveStart hsender (by rw [hbefore, hknown]), hbefore]

end

/-- The domain after messages of its group, each at its own time, and what they made it ask for. -/
def receiveAll (d : Domain) : List (Seconds × Envelope) → Domain × List Action
  | [] => (d, [])
  | (now, e) :: rest =>
    let r := d.receive e now
    let later := r.domain.receiveAll rest
    (later.1, r.actions ++ later.2)

/-- The STARTs among some messages. -/
def startsOf (messages : List (Seconds × Envelope)) : List ReceivedStart :=
  messages.filterMap (·.2.start?)

theorem startsOf_cons {message : Seconds × Envelope} {s : ReceivedStart}
    (h : message.2.start? = some s) (rest : List (Seconds × Envelope)) :
    startsOf (message :: rest) = s :: startsOf rest := by
  simp [startsOf, h]

/-- The messages are STARTs, each from another node. -/
structure DistinctStarts (messages : List (Seconds × Envelope)) : Prop where
  isStart : ∀ message ∈ messages, message.2.start?.isSome = true
  distinct : (messages.map (·.2.header.sender)).Nodup

theorem sender_of_start? {e : Envelope} {s : ReceivedStart} (h : e.start? = some s) :
    s.sender = e.header.sender := by
  unfold Envelope.start? at h
  split at h
  · rw [← Option.some.inj h]
  · cases h

theorem senders_startsOf {messages : List (Seconds × Envelope)}
    (h : ∀ message ∈ messages, message.2.start?.isSome = true) :
    (startsOf messages).map (·.sender) = messages.map (·.2.header.sender) := by
  induction messages with
  | nil => rfl
  | cons message rest ih =>
    obtain ⟨s, hs⟩ := Option.isSome_iff_exists.1 (h message List.mem_cons_self)
    rw [startsOf_cons hs, List.map_cons, List.map_cons, sender_of_start? hs,
      ih fun message' hmessage => h message' (List.mem_cons_of_mem _ hmessage)]

theorem DistinctStarts.senders {messages : List (Seconds × Envelope)}
    (h : DistinctStarts messages) : ((startsOf messages).map (·.sender)).Nodup := by
  rw [senders_startsOf h.isStart]
  exact h.distinct

section

variable {d d' : Domain} {c : Change} {starts : List ReceivedStart} {actions : List Action}

theorem Took.receiveAll (h : d.AwaitsStarts c) {messages : List (Seconds × Envelope)}
    (hstarts : ∀ message ∈ messages, message.2.start?.isSome = true)
    (hdistinct : ((starts ++ startsOf messages).map (·.sender)).Nodup)
    (htook : d.Took c starts d' actions) :
    d.Took c (starts ++ startsOf messages) (d'.receiveAll messages).1
      (actions ++ (d'.receiveAll messages).2) := by
  induction messages generalizing starts d' actions with
  | nil => simpa [startsOf, Domain.receiveAll] using htook
  | cons message rest ih =>
    obtain ⟨now, e⟩ := message
    obtain ⟨s, hs⟩ := Option.isSome_iff_exists.1 (hstarts _ List.mem_cons_self)
    have hsplit : starts ++ startsOf ((now, e) :: rest) = (starts ++ [s]) ++ startsOf rest := by
      rw [startsOf_cons hs, List.append_assoc, List.singleton_append]
    rw [hsplit] at hdistinct ⊢
    have hnew : ∀ s' ∈ starts, s'.sender ≠ s.sender := by
      intro s' hs' heq
      rw [List.map_append, List.map_append, List.nodup_append] at hdistinct
      have hdisjoint := (List.nodup_append.1 hdistinct.1).2.2
      exact hdisjoint s'.sender (List.mem_map_of_mem hs') s.sender (by simp) heq
    have hrest := ih (fun message hmessage => hstarts message (List.mem_cons_of_mem _ hmessage))
      hdistinct (htook.receive h hs hnew now)
    rw [List.append_assoc actions] at hrest
    exact hrest

end

end Domain

end ClusterFence
