import ClusterFence.Proofs.Domain.Fencing
import ClusterFence.Proofs.Domain.Lifecycle
import ClusterFence.Proofs.Domain.Refusal
import ClusterFence.Proofs.Domain.Uptake

namespace ClusterFence

/-- What the part of a node in a change is to a healed partition: whether the change added it, and
    whether it has started. -/
def Change.part? (c : Change) (node : NodeId) : Option (Bool × Bool) :=
  (c.member? node).map fun m => (m.added, m.started)

/-- A change by its number, and whether it is fenced for. -/
def Change.fenced (c : Change) : UInt32 × Bool := (c.seq, c.phase == .awaitingFencing)

namespace Change

theorem hasAdded_eq (c : Change) (node : NodeId) : c.hasAdded node = (c.part? node).any (·.1) := by
  rw [part?, Option.any_map]
  rfl

theorem awaits_eq (c : Change) (node : NodeId) : c.awaits node = (c.part? node).any (!·.2) := by
  rw [part?, Option.any_map]
  rfl

/-- A START that does not count leaves the part of its sender as it is. -/
theorem part?_updateMember_disallowed (c : Change) (s : ReceivedStart) (node : NodeId) :
    (c.updateMember s.sender (s.takenBy true)).part? node = c.part? node := by
  unfold part?
  by_cases hsender : node = s.sender
  · rw [hsender, c.member?_updateMember_self (s.takenBy_node true), Option.map_map]
    rfl
  · rw [c.member?_updateMember_of_ne (s.takenBy_node true) hsender]

theorem part?_updateMember_of_ne (c : Change) {s : ReceivedStart} {node : NodeId}
    (hsender : s.sender ≠ node) (disallowed : Bool) :
    (c.updateMember s.sender (s.takenBy disallowed)).part? node = c.part? node := by
  unfold part?
  rw [c.member?_updateMember_of_ne (s.takenBy_node disallowed) hsender.symm]

/-- No START adds a node. -/
theorem hasAdded_updateMember (c : Change) (s : ReceivedStart) (disallowed : Bool)
    (node : NodeId) :
    (c.updateMember s.sender (s.takenBy disallowed)).hasAdded node = c.hasAdded node := by
  unfold hasAdded
  by_cases hsender : node = s.sender
  · rw [hsender, c.member?_updateMember_self (s.takenBy_node disallowed), Option.any_map]
    congr 1
    funext m
    cases disallowed <;> rfl
  · rw [c.member?_updateMember_of_ne (s.takenBy_node disallowed) hsender]

theorem isMember_eq (c : Change) (node : NodeId) : c.isMember node = (c.part? node).isSome := by
  rw [part?, Option.isSome_map, member?, List.isSome_find?]
  rfl

/-- Nobody has started a new change. -/
theorem part?_ofMembership {seq : UInt32} {us : NodeId} {m : Membership} {now : Seconds}
    {node : NodeId} {part : Bool × Bool}
    (hpart : (ofMembership seq us m now).part? node = some part) : part.2 = false := by
  obtain ⟨p, hp, rfl⟩ := Option.map_eq_some_iff.1 hpart
  exact not_started_ofMembership (mem_of_member? hp).1

end Change

/-- What is on record of a node, its latest match apart. -/
def NodeHistory.unmatched (n : NodeHistory) : NodeHistory := { n with lastMatchSeq := 0 }

/-- To look for the change that a START is for leaves all on record but a match. -/
theorem ReceivedStart.map_unmatched_find (s : ReceivedStart) (us : NodeId) (q : ChangeQueue)
    (h : History) (node : NodeId) : ((s.find us q h).2.get? node).map NodeHistory.unmatched =
      (h.get? node).map NodeHistory.unmatched := by
  by_cases hsender : s.sender = node
  · have hget : (s.find us q h).2.get? s.sender = _ := s.find_get?_sender q
    rw [← hsender, hget]
    cases (s.find us q h).1 with
    | none => rfl
    | some seq =>
      rw [Option.map_map]
      rfl
  · rw [s.find_get?_of_ne hsender]

/-- A START of the node says that the node has completed changes. -/
def DomainInput.seasoned (node : NodeId) : DomainInput → Bool
  | .message e => e.start?.all fun s => s.sender != node || s.report.summary.startedCount != 0
  | _ => true

/-- It comes from the group or from the quorum service. -/
def DomainInput.arrives : DomainInput → Bool
  | .membership _ | .ring _ _ | .cluster _ | .message _ => true
  | _ => false

theorem DomainInput.startedCount_ne_zero {node : NodeId} {e : Envelope} {s : ReceivedStart}
    (hseasoned : (DomainInput.message e).seasoned node = true) (hstart : e.start? = some s)
    (hsender : s.sender = node) : s.report.summary.startedCount ≠ 0 := by
  simpa [seasoned, hstart, hsender] using hseasoned

namespace Domain

/-- A partition may have healed: we have completed changes, and a pending change added the node. -/
def Reunites (d : Domain) (node : NodeId) : Prop :=
  d.changes.startedCount ≠ 0 ∧ d.changes.isAdded node = true

/-- The part of a node in the current change. -/
def currentPart? (d : Domain) (node : NodeId) : Option (Bool × Bool) :=
  d.changes.current?.bind (·.part? node)

/-- While a partition may have healed, the node has not started the current change. -/
def Withholds (d : Domain) (node : NodeId) : Prop :=
  d.Reunites node → ∀ part, d.currentPart? node = some part → part.2 = false

section

variable {d d' : Domain} {node : NodeId} {s : ReceivedStart}

/-- Whether a node was added, and its part in the current change, follow from its parts in all. -/
theorem parts_congr (hparts : d'.changes.pending.map (·.part? node) =
      d.changes.pending.map (·.part? node)) :
    d'.changes.isAdded node = d.changes.isAdded node ∧
      d'.currentPart? node = d.currentPart? node := by
  have hadded (q : ChangeQueue) :
      q.isAdded node = (q.pending.map (·.part? node)).any (·.any (·.1)) := by
    rw [List.any_map]
    unfold ChangeQueue.isAdded
    congr 1
    funext c
    exact c.hasAdded_eq node
  have hcurrent (d : Domain) :
      d.currentPart? node = (d.changes.pending.map (·.part? node)).head?.join := by
    unfold currentPart? ChangeQueue.current?
    rw [List.head?_map]
    cases d.changes.pending.head? <;> rfl
  rw [hadded, hadded, hcurrent, hcurrent, hparts]
  exact ⟨rfl, rfl⟩

theorem startedCount_receiveStart (d : Domain) (s : ReceivedStart) (now : Seconds) :
    (d.receiveStart s now).1.changes.startedCount = d.changes.startedCount := by
  rw [changes_receiveStart]
  unfold takeDown
  split <;> rfl

theorem isAdded_receiveStart (d : Domain) (s : ReceivedStart) (now : Seconds) (node : NodeId) :
    (d.receiveStart s now).1.changes.isAdded node = d.changes.isAdded node := by
  have hmap : (d.takeDown d.changes s).pending.map (·.hasAdded node) =
      d.changes.pending.map (·.hasAdded node) :=
    map_takeDown_takenBy fun c => c.hasAdded_updateMember s _ node
  have hany (q : ChangeQueue) : q.isAdded node = (q.pending.map (·.hasAdded node)).any id := by
    rw [List.any_map]
    rfl
  rw [changes_receiveStart, hany, hany, hmap]

/-- A START that does not count, and one of another node, leave the parts of the node alone. -/
theorem parts_receiveStart (hsender : s.sender = node → d.disallows s = true) (now : Seconds) :
    (d.receiveStart s now).1.changes.pending.map (·.part? node) =
      d.changes.pending.map (·.part? node) := by
  rw [changes_receiveStart]
  apply map_takeDown_takenBy
  intro c
  by_cases heq : s.sender = node
  · rw [hsender heq]
    exact c.part?_updateMember_disallowed s node
  · exact c.part?_updateMember_of_ne heq _

/-- A START of the node does not count while a partition may have healed. -/
theorem Reunites.disallows (h : d.Reunites node) (hsender : s.sender = node)
    (hcount : s.report.summary.startedCount ≠ 0) : d.disallows s = true := by
  unfold Domain.disallows
  simp [hsender, h.1, h.2, hcount]

theorem Withholds.receiveStart (h : d.Withholds node)
    (hcount : s.sender = node → s.report.summary.startedCount ≠ 0) (now : Seconds) :
    (d.receiveStart s now).1.Withholds node := by
  intro hreunites part hpart
  rw [Reunites, startedCount_receiveStart, isAdded_receiveStart] at hreunites
  have hparts := parts_receiveStart
    (fun hsender => Reunites.disallows hreunites hsender (hcount hsender)) now
  rw [(parts_congr hparts).2] at hpart
  exact h hreunites part hpart

theorem Withholds.of_parts (h : d.Withholds node)
    (hcount : d'.changes.startedCount = d.changes.startedCount)
    (hparts : d'.changes.pending.map (·.part? node) = d.changes.pending.map (·.part? node)) :
    d'.Withholds node := by
  obtain ⟨hadded, hcurrent⟩ := parts_congr hparts
  unfold Withholds Reunites
  rw [hcount, hadded, hcurrent]
  exact h

theorem Withholds.advance (h : d.Withholds node) : d.advance.domain.Withholds node := by
  obtain ⟨hparts, hcount⟩ | hnil := d.map_advance (g := (·.part? node)) fun _ _ _ => rfl
  · exact h.of_parts hcount hparts
  · intro hreunites
    simp [Reunites, ChangeQueue.isAdded, hnil] at hreunites

theorem withholds_told (d : Domain) (m : Membership) (now : Seconds) (node : NodeId) :
    (d.told m now).Withholds node := by
  intro _ part hpart
  rw [currentPart?, told_changes] at hpart
  exact Change.part?_ofMembership hpart

/-- Whatever is taken up, the node has not started the current change while a partition may have
    healed. -/
theorem Withholds.uptake (h : d.Withholds node) {now : Seconds} {i : DomainInput}
    (hseasoned : i.seasoned node = true) (huptake : Uptake d now i d') : d'.Withholds node := by
  cases huptake with
  | stays _ _ changes => exact h.of_parts (by rw [changes]) (by rw [changes])
  | @getsOn _ d'' _ _ changes =>
    have hd'' : d''.Withholds node := h.of_parts (by rw [changes]) (by rw [changes])
    exact hd''.advance
  | starts start =>
    exact (h.receiveStart (DomainInput.startedCount_ne_zero hseasoned start) now).advance
  | left _ => exact h
  | refused _ _ _ changes => exact h.of_parts (by rw [changes]) (by rw [changes])
  | queued _ _ => exact (d.withholds_told _ now node).advance
  | finished =>
    unfold finishFencing
    split
    · intro hreunites
      simp [Reunites, ChangeQueue.isAdded, retireCurrent] at hreunites
    · exact h

theorem withholds_play (config : Config) {inputs : List (Seconds × DomainInput)}
    (hseasoned : ∀ input ∈ inputs, input.2.seasoned node = true) :
    ((new config).play inputs).Withholds node := by
  have hnew : (new config).Withholds node := by
    intro hreunites
    simp [Reunites, new_changes] at hreunites
  generalize new config = d at hnew
  induction inputs generalizing d with
  | nil => exact hnew
  | cons timed rest ih =>
    apply ih (fun input hinput => hseasoned input (List.mem_cons_of_mem _ hinput))
    exact hnew.uptake (hseasoned timed List.mem_cons_self) (d.uptake_step timed.1 timed.2)

/-- The domain `d'` is `d` later. Newer changes may have come up, but none has been done with, and
    none has come to be fenced for. -/
structure Stalled (d d' : Domain) : Prop where
  fencing : d'.fencing = d.fencing
  startedCount : d'.changes.startedCount = d.changes.startedCount
  started : d'.changes.started = d.changes.started
  pending : ∃ newer, d'.changes.pending.map Change.fenced =
      newer ++ d.changes.pending.map Change.fenced ∧ ∀ entry ∈ newer, entry.2 = false

theorem Stalled.of_fenced (hfencing : d'.fencing = d.fencing)
    (hcount : d'.changes.startedCount = d.changes.startedCount)
    (hstarted : d'.changes.started = d.changes.started)
    (hpending : d'.changes.pending.map Change.fenced = d.changes.pending.map Change.fenced) :
    Stalled d d' :=
  ⟨hfencing, hcount, hstarted, [], hpending, by simp⟩

theorem Stalled.of_changes (hfencing : d'.fencing = d.fencing)
    (hchanges : d'.changes = d.changes) : Stalled d d' :=
  .of_fenced hfencing (by rw [hchanges]) (by rw [hchanges]) (by rw [hchanges])

theorem Stalled.trans {d'' : Domain} (h : Stalled d d') (h' : Stalled d' d'') :
    Stalled d d'' := by
  obtain ⟨newer, hpending, hnewer⟩ := h.pending
  obtain ⟨newest, hpending', hnewest⟩ := h'.pending
  refine ⟨h'.fencing.trans h.fencing, h'.startedCount.trans h.startedCount,
    h'.started.trans h.started, newest ++ newer, ?_, ?_⟩
  · rw [hpending', hpending, List.append_assoc]
  · intro entry hentry
    obtain hentry | hentry := List.mem_append.1 hentry
    · exact hnewest entry hentry
    · exact hnewer entry hentry

theorem currentPart?_eq {c : Change} (hcurrent : d.changes.current? = some c) (node : NodeId) :
    d.currentPart? node = c.part? node := by
  rw [currentPart?, hcurrent, Option.bind_some]

/-- The current change waits for a node from the other side of a partition. -/
structure Bars (d : Domain) (node : NodeId) : Prop where
  reunites : d.Reunites node
  waits : ∃ part, d.currentPart? node = some part ∧ part.2 = false

/-- It does if it lists the node. -/
theorem Withholds.bars (h : d.Withholds node) (hreunites : d.Reunites node) {c : Change}
    (hcurrent : d.changes.current? = some c) (hmember : c.isMember node = true) : d.Bars node := by
  rw [Change.isMember_eq, ← currentPart?_eq hcurrent, Option.isSome_iff_exists] at hmember
  obtain ⟨part, hpart⟩ := hmember
  exact ⟨hreunites, part, hpart, h hreunites part hpart⟩

theorem Bars.of_parts (h : d.Bars node)
    (hcount : d'.changes.startedCount = d.changes.startedCount)
    (hparts : d'.changes.pending.map (·.part? node) = d.changes.pending.map (·.part? node)) :
    d'.Bars node := by
  obtain ⟨hadded, hcurrent⟩ := parts_congr hparts
  refine ⟨?_, ?_⟩
  · rw [Reunites, hcount, hadded]
    exact h.reunites
  · rw [hcurrent]
    exact h.waits

theorem Bars.not_allStarted (h : d.Bars node) {c : Change}
    (hcurrent : d.changes.current? = some c) : c.allStarted = false := by
  obtain ⟨part, hpart, hunstarted⟩ := h.waits
  rw [currentPart?_eq hcurrent] at hpart
  by_contra hstarted
  have hawaits := Change.not_awaits_of_allStarted (by simpa using hstarted) node
  simp [Change.awaits_eq, hpart, hunstarted] at hawaits

/-- Getting on, the domain at most sends its START. -/
theorem Bars.advance (h : d.Bars node) :
    Stalled d d.advance.domain ∧ d.advance.domain.Bars node := by
  obtain heq | ⟨c, -, -, -, heq⟩ | ⟨c, -, hcurrent, hphase, -, heq⟩ |
    ⟨c, -, hcurrent, -, hstarted, -⟩ := d.advance_cases
  · rw [heq]
    exact ⟨.of_changes rfl rfl, h⟩
  · rw [heq]
    exact ⟨.of_changes rfl rfl, h⟩
  · have hchanges : (d.sendStart c).domain.changes =
        { d.changes with
          pending := { c with sentStart := true, phase := .awaitingStarts } ::
            d.changes.pending.tail } := ChangeQueue.updateCurrent_eq hcurrent _
    rw [heq]
    constructor
    · refine .of_fenced rfl (by rw [hchanges]) (by rw [hchanges]) ?_
      rw [hchanges, ChangeQueue.pending_of_current? hcurrent]
      simp [Change.fenced, hphase]
    · refine h.of_parts (by rw [hchanges]) ?_
      rw [hchanges, ChangeQueue.pending_of_current? hcurrent]
      rfl
  · rw [h.not_allStarted hcurrent] at hstarted
    cases hstarted

theorem Bars.receiveStart (h : d.Bars node)
    (hcount : s.sender = node → s.report.summary.startedCount ≠ 0) (now : Seconds) :
    Stalled d (d.receiveStart s now).1 ∧ (d.receiveStart s now).1.Bars node := by
  obtain ⟨_, _, hdomain⟩ := d.receiveStart_eq s now
  have hparts := parts_receiveStart
    (fun hsender => h.reunites.disallows hsender (hcount hsender)) now
  refine ⟨.of_fenced (by rw [hdomain]) (d.startedCount_receiveStart s now) ?_ ?_,
    h.of_parts (d.startedCount_receiveStart s now) hparts⟩
  · rw [changes_receiveStart]
    unfold takeDown
    split <;> rfl
  · rw [changes_receiveStart]
    exact map_takeDown fun c f _ => rfl

/-- A newer change has to wait for the node if it lists it. -/
theorem Bars.told (h : d.Bars node) {m : Membership} (hlisted : m.lists node = true)
    (now : Seconds) : Stalled d (d.told m now) ∧ (d.told m now).Bars node := by
  have hfencing : (d.told m now).fencing = d.fencing := addVictims_fencing _ _
  refine ⟨⟨hfencing, by rw [told_changes], by rw [told_changes],
    [(d.changes.changeSeq + 1, false)], by rw [told_changes]; rfl, by simp⟩, ⟨?_, ?_⟩, ?_⟩
  · rw [told_changes]
    exact h.reunites.1
  · rw [told_changes]
    exact Bool.or_eq_true_iff.2 (.inr h.reunites.2)
  · have hmember := Change.isMember_ofMembership (d.changes.changeSeq + 1) d.us m now node
    rw [hlisted, Change.isMember_eq, Option.isSome_iff_exists] at hmember
    obtain ⟨part, hpart⟩ := hmember
    refine ⟨part, ?_, Change.part?_ofMembership hpart⟩
    rw [currentPart?, told_changes]
    exact hpart

/-- What lets the changes go on: a change without the node, or the end of a fencing run that is
    outstanding. -/
def releases (d : Domain) (node : NodeId) : DomainInput → Bool
  | .membership m => !d.endsLeave m && m.stray?.isNone && !m.lists node
  | .finished => d.fencing
  | _ => false

theorem Bars.uptake (h : d.Bars node) {now : Seconds} {i : DomainInput}
    (hseasoned : i.seasoned node = true) (hkept : d.releases node i = false)
    (huptake : Uptake d now i d') : Stalled d d' ∧ d'.Bars node := by
  cases huptake with
  | stays _ fencing changes =>
    exact ⟨.of_changes fencing changes, h.of_parts (by rw [changes]) (by rw [changes])⟩
  | @getsOn _ d'' _ fencing changes =>
    have hd'' : d''.Bars node := h.of_parts (by rw [changes]) (by rw [changes])
    have hstalled : Stalled d d'' := .of_changes fencing changes
    exact ⟨hstalled.trans hd''.advance.1, hd''.advance.2⟩
  | starts start =>
    obtain ⟨hstalled, hbars⟩ :=
      h.receiveStart (DomainInput.startedCount_ne_zero hseasoned start) now
    exact ⟨hstalled.trans hbars.advance.1, hbars.advance.2⟩
  | left _ => exact ⟨.of_changes rfl rfl, h⟩
  | refused _ _ fencing changes =>
    exact ⟨.of_fenced fencing (by rw [changes]) (by rw [changes]) (by rw [changes]),
      h.of_parts (by rw [changes]) (by rw [changes])⟩
  | @queued m leave stray =>
    have hlisted : m.lists node = true := by simpa [releases, leave, stray] using hkept
    obtain ⟨hstalled, hbars⟩ := h.told hlisted now
    exact ⟨hstalled.trans hbars.advance.1, hbars.advance.2⟩
  | finished =>
    have hidle : d.fencing = false := hkept
    unfold finishFencing
    rw [hidle, if_neg Bool.false_ne_true]
    exact ⟨.of_changes rfl rfl, h⟩

/-- Nothing among the inputs lets the changes go on. -/
def holdsOut (d : Domain) (node : NodeId) : List (Seconds × DomainInput) → Bool
  | [] => true
  | (now, i) :: rest => !d.releases node i && (d.step now i).1.domain.holdsOut node rest

/-- What the daemon has to do along a run. -/
def asked (d : Domain) : List (Seconds × DomainInput) → List Action
  | [] => []
  | (now, i) :: rest => (d.step now i).1.actions ++ (d.step now i).1.domain.asked rest

/-- A run is asked for only as fencing becomes outstanding. -/
theorem Stalled.startsRun_eq_false {now : Seconds} {i : DomainInput}
    (h : Stalled d (d.step now i).1.domain) {a : Action} (ha : a ∈ (d.step now i).1.actions) :
    a.startsRun = false := by
  cases a with
  | startFencing nodesJoined =>
    have hopens := opens_turn (d.turn_step now i) ha
    have hfencing := h.fencing
    rw [hopens.idle, hopens.fencing] at hfencing
    cases hfencing
  | _ => rfl

theorem Bars.play (h : d.Bars node) {inputs : List (Seconds × DomainInput)}
    (hseasoned : ∀ input ∈ inputs, input.2.seasoned node = true)
    (hkept : d.holdsOut node inputs = true) :
    Stalled d (d.play inputs) ∧ (d.play inputs).Bars node ∧
      ∀ a ∈ d.asked inputs, a.startsRun = false := by
  induction inputs generalizing d with
  | nil => exact ⟨.of_changes rfl rfl, h, by simp [asked]⟩
  | cons timed rest ih =>
    rw [holdsOut, Bool.and_eq_true, Bool.not_eq_true'] at hkept
    obtain ⟨hstalled, hbars⟩ := h.uptake (hseasoned timed List.mem_cons_self) hkept.1
      (d.uptake_step timed.1 timed.2)
    obtain ⟨hlater, hafter, hquiet⟩ :=
      ih hbars (fun input hinput => hseasoned input (List.mem_cons_of_mem _ hinput)) hkept.2
    refine ⟨hstalled.trans hlater, hafter, fun a ha => ?_⟩
    obtain ha | ha := List.mem_append.1 ha
    · exact hstalled.startsRun_eq_false ha
    · exact hquiet a ha

/-- A START that does not count is marked as disallowed, and nothing is recorded of it but the
    match. -/
theorem receiveStart_of_disallows {seq : UInt32} (hfinds : d.finds s = some seq)
    (hdisallows : d.disallows s = true) (now : Seconds) : (d.receiveStart s now).1 =
      { d with
        changes := d.changes.update seq (·.updateMember s.sender (s.takenBy true))
        history := (s.find d.us d.changes d.history).2 } := by
  unfold finds at hfinds
  unfold Domain.disallows at hdisallows
  unfold receiveStart
  split
  · rename_i heq
    rw [heq] at hfinds
    cases hfinds
  · rename_i found history heq
    rw [heq] at hfinds ⊢
    rw [Option.some.inj hfinds, if_pos hdisallows]
    split
    · rw [update_updateMember_of_part?_eq_none (Option.isNone_iff_eq_none.1 ‹_›)]
    · rfl

/-- The mark is on the part of the sender in the change that the START is for. -/
theorem disallowed_update {q : ChangeQueue} {seq : UInt32} {us : NodeId} {h : History}
    (hfind : (s.find us q h).1 = some seq) (hnodup : (q.pending.map (·.seq)).Nodup) :
    ∃ c m, (q.update seq (·.updateMember s.sender (s.takenBy true))).get? seq = some c ∧
      c.member? s.sender = some m ∧ m.disallowed = true ∧ m.started = false := by
  obtain ⟨c, hc, rfl, hawaits⟩ := ReceivedStart.find_mem hfind
  obtain ⟨m, hm, hunstarted⟩ := (Option.any_eq_true _ _).1 hawaits
  have hunstarted : m.started = false := by simpa using hunstarted
  have hget : q.get? c.seq = some c := find?_of_mem hnodup hc
  have hmarked : (c.updateMember s.sender (s.takenBy true)).member? s.sender =
      some (s.takenBy true m) := by
    rw [c.member?_updateMember_self (s.takenBy_node true), hm, Option.map_some]
  refine ⟨_, _, ?_, hmarked, rfl, hunstarted⟩
  have hfind := find?_updateFirst (p := (·.seq == c.seq))
    (f := (·.updateMember s.sender (s.takenBy true))) (fun _ => rfl) q.pending
  exact hfind.trans (congrArg (Option.map _) hget)

end

/-- A node that has completed changes on the other side of a partition does not start the current
    change as long as a pending change has added it and we have completed changes as well. While the
    current change lists it, no change is done with or comes to be fenced for, until a change
    without it comes up or an outstanding fencing run ends; where membership changes wait for the
    end of fencing, none is outstanding. A START of the node that is matched is marked as
    disallowed, unless two pending changes have one number, and nothing else of it is recorded. -/
theorem healed_partition_stalls (config : Config) (inputs : List (Seconds × DomainInput))
    (node : NodeId) (hseasoned : ∀ input ∈ inputs, input.2.seasoned node = true)
    (hcompleted : ((new config).play inputs).changes.startedCount ≠ 0)
    (hadded : ((new config).play inputs).changes.isAdded node = true) :
    let d := (new config).play inputs
    (∀ c, d.changes.current? = some c → ∀ m, c.member? node = some m → m.started = false) ∧
    (∀ c, d.changes.current? = some c → c.isMember node = true →
      ((new config).PlaysInTurn inputs → d.fencing = false) ∧
      ∀ later, (∀ input ∈ later, input.2.seasoned node = true) → d.holdsOut node later = true →
        Stalled d (d.play later) ∧ ∀ a ∈ d.asked later, a.startsRun = false) ∧
    ∀ e s now seq, e.start? = some s → s.sender = node → s.report.summary.startedCount ≠ 0 →
      d.finds s = some seq →
      (d.receiveStart s now).1.changes =
        d.changes.update seq (·.updateMember node (s.takenBy true)) ∧
      ((d.changes.pending.map (·.seq)).Nodup →
        ∃ c m, (d.receiveStart s now).1.changes.get? seq = some c ∧ c.member? node = some m ∧
          m.disallowed = true ∧ m.started = false) ∧
      ∀ other, ((d.step now (.message e)).1.domain.history.get? other).map NodeHistory.unmatched =
        (d.history.get? other).map NodeHistory.unmatched := by
  intro d
  have hwithholds : d.Withholds node := withholds_play config hseasoned
  have hreunites : d.Reunites node := ⟨hcompleted, hadded⟩
  refine ⟨?_, ?_, ?_⟩
  · intro c hcurrent m hm
    have hpart : d.currentPart? node = some (m.added, m.started) := by
      rw [currentPart?_eq hcurrent, Change.part?, hm]
      rfl
    exact hwithholds hreunites _ hpart
  · intro c hcurrent hmember
    have hbars : d.Bars node := hwithholds.bars hreunites hcurrent hmember
    refine ⟨fun hturns => ?_, fun later hlater hkept => ?_⟩
    · have hl : d.Lifecycle := (lifecycle_new config).play hturns
      by_contra hfencing
      have hstarted := hl.allStarted (by simpa using hfencing) c hcurrent
      rw [hbars.not_allStarted hcurrent] at hstarted
      cases hstarted
    · obtain ⟨hstalled, -, hquiet⟩ := hbars.play hlater hkept
      exact ⟨hstalled, hquiet⟩
  · rintro e s now seq hstart rfl hcount hfinds
    have hdomain := receiveStart_of_disallows hfinds (hreunites.disallows rfl hcount) now
    refine ⟨by rw [hdomain], fun hnodup => ?_, fun other => ?_⟩
    · rw [hdomain]
      exact disallowed_update hfinds hnodup
    · simp only [step, receive, Reaction.after, advance_history, accept_of_start hstart, hdomain]
      exact s.map_unmatched_find d.us d.changes d.history other

section

/-- The START of a node for a change with these sizes and members, after so many completed ones. -/
def startFrom (sender : NodeId) (startedCount : UInt32) (counts : ChangeCounts)
    (members : List NodeId) : DomainInput :=
  .message
    { header := { sender }
      message := .start
        { seq := 0
          summary := { startedCount, counts }
          entries := members.map ({ node := ·, flags := 1 }) } }

/-- Node 1 completes a change on its own, and then node 2 comes back from the other side. -/
def healedPair : List (Seconds × DomainInput) :=
  let nodes := [⟨1, "node1", true, 1⟩, ⟨2, "node2", true, 1⟩]
  [(10, .cluster { quorate := true, ringSeq := 5, nodes }), (10, .ring 1 5),
   (11, .membership { members := [⟨1, .join⟩], left := [], joined := [⟨1, .join⟩] }),
   (12, startFrom 1 0 { members := 1, joined := 1 } [1]), (13, .finished),
   (14, .membership { members := [⟨1, .join⟩, ⟨2, .join⟩], left := [], joined := [⟨2, .join⟩] })]

/-- The START of node 2 for the change that added it. -/
def startFromOtherSide : Envelope where
  header := { sender := 2 }
  message := .start
    { seq := 7
      summary := { startedCount := 3, counts := { members := 2, joined := 1 } }
      entries := [{ node := 1, flags := 1 }, { node := 2, flags := 1 }] }

theorem healed_partition_stalls_pair :
    let d := (new pairConfig).play healedPair
    let later := [(15, DomainInput.message startFromOtherSide), (16, .finished)]
    (∀ input ∈ healedPair, input.2.seasoned 2 = true) ∧ d.changes.startedCount ≠ 0 ∧
      d.changes.isAdded 2 = true ∧ (new pairConfig).PlaysInTurn healedPair ∧ d.fencing = false ∧
      (∀ input ∈ later, input.2.seasoned 2 = true) ∧ d.holdsOut 2 later = true ∧
      Stalled d (d.play later) ∧
      ∃ s seq, startFromOtherSide.start? = some s ∧ d.finds s = some seq ∧
        ∃ c m, (d.receiveStart s 15).1.changes.get? seq = some c ∧ c.member? 2 = some m ∧
          m.disallowed = true ∧ m.started = false := by
  intro d later
  have hseasoned : ∀ input ∈ healedPair, input.2.seasoned 2 = true := by decide
  have hcompleted : d.changes.startedCount ≠ 0 := by decide +kernel
  have hadded : d.changes.isAdded 2 = true := by decide +kernel
  have hturns : (new pairConfig).PlaysInTurn healedPair := by
    simp only [healedPair, startFrom, PlaysInTurn, InTurn]
    decide +kernel
  have hlater : ∀ input ∈ later, input.2.seasoned 2 = true := by decide
  have hkept : d.holdsOut 2 later = true := by decide +kernel
  obtain ⟨-, hstalls, hmarks⟩ :=
    healed_partition_stalls pairConfig healedPair 2 hseasoned hcompleted hadded
  have hmember : ∃ c, d.changes.current? = some c ∧ c.isMember 2 = true := by decide +kernel
  obtain ⟨c, hcurrent, hmember⟩ := hmember
  obtain ⟨hidle, hstalls⟩ := hstalls c hcurrent hmember
  have hfinds : (startFromOtherSide.start?.bind d.finds) = some 2 := by decide +kernel
  obtain ⟨s, hstart, hfinds⟩ := Option.bind_eq_some_iff.1 hfinds
  have hsender : s.sender = 2 := (Option.some.inj hstart) ▸ rfl
  have hcount : s.report.summary.startedCount ≠ 0 := (Option.some.inj hstart) ▸ by decide
  obtain ⟨-, hmarked, -⟩ := hmarks startFromOtherSide s 15 2 hstart hsender hcount hfinds
  exact ⟨hseasoned, hcompleted, hadded, hturns, hidle hturns, hlater, hkept,
    (hstalls later hlater hkept).1, s, 2, hstart, hfinds,
    hmarked (nodup_seq_play pairConfig (by decide))⟩

/-- Node 3 is not the one that fences. -/
def thirdConfig : Config :=
  { Config.forNode 3 "node3" with domain := { nodes := [], cleanStart := true } }

/-- Nodes 1 and 3 complete a change. -/
def withoutTwo : List (Seconds × DomainInput) :=
  let nodes := [⟨1, "node1", true, 1⟩, ⟨2, "node2", true, 1⟩, ⟨3, "node3", true, 1⟩]
  let both : List GroupAddress := [⟨1, .join⟩, ⟨3, .join⟩]
  let counts : ChangeCounts := { members := 2, joined := 2 }
  [(10, .cluster { quorate := true, ringSeq := 5, nodes }), (10, .ring 1 5),
   (11, .membership { members := both, left := [], joined := both }),
   (12, startFrom 1 0 counts [1, 3]), (13, startFrom 3 0 counts [1, 3])]

/-- Node 2 comes to nodes 1 and 3. It is said to have joined, or not. -/
def comesTwo (joined : List GroupAddress) : DomainInput :=
  .membership { members := [⟨1, .join⟩, ⟨2, .join⟩, ⟨3, .join⟩], left := [], joined }

/-- Node 2 goes down. -/
def goesTwo : DomainInput :=
  .membership { members := [⟨1, .join⟩, ⟨3, .join⟩], left := [⟨2, .nodeDown⟩], joined := [] }

/-- Node 2 has come from the other side. -/
def comesBack : List (Seconds × DomainInput) := withoutTwo ++ [(14, comesTwo [⟨2, .join⟩])]

/-- Node 2 has come from the other side and gone down again. -/
def comesAndGoes : List (Seconds × DomainInput) := comesBack ++ [(15, goesTwo)]

/-- Nodes 1 and 3 start the change without node 2, and it comes again without having joined. -/
def staysOn : List (Seconds × DomainInput) :=
  let down : ChangeCounts := { members := 2, removed := 1, failed := 1 }
  let three : ChangeCounts := { members := 3 }
  [(16, startFrom 1 1 down [1, 3]), (17, startFrom 3 1 down [1, 3]), (18, comesTwo []),
   (19, startFrom 1 2 three [1, 2, 3]), (20, startFrom 3 2 three [1, 2, 3]),
   (21, startFrom 2 3 three [1, 2, 3])]

/-- Between the coming of node 2 and its going all other numbers of changes are used up. -/
def goesLate : List (Seconds × DomainInput) :=
  comesBack ++ List.replicate 4294967295 (14, strayAlone 4) ++ [(15, goesTwo)]

/-- Both pending changes have the number 2 then. -/
theorem play_goesLate : (new thirdConfig).play goesLate =
    ((((new thirdConfig).play comesBack).numbered 1).step 15 goesTwo).1.domain := by
  have hseq : ((new thirdConfig).play comesBack).changes.changeSeq + .ofNat 4294967295 = 1 := by
    decide +kernel
  rw [goesLate, play_append, play_append, play_strayAlone, hseq]
  rfl

theorem arrives_goesLate :
    ∀ input ∈ goesLate, input.2.arrives = true ∧ input.2.seasoned 2 = true := by
  have hcomes : ∀ input ∈ comesBack, input.2.arrives = true ∧ input.2.seasoned 2 = true := by
    decide
  intro input hinput
  obtain hinput | hinput := List.mem_append.1 hinput
  · obtain hinput | hinput := List.mem_append.1 hinput
    · exact hcomes input hinput
    · rw [List.eq_of_mem_replicate hinput]
      exact ⟨rfl, rfl⟩
  · rw [List.mem_singleton.1 hinput]
    exact ⟨rfl, rfl⟩

/-- The START of node 2 for the change that added it to nodes 1 and 3. -/
def startForThree : ReceivedStart where
  sender := 2
  flags := {}
  report :=
    { seq := 7
      summary := { startedCount := 3, counts := { members := 3, joined := 1 } }
      entries := [{ node := 1, flags := 1 }, { node := 2, flags := 1 }, { node := 3, flags := 1 }] }

/-- A node from the other side is not held up in every case. If the current change does not list it,
    all changes are done with in time, and then its START counts for one that lists it and does not
    add it. And where two pending changes have one number, its START for the older one is marked
    nowhere if the newer one does not list it. -/
theorem healed_partition_slips_through :
    (¬ ∀ (config : Config) (inputs later : List (Seconds × DomainInput)) (node : NodeId),
      (∀ input ∈ inputs ++ later, input.2.arrives = true ∧ input.2.seasoned node = true) →
      ((new config).play inputs).changes.startedCount ≠ 0 →
      ((new config).play inputs).changes.isAdded node = true →
      (∀ input ∈ later, ∀ m, input.2 = .membership m → m.lists node = true) →
      ∀ c, ((new config).play (inputs ++ later)).changes.started = some c →
        ((new config).play inputs).changes.started ≠ some c → c.isMember node = false) ∧
    ¬ ∀ (config : Config) (inputs : List (Seconds × DomainInput)) (node : NodeId)
        (s : ReceivedStart) (now : Seconds) (seq : UInt32),
      (∀ input ∈ inputs, input.2.arrives = true ∧ input.2.seasoned node = true) →
      ((new config).play inputs).changes.startedCount ≠ 0 →
      ((new config).play inputs).changes.isAdded node = true →
      s.sender = node → s.report.summary.startedCount ≠ 0 →
      ((new config).play inputs).finds s = some seq →
      ∃ c ∈ (((new config).play inputs).receiveStart s now).1.changes.pending,
        c.seq = seq ∧ (c.member? node).any (·.disallowed) = true := by
  constructor
  · intro hclaim
    have hkept : ∀ input ∈ staysOn, ∀ m, input.2 = .membership m → m.lists 2 = true := by
      simp [staysOn, startFrom, comesTwo, Membership.lists]
    have hretired : (((new thirdConfig).play (comesAndGoes ++ staysOn)).changes.started.any fun c =>
        c.isMember 2 && ((new thirdConfig).play comesAndGoes).changes.started != some c) = true := by
      decide +kernel
    obtain ⟨c, hc, hmember⟩ := (Option.any_eq_true _ _).1 hretired
    rw [Bool.and_eq_true, bne_iff_ne] at hmember
    have hout := hclaim thirdConfig comesAndGoes staysOn 2 (by decide) (by decide +kernel)
      (by decide +kernel) hkept c hc hmember.2
    rw [hmember.1] at hout
    cases hout
  · intro hclaim
    have hmarked := hclaim thirdConfig goesLate 2 startForThree 16 2 arrives_goesLate
    rw [play_goesLate] at hmarked
    obtain ⟨c, hc, -, hdisallowed⟩ :=
      hmarked (by decide +kernel) (by decide +kernel) rfl (by decide) (by decide +kernel)
    have hnone : ((((((new thirdConfig).play comesBack).numbered 1).step 15
        goesTwo).1.domain.receiveStart startForThree 16).1.changes.pending.any fun c =>
          (c.member? 2).any (·.disallowed)) = false := by
      decide +kernel
    rw [List.any_eq_false] at hnone
    exact hnone c hc hdisallowed

end

end Domain

end ClusterFence
