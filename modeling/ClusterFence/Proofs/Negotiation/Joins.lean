import ClusterFence.Proofs.Negotiation.Agreement

namespace ClusterFence

open LogEntry

/-- The daemon has taken up all entries before entry `n`, and what it has yet to get into the log it
    has sent after that entry. -/
def Seat.Past (s : Seat) (n : Nat) : Prop := n ≤ s.next ∧ ∀ sent ∈ s.outbox, n < sent.1

namespace Assembly

/-- Nobody joins along these moves before everything is delivered. -/
def JoinsWait (a : Assembly) : List Move → Prop
  | [] => True
  | m :: rest =>
    (match m with
      | .membership members _ _ => a.joining members ≠ [] → a.Quiet
      | .delivery _ | .stateful _ => True) ∧ (a.move m).JoinsWait rest

/-- Whatever comes after entry `n` was announced by who had taken it up. -/
structure Past (a : Assembly) (n : Nat) : Prop where
  log : ∀ sender made o, .offer sender made o ∈ a.log.drop (n + 1) → n < made
  seats : ∀ node ∈ a.members, (a.seat node).Past n

/-- So it is with every join in the log. -/
def InTime (a : Assembly) : Prop :=
  ∀ n members joined, a.log[n]? = some (.membership members joined) → joined ≠ [] → a.Past n

end Assembly

section

variable {n : Nat} {a a' : Assembly}

/-- What is sent when an entry is taken up is sent after it. -/
theorem Seat.Past.takes {s s' : Seat} {e : LogEntry} (h : s.Past n) (htakes : s.Takes e s') :
    s'.Past n := by
  have hsends {g : DaemonGroup} (offers : List Offer) :
      ({ s with group := g, next := s.next + 1 }.sends offers).Past n := by
    refine ⟨Nat.le_succ_of_le h.1, fun sent hsent => ?_⟩
    obtain hsent | hsent := List.mem_append.1 hsent
    · exact h.2 sent hsent
    · obtain ⟨o, -, rfl⟩ := List.mem_map.1 hsent
      exact Nat.lt_succ_of_le h.1
  cases htakes with
  | told => exact hsends _
  | refused => exact ⟨Nat.le_succ_of_le h.1, h.2⟩
  | heard => exact hsends _

namespace Assembly

theorem Past.put (h : a.Past n) {node : NodeId} {s : Seat} (hs : (a.seat node).Past n → s.Past n) :
    (a.put node s).Past n := by
  refine ⟨h.log, fun other hother => ?_⟩
  by_cases hne : other = node
  · subst hne
    rw [seat_put_self]
    exact hs (h.seats other hother)
  · rw [seat_put_of_ne s hne]
    exact h.seats other hother

theorem Past.delivered (h : a.Past n) (hdelivered : a.Delivered a') : a'.Past n := by
  cases hdelivered with
  | idle => exact h
  | takesUp node e s _ _ htakes => exact h.put fun hs => hs.takes htakes
  | placed node made o rest hmem houtbox =>
    refine ⟨fun sender made' o' ho' => ?_, fun other hother => ?_⟩
    · rw [log_place, List.drop_append] at ho'
      obtain ho' | ho' := List.mem_append.1 ho'
      · exact h.log sender made' o' ho'
      · obtain ⟨-, hmade, -⟩ : sender = node ∧ made' = made ∧ o' = o := by
          simpa using List.mem_of_mem_drop ho'
        rw [hmade]
        exact (h.seats node hmem).2 (made, o) (by rw [houtbox]; exact List.mem_cons_self)
    · obtain ⟨outbox, hsubset, hseat⟩ := seat_place houtbox other
      obtain ⟨hnext, hsent⟩ := h.seats other (members_place ▸ hother)
      rw [hseat]
      exact ⟨hnext, fun sent hmem => hsent sent (hsubset hmem)⟩

theorem Past.changeMembers (h : a.Past n) (hlength : n ≤ a.log.length) (members : List NodeId)
    (highest : NodeId → PositiveVersion) (moment : NodeId → Moment) :
    (a.changeMembers members highest moment).Past n := by
  refine ⟨fun sender made o ho => h.log sender made o ?_, fun node hnode => ?_⟩
  · rw [log_changeMembers, List.drop_append] at ho
    obtain ho | ho := List.mem_append.1 ho
    · exact ho
    · cases List.mem_singleton.1 (List.mem_of_mem_drop ho)
  · rw [members_changeMembers] at hnode
    cases hadds : (a.joining members).contains node with
    | true =>
      rw [seat_changeMembers_of_mem a highest moment hadds]
      have hfresh : Seat.Past
          { group := .new node (highest node), next := a.log.length } n :=
        ⟨hlength, fun sent hsent => by cases hsent⟩
      exact hfresh.takes (Seat.takes_takes _ _ _)
    | false =>
      rw [seat_changeMembers_of_not_mem a highest moment hadds]
      refine h.seats node ?_
      by_contra hnot
      rw [a.contains_joining_iff.2 ⟨hnode, hnot⟩] at hadds
      cases hadds

/-- Where everything is delivered, nobody has anything left to send of what came before. -/
theorem Quiet.past (h : a.Quiet) : a.Past a.log.length := by
  refine ⟨fun sender made o ho => ?_, fun node hnode => ?_⟩
  · rw [List.drop_of_length_le (Nat.le_succ _)] at ho
    cases ho
  · obtain ⟨houtbox, hnext⟩ := h node hnode
    refine ⟨hnext.ge, fun sent hsent => ?_⟩
    rw [houtbox] at hsent
    cases hsent

/-- A delivery puts no join in the log. -/
theorem InTime.delivered (h : a.InTime) (hdelivered : a.Delivered a') : a'.InTime := by
  intro n members joined hget hjoined
  refine Past.delivered (h n members joined ?_ hjoined) hdelivered
  cases hdelivered with
  | idle | takesUp => exact hget
  | placed node made o rest hmem houtbox =>
    rw [log_place, List.getElem?_append] at hget
    split at hget
    · exact hget
    · cases List.mem_singleton.1 (List.mem_of_getElem? hget)

theorem InTime.changeMembers (h : a.InTime) {members : List NodeId}
    (hwait : a.joining members ≠ [] → a.Quiet) (highest : NodeId → PositiveVersion)
    (moment : NodeId → Moment) : (a.changeMembers members highest moment).InTime := by
  intro n members' joined hget hjoined
  rw [log_changeMembers, List.getElem?_append] at hget
  split at hget
  · rename_i hlt
    exact (h n members' joined hget hjoined).changeMembers hlt.le members highest moment
  · rename_i hge
    obtain ⟨hlt, -⟩ := List.getElem?_eq_some_iff.1 hget
    obtain rfl : n = a.log.length := by
      rw [List.length_singleton] at hlt
      omega
    obtain ⟨rfl, rfl⟩ := by simpa using hget
    exact (hwait hjoined).past.changeMembers le_rfl _ highest moment

theorem InTime.play (h : a.InTime) {moves : List Move} (hwait : a.JoinsWait moves) :
    (a.play moves).InTime := by
  induction moves generalizing a with
  | nil => exact h
  | cons m rest ih =>
    obtain ⟨hnow, hrest⟩ := hwait
    refine ih ?_ hrest
    cases m with
    | delivery d => exact h.delivered (a.delivered_deliver d)
    | membership members highest moment => exact h.changeMembers hnow highest moment
    | stateful node =>
      simp only [Assembly.move]
      split
      · exact fun n members joined hget hjoined => (h n members joined hget hjoined).put id
      · exact h

theorem InTime.noneOvertaken (h : a.InTime) : NoneOvertaken a.log := by
  intro n hn
  cases he : a.log[n] with
  | offer => trivial
  | membership members joined =>
    intro hjoined node _ _ v _ e hafter
    have hpast := h n members joined (by rw [List.getElem?_eq_getElem hn, he]) hjoined
    cases e with
    | membership => trivial
    | offer sender made o =>
      intro hmade
      rw [List.length_take, Nat.min_eq_left hn.le] at hmade
      exact absurd (hpast.log sender made o hafter) hmade.not_gt

/-- Members that run a version run the same one when nobody joins before everything is delivered,
    whoever goes meanwhile. -/
theorem agree_of_joinsWait {moves : List Move} (hwait : new.JoinsWait moves) {p q : NodeId}
    (hp : p ∈ (new.play moves).members) (hq : q ∈ (new.play moves).members) {v w : Version}
    (hv : ((new.play moves).seat p).group.running? = some v)
    (hw : ((new.play moves).seat q).group.running? = some w) :
    v.withoutFlags = w.withoutFlags := by
  have hnew : new.InTime := fun n members joined hget => by cases hget
  exact (faithful_new.play moves).agree (hnew.play hwait).noneOvertaken hp hq hv hw

end Assembly

end

end ClusterFence
