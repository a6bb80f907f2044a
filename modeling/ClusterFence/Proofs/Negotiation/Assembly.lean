import ClusterFence.Proofs.Negotiation.Group
import ClusterFence.Proofs.Negotiation.Lowest

namespace ClusterFence

/-- A highest version that a daemon can announce. -/
abbrev PositiveVersion := { v : Version // v.Positive }

/-- An entry of the log: the members changed, or a member announced something after it had taken up
    the first `made` entries. -/
inductive LogEntry where
  | membership (members joined : List NodeId)
  | offer (sender : NodeId) (made : Nat) (o : Offer)
deriving DecidableEq

namespace LogEntry

def members? : LogEntry → Option (List NodeId)
  | .membership members _ => some members
  | .offer _ _ _ => none

/-- The node joins. -/
def adds (node : NodeId) : LogEntry → Bool
  | .membership _ joined => joined.contains node
  | .offer _ _ _ => false

/-- The members after the entries of a log. -/
def lastMembers (log : List LogEntry) : List NodeId := (log.reverse.findSome? members?).getD []

@[simp] theorem lastMembers_append_singleton (log : List LogEntry) (e : LogEntry) :
    lastMembers (log ++ [e]) = e.members?.getD (lastMembers log) := by
  unfold lastMembers
  rw [List.reverse_append, List.reverse_singleton, List.singleton_append, List.findSome?_cons]
  cases e.members? <;> rfl

/-- To take up the next entry is to have taken up one more. -/
theorem take_succ_of_next {log : List LogEntry} {next : Nat} {e : LogEntry}
    (h : log[next]? = some e) : log.take (next + 1) = log.take next ++ [e] := by
  rw [List.take_add_one, h, Option.toList_some]

end LogEntry

/-- What a daemon reads of its surroundings when it takes up an entry. -/
structure Moment where
  now : Seconds := 0
  quorate : Bool := false
  quorateTime : Seconds := 0

/-- What goes out when a proposal is due. -/
def DaemonGroup.proposal? (g : DaemonGroup) : Option Offer := g.propose.2.toOption.join

/-- A daemon at the log: the group as it sees it, how many entries it has taken up, and what it has
    sent that is not in the log yet, with the number of entries that it had taken up then. -/
structure Seat where
  group : DaemonGroup
  next : Nat
  outbox : List (Nat × Offer) := []

namespace Seat

def sends (s : Seat) (offers : List Offer) : Seat :=
  { s with outbox := s.outbox ++ offers.map (s.next, ·) }

/-- The next entry is taken up. Our own offer is announced again when somebody joined, and a
    proposal is made as soon as it is due. -/
def takes (s : Seat) (moment : Moment) : LogEntry → Seat
  | .membership members joined =>
    let group := s.group.changeMembers members moment.now
    { s with group, next := s.next + 1 }.sends
      (if DaemonGroup.announces joined then [group.ours] else [])
  | .offer sender _ o =>
    match s.group.receiveOffer sender o moment.quorate moment.quorateTime with
    | .ok (group, _) =>
      { s with group := group.propose.1, next := s.next + 1 }.sends group.proposal?.toList
    | .error _ => { s with next := s.next + 1 }

end Seat

/-- The daemons, each at its seat, and the log of their group. -/
structure Assembly where
  seat : NodeId → Seat
  log : List LogEntry := []

/-- A member takes up the next entry of the log, or the oldest of the announcements that it has sent
    gets into the log. -/
inductive Delivery where
  | takesUp (node : NodeId) (moment : Moment)
  | places (node : NodeId)

namespace Assembly

/-- Nobody is in the group. -/
def new : Assembly := { seat := fun node => { group := .new node {}, next := 0 } }

def members (a : Assembly) : List NodeId := LogEntry.lastMembers a.log

def put (a : Assembly) (node : NodeId) (s : Seat) : Assembly :=
  { a with seat := fun other => if other = node then s else a.seat other }

/-- Those who join when the members change. -/
def joining (a : Assembly) (members : List NodeId) : List NodeId :=
  members.filter (!a.members.contains ·)

/-- The members change. A node that joins starts afresh, with the change that adds it. -/
def changeMembers (a : Assembly) (members : List NodeId) (highest : NodeId → PositiveVersion)
    (moment : NodeId → Moment) : Assembly :=
  let change := .membership members (a.joining members)
  { seat := fun node =>
      if (a.joining members).contains node then
        Seat.takes { group := .new node (highest node), next := a.log.length } (moment node) change
      else a.seat node
    log := a.log ++ [change] }

/-- The oldest announcement of a node that is not in the log yet gets its place there. -/
def place (a : Assembly) (node : NodeId) (made : Nat) (o : Offer) (rest : List (Nat × Offer)) :
    Assembly :=
  { a.put node { a.seat node with outbox := rest } with log := a.log ++ [.offer node made o] }

/-- What a delivery does. Who is no member takes up nothing, and nobody hears of it. -/
def deliver (a : Assembly) : Delivery → Assembly
  | .takesUp node moment =>
    match a.log[(a.seat node).next]? with
    | some e => if a.members.contains node then a.put node ((a.seat node).takes moment e) else a
    | none => a
  | .places node =>
    match (a.seat node).outbox with
    | (made, o) :: rest => if a.members.contains node then a.place node made o rest else a
    | [] => a

/-- All that a node has announced, in the order in which it did: what is in the log by now, and what
    is not. -/
def said (a : Assembly) (node : NodeId) : List Offer :=
  (a.log.filterMap fun
    | .offer sender _ o => if sender = node then some o else none
    | .membership _ _ => none) ++ (a.seat node).outbox.map (·.2)

/-- Nothing is undelivered: what was sent is in the log, and every member has taken up all of it. -/
def Quiet (a : Assembly) : Prop :=
  ∀ node ∈ a.members, (a.seat node).outbox = [] ∧ (a.seat node).next = a.log.length

instance (a : Assembly) : Decidable a.Quiet := List.decidableBAll _ a.members

end Assembly

namespace DaemonGroup

theorem proposal?_eq_some_iff {g : DaemonGroup} {o : Offer} :
    g.proposal? = some o ↔
      g.mayPropose = true ∧ ∃ run, g.lowestVersion = .ok run ∧ o = { max := g.ours.max, run } := by
  unfold proposal? propose
  split
  · cases g.lowestVersion with
    | ok run => simp [*, Except.map, Except.toOption, eq_comm]
    | error e => simp [*, Except.map, Except.toOption]
  · simp [*, Except.toOption]

end DaemonGroup

/-- What taking up an entry comes to: the members change, an announcement is refused, or it is heard
    and a proposal may follow. -/
inductive Seat.Takes (s : Seat) : LogEntry → Seat → Prop
  | told (members joined now) :
      Takes s (.membership members joined)
        ({ s with group := s.group.changeMembers members now, next := s.next + 1 }.sends
          (if DaemonGroup.announces joined then [s.group.ours] else []))
  | refused (sender made o) (unfit : ¬ o.WellFormed ∨ s.group.lists sender = false) :
      Takes s (.offer sender made o) { s with next := s.next + 1 }
  | heard (sender made o) (g verdict) (hears : s.group.Hears sender o (.ok (g, verdict))) :
      Takes s (.offer sender made o)
        ({ s with group := g.propose.1, next := s.next + 1 }.sends g.proposal?.toList)

theorem Seat.takes_takes (s : Seat) (moment : Moment) (e : LogEntry) :
    s.Takes e (s.takes moment e) := by
  cases e with
  | membership members joined => exact .told members joined moment.now
  | offer sender made o =>
    have hears := s.group.hears_receiveOffer sender o moment.quorate moment.quorateTime
    unfold takes
    dsimp only
    generalize s.group.receiveOffer sender o moment.quorate moment.quorateTime = received at hears
    cases received with
    | ok received => exact .heard sender made o _ _ hears
    | error e =>
      obtain ⟨-, unfit⟩ := hears
      exact .refused sender made o unfit

namespace Assembly

section

variable (a : Assembly) {members : List NodeId} {node : NodeId}

@[simp] theorem contains_joining_iff :
    (a.joining members).contains node = true ↔ node ∈ members ∧ node ∉ a.members := by
  simp [joining]

variable (highest : NodeId → PositiveVersion) (moment : NodeId → Moment)

@[simp] theorem log_changeMembers : (a.changeMembers members highest moment).log =
    a.log ++ [.membership members (a.joining members)] := rfl

@[simp] theorem members_changeMembers :
    (a.changeMembers members highest moment).members = members :=
  LogEntry.lastMembers_append_singleton a.log _

theorem seat_changeMembers_of_mem (h : (a.joining members).contains node = true) :
    (a.changeMembers members highest moment).seat node =
      Seat.takes { group := .new node (highest node), next := a.log.length } (moment node)
        (.membership members (a.joining members)) := if_pos h

theorem seat_changeMembers_of_not_mem (h : (a.joining members).contains node = false) :
    (a.changeMembers members highest moment).seat node = a.seat node :=
  if_neg (Bool.not_eq_true _ ▸ h)

end

section

variable {a : Assembly} {node : NodeId}

@[simp] theorem seat_put_self (s : Seat) : (a.put node s).seat node = s := if_pos rfl

theorem seat_put_of_ne (s : Seat) {other : NodeId} (hne : other ≠ node) :
    (a.put node s).seat other = a.seat other := if_neg hne

@[simp] theorem log_put (s : Seat) : (a.put node s).log = a.log := rfl

theorem said_put_of_ne (s : Seat) {other : NodeId} (hne : other ≠ node) :
    (a.put node s).said other = a.said other := by
  rw [said, said, seat_put_of_ne s hne, log_put]

/-- What a node sends when it takes up an entry is added to what it has said. -/
theorem said_put_self {s : Seat} {sent : List Offer}
    (houtbox : s.outbox.map (·.2) = (a.seat node).outbox.map (·.2) ++ sent) :
    (a.put node s).said node = a.said node ++ sent := by
  rw [said, said, seat_put_self, log_put, houtbox, List.append_assoc]

variable {made : Nat} {o : Offer} {rest : List (Nat × Offer)}

/-- To get something into the log leaves a seat as it is, its outbox apart. -/
theorem seat_place (houtbox : (a.seat node).outbox = (made, o) :: rest) (other : NodeId) :
    ∃ outbox, outbox ⊆ (a.seat other).outbox ∧
      (a.place node made o rest).seat other = { a.seat other with outbox } := by
  by_cases hother : other = node
  · subst hother
    refine ⟨rest, ?_, seat_put_self _⟩
    rw [houtbox]
    exact List.subset_cons_self _ _
  · exact ⟨(a.seat other).outbox, List.Subset.refl _, seat_put_of_ne _ hother⟩

@[simp] theorem log_place : (a.place node made o rest).log = a.log ++ [.offer node made o] := rfl

@[simp] theorem members_place : (a.place node made o rest).members = a.members :=
  LogEntry.lastMembers_append_singleton a.log _

theorem said_place (houtbox : (a.seat node).outbox = (made, o) :: rest) (other : NodeId) :
    (a.place node made o rest).said other = a.said other := by
  unfold said
  by_cases hother : node = other
  · subst hother
    simp [place, houtbox]
  · simp [place, hother, seat_put_of_ne _ (Ne.symm hother)]

theorem mem_said_of_mem_log (h : .offer node made o ∈ a.log) : o ∈ a.said node :=
  List.mem_append_left _ (List.mem_filterMap.2 ⟨_, h, if_pos rfl⟩)

/-- What a node has said is in the log once its outbox is empty. -/
theorem exists_mem_log_of_mem_said (houtbox : (a.seat node).outbox = []) (h : o ∈ a.said node) :
    ∃ made, .offer node made o ∈ a.log := by
  rw [said, houtbox, List.map_nil, List.append_nil] at h
  obtain ⟨_ | ⟨sender, made, o'⟩, hmem, heq⟩ := List.mem_filterMap.1 h
  · cases heq
  · obtain ⟨rfl, rfl⟩ := by simpa using heq
    exact ⟨made, hmem⟩

end

/-- What a delivery can come to. -/
inductive Delivered (a : Assembly) : Assembly → Prop
  | idle : Delivered a a
  | takesUp (node e s) (mem : node ∈ a.members) (next : a.log[(a.seat node).next]? = some e)
      (takes : (a.seat node).Takes e s) : Delivered a (a.put node s)
  | placed (node made o rest) (mem : node ∈ a.members)
      (outbox : (a.seat node).outbox = (made, o) :: rest) :
      Delivered a (a.place node made o rest)

theorem delivered_deliver (a : Assembly) (d : Delivery) : a.Delivered (a.deliver d) := by
  cases d with
  | takesUp node moment =>
    simp only [deliver]
    split
    · split
      · exact .takesUp node _ _ (List.contains_iff_mem.1 ‹_›) ‹_› (Seat.takes_takes _ moment _)
      · exact .idle
    · exact .idle
  | places node =>
    simp only [deliver]
    split
    · split
      · exact .placed node _ _ _ (List.contains_iff_mem.1 ‹_›) ‹_›
      · exact .idle
    · exact .idle

end Assembly

end ClusterFence
