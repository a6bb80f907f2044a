import ClusterFence.Network
import ClusterFence.Proofs.Cluster
import ClusterFence.Proofs.Domain.Turns
import ClusterFence.Proofs.Victims

namespace ClusterFence

/-- Nodes of a group go down together. Every survivor is told so once, at a time of its clock. -/
structure Outage where
  membership : Membership
  time : NodeId → Seconds
  survivors_ne_nil : membership.members ≠ []
  failed_ne_nil : membership.left ≠ []
  joined_eq_nil : membership.joined = []
  nodeDown : ∀ a ∈ membership.left, a.reason = .nodeDown
  nodup : ((membership.members ++ membership.left).map (·.node)).Nodup

def Outage.survivors (o : Outage) : List NodeId := o.membership.members.map (·.node)

def Outage.failed (o : Outage) : List NodeId := o.membership.left.map (·.node)

/-- A survivor, whether it was told of the outage, the messages that it has sent and that have no
    place in the order yet, and those that it has heard. -/
structure Survivor where
  domain : Domain
  told : Bool := false
  outbox : List (MessageFlags × Message) := []
  heard : List Posted := []

/-- The survivors, the order of the messages that all of them hear, and the survivors that have
    asked for a fencing run, as often as they did. -/
structure Episode where
  site : NodeId → Survivor
  order : List Posted := []
  fencers : List NodeId := []

/-- Something that happens at a survivor. Its oldest message that has no place in the order gets
    the next one, or it hears the next message of the order; its fencing run deals with a victim,
    or is over. -/
inductive Happening where
  | told
  | ring (node : NodeId) (seq : UInt64)
  | cluster (snapshot : ClusterSnapshot)
  | placed
  | hears
  | resolves (victim : NodeId) (how : Resolution) (reduced : Bool)
  | finishes

namespace Episode

/-- The survivors before they are told. -/
def new (domains : NodeId → Domain) : Episode := { site := ({ domain := domains · }) }

/-- The domain of a survivor reacts to an input. The survivor was told then, and has heard
    `heard`. -/
def react (e : Episode) (p : NodeId) (heard : List Posted) (r : Reaction) : Episode :=
  { e with
    site := fun q =>
      if q = p then
        { domain := r.domain
          told := true
          outbox := (e.site p).outbox ++ Action.sent r.actions
          heard }
      else e.site q
    fencers := e.fencers ++ List.replicate (r.actions.countP Action.startsRun) p }

/-- An input happens to the domain of a survivor. -/
def act (e : Episode) (p : NodeId) (heard : List Posted) (now : Seconds) (i : DomainInput) :
    Episode :=
  e.react p heard ((e.site p).domain.step now i).1

/-- The oldest message of a survivor's outbox gets its place in the order. -/
def place (e : Episode) (p : NodeId) (flags : MessageFlags) (message : Message)
    (rest : List (MessageFlags × Message)) : Episode :=
  { e with
    site := fun q => if q = p then { e.site p with outbox := rest } else e.site q
    order := e.order ++ [{ sender := p, flags, message }] }

/-- What a happening at a survivor does. One that is not possible does nothing: only who was told
    hears from the services, and only a master with fencing outstanding deals with its open
    victims, and finishes when none is open. -/
def move (o : Outage) (e : Episode) (p : NodeId) (now : Seconds) (h : Happening) : Episode :=
  let s := e.site p
  if p ∉ o.survivors then e
  else
    match h with
    | .told => if s.told then e else e.act p s.heard (o.time p) (.membership o.membership)
    | .ring node seq => if s.told then e.act p s.heard now (.ring node seq) else e
    | .cluster snapshot =>
      if s.told && s.domain.cluster.keeps snapshot o.survivors then
        e.act p s.heard now (.cluster snapshot)
      else e
    | .placed =>
      match s.outbox with
      | [] => e
      | (flags, message) :: rest => e.place p flags message rest
    | .hears =>
      match e.order[s.heard.length]? with
      | none => e
      | some m => if s.told then e.act p (s.heard ++ [m]) now (.message m.envelope) else e
    | .resolves victim how reduced =>
      if s.told && s.domain.fencing && s.domain.victims.isOpen victim then
        e.act p s.heard now (.resolved victim how reduced)
      else e
    | .finishes =>
      if s.told && s.domain.fencing && s.domain.victims.toList.all (·.resolvedHere) then
        e.act p s.heard now .finished
      else e

/-- The episode after happenings, each at a survivor and at a time of its clock. -/
def play (o : Outage) (e : Episode) : List (NodeId × Seconds × Happening) → Episode
  | [] => e
  | (p, now, h) :: rest => (e.move o p now h).play o rest

/-- Everything that a survivor has sent, in the order in which it did. -/
def said (e : Episode) (p : NodeId) : List (MessageFlags × Message) :=
  (e.order.filter (·.sender == p)).map (fun m => (m.flags, m.message)) ++ (e.site p).outbox

/-- What every move preserves holds after a run when it held before. -/
theorem play_induction {o : Outage} {P : Episode → Prop}
    (hmove : ∀ e p now happening, P e → P (e.move o p now happening)) {e : Episode} (h : P e)
    (moves : List (NodeId × Seconds × Happening)) : P (e.play o moves) := by
  induction moves generalizing e with
  | nil => exact h
  | cons move rest ih => exact ih (hmove e _ _ _ h)

section

variable (e : Episode) (p : NodeId) (heard : List Posted) (r : Reaction)

@[simp] theorem site_react_self : (e.react p heard r).site p =
    { domain := r.domain
      told := true
      outbox := (e.site p).outbox ++ Action.sent r.actions
      heard } := if_pos rfl

theorem site_react_of_ne {q : NodeId} (hne : q ≠ p) : (e.react p heard r).site q = e.site q :=
  if_neg hne

@[simp] theorem order_react : (e.react p heard r).order = e.order := rfl

@[simp] theorem said_react_self :
    (e.react p heard r).said p = e.said p ++ Action.sent r.actions := by
  simp [said]

theorem said_react_of_ne {q : NodeId} (hne : q ≠ p) : (e.react p heard r).said q = e.said q := by
  simp [said, site_react_of_ne e p heard r hne]

/-- What holds of every survivor holds after a reaction, if it holds of the one that reacts. -/
theorem forall_react {nodes : List NodeId}
    {R : NodeId → Survivor → List (MessageFlags × Message) → Prop}
    (hall : ∀ q ∈ nodes, R q (e.site q) (e.said q))
    (hself : R p ((e.react p heard r).site p) (e.said p ++ Action.sent r.actions)) :
    ∀ q ∈ nodes, R q ((e.react p heard r).site q) ((e.react p heard r).said q) := by
  intro q hq
  by_cases hqp : q = p
  · rw [hqp, said_react_self]
    exact hself
  · rw [site_react_of_ne e p heard r hqp, said_react_of_ne e p heard r hqp]
    exact hall q hq

theorem count_fencers_react_self : (e.react p heard r).fencers.count p =
    e.fencers.count p + r.actions.countP Action.startsRun := by
  simp [react]

theorem count_fencers_react_of_ne {q : NodeId} (hne : q ≠ p) :
    (e.react p heard r).fencers.count q = e.fencers.count q := by
  simp [react, List.count_replicate, hne.symm]

end

section

variable {e : Episode} {p : NodeId} {flags : MessageFlags} {message : Message}
  {rest : List (MessageFlags × Message)}

@[simp] theorem site_place_self :
    (e.place p flags message rest).site p = { e.site p with outbox := rest } := if_pos rfl

theorem site_place_of_ne {q : NodeId} (hne : q ≠ p) :
    (e.place p flags message rest).site q = e.site q := if_neg hne

/-- To get a place in the order leaves a survivor as it is, its outbox apart. -/
theorem site_place (q : NodeId) : ∃ outbox,
    (e.place p flags message rest).site q = { e.site q with outbox } := by
  by_cases hq : q = p
  · rw [hq, site_place_self]
    exact ⟨_, rfl⟩
  · rw [site_place_of_ne hq]
    exact ⟨_, rfl⟩

@[simp] theorem order_place : (e.place p flags message rest).order =
    e.order ++ [{ sender := p, flags, message }] := rfl

@[simp] theorem said_place (houtbox : (e.site p).outbox = (flags, message) :: rest) (q : NodeId) :
    (e.place p flags message rest).said q = e.said q := by
  unfold said
  by_cases hq : q = p
  · simp [hq, houtbox]
  · have hne : p ≠ q := Ne.symm hq
    simp [site_place_of_ne hq, hne]

theorem mem_said_of_mem_order {m : Posted} (h : m ∈ e.order) :
    (m.flags, m.message) ∈ e.said m.sender := by
  apply List.mem_append_left
  exact List.mem_map_of_mem (List.mem_filter.2 ⟨h, beq_self_eq_true _⟩)

/-- What a survivor has said is in the order once its outbox is empty. -/
theorem mem_order_of_mem_said (houtbox : (e.site p).outbox = [])
    (h : (flags, message) ∈ e.said p) : { sender := p, flags, message } ∈ e.order := by
  rw [said, houtbox, List.append_nil] at h
  obtain ⟨m, hm, heq⟩ := List.mem_map.1 h
  obtain ⟨horder, hsender⟩ := List.mem_filter.1 hm
  obtain ⟨hflags, hmessage⟩ := Prod.mk.inj heq
  rw [← hflags, ← hmessage, ← eq_of_beq hsender]
  exact horder

end

end Episode

end ClusterFence
