import ClusterFence.Proofs.Episode.Stages
import ClusterFence.Proofs.Records

namespace ClusterFence

/-- A survivor before it is told: a domain that some run leads to, with no change pending, no
    fencing outstanding and no victims. It knows all nodes, and nothing that it knows of them is
    later than the outage. -/
structure Outage.Ready (o : Outage) (p : NodeId) (d : Domain) : Prop where
  reachable : ∃ config inputs, d = (Domain.new config).play inputs
  us : d.us = p
  pending : d.changes.pending = []
  fencing : d.fencing = false
  victims : d.victims.toList = []
  known : ∀ q ∈ o.survivors ++ o.failed,
    d.history.Holds q (·.NotAfter (o.time p) d.changes.changeSeq)

/-- Nothing at the survivor keeps the STARTs from counting for the change of the outage: the numbers
    of changes do not start over with it, and no survivor is still to come to the cluster. -/
structure Outage.Clear (o : Outage) (d : Domain) : Prop where
  seq : d.changes.changeSeq + 1 ≠ 0
  member : ∀ q ∈ o.survivors, d.cluster.isMember q = true

/-- Every survivor is on its course, and the order has the STARTs before everything else. -/
structure Outage.Orderly (o : Outage) (domains : NodeId → Domain) (e : Episode) : Prop where
  senders : ∀ m ∈ e.order, m.sender ∈ o.survivors
  startsFirst : e.order.Pairwise fun x y => y.isStart = true → x.isStart = true
  heard : ∀ p, (e.site p).heard <+: e.order
  us : ∀ p ∈ o.survivors, (e.site p).domain.us = p
  untold : ∀ p ∈ o.survivors, (e.site p).told = false →
    (e.site p).domain = domains p ∧ (e.site p).heard = [] ∧ e.said p = [] ∧
      e.fencers.count p = 0
  course : ∀ p ∈ o.survivors, (e.site p).told = true →
    o.Course p e.order (e.site p).domain (e.said p) (e.fencers.count p)
  idle : ∀ p ∈ o.survivors, (e.site p).told = true → (e.site p).domain.Idle
  fencers : ∀ p ∈ e.fencers, p ∈ o.survivors

namespace Outage.Orderly

variable {o : Outage} {domains : NodeId → Domain} {e e' : Episode} {p : NodeId}

theorem new (hready : ∀ p ∈ o.survivors, o.Ready p (domains p)) :
    o.Orderly domains (.new domains) where
  senders m hm := by cases hm
  startsFirst := .nil
  heard p := List.prefix_refl []
  us p hp := (hready p hp).us
  untold p hp htold := ⟨rfl, rfl, rfl, rfl⟩
  course p hp htold := by cases htold
  idle p hp htold := by cases htold
  fencers p hp := by cases hp

/-- A survivor that has said nothing has no START in the order. -/
theorem silent (hsaid : e.said p = []) : startFlags? e.order p = none := by
  unfold startFlags?
  rw [Option.map_eq_none_iff, List.find?_eq_none]
  intro m hm hstart
  rw [Bool.and_eq_true] at hstart
  have hmem := Episode.mem_said_of_mem_order hm
  rw [eq_of_beq hstart.1, hsaid] at hmem
  cases hmem

section

variable (h : o.Orderly domains e)

include h

theorem told_of_said (hp : p ∈ o.survivors) {x : MessageFlags × Message} (hx : x ∈ e.said p) :
    (e.site p).told = true := by
  rw [← Bool.not_eq_false]
  intro htold
  rw [(h.untold p hp htold).2.2.1] at hx
  cases hx

theorem course_of_mem {m : Posted} (hm : m ∈ e.order) :
    o.Course m.sender e.order (e.site m.sender).domain (e.said m.sender)
      (e.fencers.count m.sender) :=
  h.course _ (h.senders m hm)
    (h.told_of_said (h.senders m hm) (Episode.mem_said_of_mem_order hm))

/-- The sender of anything but a START was elected. -/
theorem elects_of_mem {m : Posted} (hm : m ∈ e.order) (hstart : m.isStart = false) :
    o.Elects e.order m.sender := by
  apply (h.course_of_mem hm).elects_of_not_start (Episode.mem_said_of_mem_order hm)
  simpa [Posted.isStart] using hstart

/-- A START in the order is the first one of its sender. -/
theorem startFlags?_of_mem {m : Posted} (hm : m ∈ e.order) (hstart : m.isStart = true) :
    startFlags? e.order m.sender = some m.flags := by
  unfold startFlags?
  cases hfind : e.order.find? fun x => x.sender == m.sender && x.isStart with
  | none =>
    rw [List.find?_eq_none] at hfind
    exact absurd hstart (by simpa using hfind m hm)
  | some first =>
    have hfirst := List.find?_some hfind
    rw [Bool.and_eq_true] at hfirst
    have hsaid := Episode.mem_said_of_mem_order (List.mem_of_find?_eq_some hfind)
    rw [eq_of_beq hfirst.1] at hsaid
    have hsaid' := Episode.mem_said_of_mem_order hm
    obtain hnil | ⟨start, rest, heq, -, hrest⟩ := (h.course_of_mem hm).said_cases
    · rw [hnil] at hsaid
      cases hsaid
    -- what was said after the START is none, so both are the one at the head
    have honly : ∀ x ∈ e.said m.sender, x.2.kind = .start → x = start := by
      intro x hx hkind
      rw [heq, List.mem_cons] at hx
      obtain hx | hx := hx
      · exact hx
      · exact absurd hkind (hrest x hx)
    have hhead := honly _ hsaid (eq_of_beq hfirst.2)
    have hhead' := honly _ hsaid' (eq_of_beq hstart)
    rw [Option.map_some, (Prod.mk.inj (hhead.trans hhead'.symm)).1]

/-- A START that is still to get its place means that all others are STARTs. -/
theorem starts_of_outbox (hp : p ∈ o.survivors) {flags : MessageFlags} {message : Message}
    {rest : List (MessageFlags × Message)} (houtbox : (e.site p).outbox = (flags, message) :: rest)
    (hkind : message.kind = .start) {m : Posted} (hm : m ∈ e.order) : m.isStart = true := by
  rw [← Bool.not_eq_false]
  intro hother
  have hsaid : (flags, message) ∈ e.said p := by
    unfold Episode.said
    rw [houtbox]
    exact List.mem_append_right _ List.mem_cons_self
  obtain ⟨own, hown⟩ := Option.isSome_iff_exists.1 ((h.elects_of_mem hm hother).started p hp)
  obtain ⟨first, hfind, -⟩ := Option.map_eq_some_iff.1 hown
  have hfirst := List.find?_some hfind
  rw [Bool.and_eq_true] at hfirst
  have hplaced : first ∈ e.order.filter (·.sender == p) :=
    List.mem_filter.2 ⟨List.mem_of_find?_eq_some hfind, hfirst.1⟩
  obtain hnil | ⟨start, later, heq, -, hlater⟩ :=
    (h.course p hp (h.told_of_said hp hsaid)).said_cases
  · rw [hnil] at hsaid
    cases hsaid
  -- the place of the one START is taken, so the outbox comes later
  unfold Episode.said at heq
  cases hfilter : e.order.filter (·.sender == p) with
  | nil =>
    rw [hfilter] at hplaced
    cases hplaced
  | cons x xs =>
    rw [hfilter, houtbox, List.map_cons, List.cons_append] at heq
    have htail := (List.cons.inj heq).2
    have hmem : (flags, message) ∈ later := by
      rw [← htail]
      exact List.mem_append_right _ List.mem_cons_self
    exact hlater _ hmem hkind

/-- What one survivor does takes it on its course, and leaves the others where they are. -/
theorem react (hp : p ∈ o.survivors) {heard : List Posted} (hheard : heard <+: e.order)
    {r : Reaction} (hus : r.domain.us = p)
    (hcourse : o.CourseAfter p e.order r (e.said p) (e.fencers.count p))
    (hidle : r.domain.Idle) : o.Orderly domains (e.react p heard r) where
  senders := h.senders
  startsFirst := h.startsFirst
  heard q := by
    by_cases hq : q = p
    · rw [hq, Episode.site_react_self]
      exact hheard
    · rw [Episode.site_react_of_ne _ _ _ _ hq]
      exact h.heard q
  us q hq := by
    by_cases hqp : q = p
    · rw [hqp, Episode.site_react_self]
      exact hus
    · rw [Episode.site_react_of_ne _ _ _ _ hqp]
      exact h.us q hq
  untold q hq htold := by
    by_cases hqp : q = p
    · rw [hqp, Episode.site_react_self] at htold
      cases htold
    · rw [Episode.site_react_of_ne _ _ _ _ hqp] at htold ⊢
      rw [Episode.said_react_of_ne _ _ _ _ hqp, Episode.count_fencers_react_of_ne _ _ _ _ hqp]
      exact h.untold q hq htold
  course q hq htold := by
    by_cases hqp : q = p
    · rw [hqp, Episode.site_react_self, Episode.said_react_self, Episode.count_fencers_react_self]
      exact hcourse
    · rw [Episode.site_react_of_ne _ _ _ _ hqp] at htold ⊢
      rw [Episode.said_react_of_ne _ _ _ _ hqp, Episode.count_fencers_react_of_ne _ _ _ _ hqp]
      exact h.course q hq htold
  idle q hq htold := by
    by_cases hqp : q = p
    · rw [hqp, Episode.site_react_self]
      exact hidle
    · rw [Episode.site_react_of_ne _ _ _ _ hqp] at htold ⊢
      exact h.idle q hq htold
  fencers q hq := by
    obtain hq | hq := List.mem_append.1 hq
    · exact h.fencers q hq
    · rw [List.eq_of_mem_replicate hq]
      exact hp

/-- The order grows at its end only. -/
theorem place (hp : p ∈ o.survivors) {flags : MessageFlags} {message : Message}
    {rest : List (MessageFlags × Message)}
    (houtbox : (e.site p).outbox = (flags, message) :: rest) :
    o.Orderly domains (e.place p flags message rest) where
  senders m hm := by
    rw [Episode.order_place, List.mem_append, List.mem_singleton] at hm
    obtain hm | rfl := hm
    · exact h.senders m hm
    · exact hp
  startsFirst := by
    rw [Episode.order_place, List.pairwise_append]
    refine ⟨h.startsFirst, List.pairwise_singleton _ _, ?_⟩
    intro x hx y hy hstart
    rw [List.mem_singleton.1 hy] at hstart
    exact h.starts_of_outbox hp houtbox (eq_of_beq hstart) hx
  heard q := by
    obtain ⟨outbox, hsite⟩ := Episode.site_place q
    rw [hsite]
    exact (h.heard q).trans (List.prefix_append _ _)
  us q hq := by
    obtain ⟨outbox, hsite⟩ := Episode.site_place q
    rw [hsite]
    exact h.us q hq
  untold q hq htold := by
    obtain ⟨outbox, hsite⟩ := Episode.site_place q
    rw [hsite] at htold ⊢
    rw [Episode.said_place houtbox]
    exact h.untold q hq htold
  course q hq htold := by
    obtain ⟨outbox, hsite⟩ := Episode.site_place q
    rw [hsite] at htold ⊢
    rw [Episode.said_place houtbox]
    exact (h.course q hq htold).append _
  idle q hq htold := by
    obtain ⟨outbox, hsite⟩ := Episode.site_place q
    rw [hsite] at htold ⊢
    exact h.idle q hq htold
  fencers := h.fencers

end

/-- The next message of the order is the one after those that were heard. -/
theorem prefix_of_next (h : o.Orderly domains e) {m : Posted}
    (hnext : e.order[(e.site p).heard.length]? = some m) : (e.site p).heard ++ [m] <+: e.order := by
  obtain ⟨rest, hrest⟩ := h.heard p
  rw [← hrest, List.getElem?_append_right (Nat.le_refl _), Nat.sub_self] at hnext
  cases rest with
  | nil => cases hnext
  | cons first rest =>
    rw [List.getElem?_cons_zero, Option.some.injEq] at hnext
    refine ⟨rest, ?_⟩
    rw [← hrest, ← hnext, List.append_assoc]
    rfl

/-- To take down what happens leaves a survivor on its course. -/
theorem taken (hready : ∀ p ∈ o.survivors, o.Ready p (domains p)) (h : o.Orderly domains e)
    (hp : p ∈ o.survivors) {heard : List Posted} {d : Domain}
    (htakes : o.Takes p e.order (e.site p) heard d) :
    o.Course p e.order d (e.said p) (e.fencers.count p) ∧ d.us = p ∧ heard <+: e.order := by
  have hus := h.us p hp
  cases htakes with
  | told htold =>
    obtain ⟨hdomain, -, hsaid, hcount⟩ := h.untold p hp htold
    refine ⟨?_, ?_, h.heard p⟩
    · rw [hdomain, hsaid, hcount]
      exact course_queued (hready p hp).pending (hready p hp).fencing
    · simpa [Domain.us, queued] using hus
  | ring htold => exact ⟨(h.course p hp htold).of_eq rfl rfl rfl, hus, h.heard p⟩
  | cluster htold => exact ⟨(h.course p hp htold).of_eq rfl rfl rfl, hus, h.heard p⟩
  | @heard now m htold hnext =>
    have hm : m ∈ e.order := List.mem_of_getElem? hnext
    refine ⟨(h.course p hp htold).accept (h.startFlags?_of_mem hm) now, ?_, h.prefix_of_next hnext⟩
    unfold Domain.us at hus ⊢
    rw [Domain.accept_config]
    exact hus

theorem moved (hready : ∀ p ∈ o.survivors, o.Ready p (domains p)) (h : o.Orderly domains e)
    (hmoved : e.Moved o e') : o.Orderly domains e' := by
  cases hmoved with
  | idle => exact h
  | placed hp houtbox => exact h.place hp houtbox
  | @takes p heard d hp htakes =>
    obtain ⟨hcourse, hus, hheard⟩ := h.taken hready hp htakes
    obtain ⟨hafter, hidle⟩ := hcourse.advance hp hus silent
    refine h.react hp hheard ?_ hafter hidle
    rw [Domain.advance_us, hus]
  | @resolved p now victim how reduced hp htold hfencing hopen =>
    obtain ⟨hafter, hidle⟩ := (h.course p hp htold).resolve hfencing victim how reduced now
    refine h.react hp (h.heard p) ?_ hafter hidle
    rw [Domain.resolve_domain]
    exact h.us p hp
  | @finished p hp htold hfencing hresolved =>
    obtain ⟨hafter, hidle⟩ := (h.course p hp htold).finishFencing hfencing
    refine h.react hp (h.heard p) ?_ hafter hidle
    exact (Domain.us_step _ 0 .finished).trans (h.us p hp)

section

variable (h : o.Orderly domains e)

include h

theorem course_of_mem_fencers (hp : p ∈ e.fencers) :
    o.Course p e.order (e.site p).domain (e.said p) (e.fencers.count p) := by
  have hcount : 0 < e.fencers.count p := List.count_pos_iff.2 hp
  apply h.course p (h.fencers p hp)
  rw [← Bool.not_eq_false]
  intro htold
  have hzero := (h.untold p (h.fencers p hp) htold).2.2.2
  omega

/-- Only the elected master asks for a fencing run. -/
theorem elects_of_mem_fencers (hp : p ∈ e.fencers) : o.Elects e.order p :=
  (h.course_of_mem_fencers hp).elects_of_asked (List.count_pos_iff.2 hp)

/-- Nobody else asks for a fencing run, and it does so once. -/
theorem fencers_eq (hp : p ∈ e.fencers) : e.fencers = [p] := by
  have hall : ∀ q ∈ e.fencers, p = q := by
    intro q hq
    exact (h.elects_of_mem_fencers hp).unique (h.elects_of_mem_fencers hq)
  have hcount : e.fencers.count p = e.fencers.length := List.count_eq_length.2 hall
  have honce := (h.course_of_mem_fencers hp).asked_le_one
  rw [hcount] at honce
  cases hfencers : e.fencers with
  | nil => simp [hfencers] at hp
  | cons q rest =>
    rw [hfencers] at honce hall
    have hrest : rest = [] := by
      rw [← List.length_eq_zero_iff]
      simpa using honce
    rw [hrest, ← hall q List.mem_cons_self]

/-- At most one survivor asks for a fencing run, and it does so once. -/
theorem length_fencers_le : e.fencers.length ≤ 1 := by
  cases hfencers : e.fencers with
  | nil => exact Nat.zero_le 1
  | cons p rest =>
    have hp : p ∈ e.fencers := by simp [hfencers]
    rw [← hfencers, h.fencers_eq hp]
    exact Nat.le_refl 1

/-- Who says more than its START has asked for a fencing run. -/
theorem mem_fencers_of_said (hp : p ∈ o.survivors) {x : MessageFlags × Message}
    (hx : x ∈ e.said p) (hkind : x.2.kind ≠ .start) : p ∈ e.fencers := by
  have hasked := (h.course p hp (h.told_of_said hp hx)).asked_of_not_start hx hkind
  rw [← List.count_pos_iff]
  omega

end

end Outage.Orderly

end ClusterFence
