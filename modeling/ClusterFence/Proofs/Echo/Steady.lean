import ClusterFence.Proofs.Domain.Histories
import ClusterFence.Proofs.Domain.Master
import ClusterFence.Proofs.Domain.Turns
import ClusterFence.Proofs.Echo.Run
import Mathlib.Data.List.Forall2

namespace ClusterFence

/-- A change of a domain that hears nobody but itself. -/
structure Change.Sound (c : Change) (us : NodeId) : Prop where
  nodup : (c.members.map (·.node)).Nodup
  member : c.isMember us = true
  size : c.counts.members = UInt32.ofNat c.members.length
  alone : ∀ m ∈ c.members, m.started = true → m.node = us
  unsent : c.phase = .awaitingConditions → c.sentStart = false

/-- The change `c` later: it may have got further, and our member may have started. -/
structure Change.Continues (us : NodeId) (c c' : Change) : Prop where
  seq : c'.seq = c.seq
  counts : c'.counts = c.counts
  createTime : c'.createTime = c.createTime
  nodes : c'.members.map (·.node) = c.members.map (·.node)
  sent : c.sentStart = true → c'.sentStart = true
  sound : c.Sound us → c'.Sound us

namespace Change.Continues

variable {us : NodeId} {c c' : Change}

theorem refl (us : NodeId) (c : Change) : c.Continues us c :=
  ⟨rfl, rfl, rfl, rfl, id, id⟩

theorem isMember (h : c.Continues us c') : c'.isMember = c.isMember := by
  funext node
  rw [isMember_eq_contains, isMember_eq_contains, h.nodes]

/-- Our member starts. -/
theorem updateMember (us : NodeId) (c : Change) {f : Participant → Participant}
    (hf : ∀ m, (f m).node = m.node) : c.Continues us (c.updateMember us f) where
  seq := rfl
  counts := rfl
  createTime := rfl
  nodes := map_updateFirst hf c.members
  sent := id
  sound h :=
    { nodup := by
        rw [show (c.updateMember us f).members.map (·.node) = c.members.map (·.node) from
          map_updateFirst hf c.members]
        exact h.nodup
      member := by rw [c.isMember_updateMember us hf, h.member]
      size := by
        have hlength := congrArg List.length (map_updateFirst hf (p := (·.node == us)) c.members)
        rw [List.length_map, List.length_map] at hlength
        rw [show (c.updateMember us f).members.length = c.members.length from hlength]
        exact h.size
      alone := by
        intro m hm hstarted
        obtain hm | ⟨m', -, hm', rfl⟩ := mem_updateFirst hm
        · exact h.alone m hm hstarted
        · rw [hf, eq_of_beq hm']
      unsent := h.unsent }

/-- The change gets further, once its START is out. -/
theorem of_phase {phase : ChangePhase} {sentStart : Bool} (hphase : phase ≠ .awaitingConditions)
    (hsent : c.sentStart = true → sentStart = true) :
    c.Continues us { c with phase, sentStart } where
  seq := rfl
  counts := rfl
  createTime := rfl
  nodes := rfl
  sent := hsent
  sound h :=
    { nodup := h.nodup, member := h.member, size := h.size, alone := h.alone
      unsent := fun h => absurd h hphase }

end Change.Continues

/-- The START describes the change: it has its sizes, counts us in, and flags its members. -/
structure ChangeReport.Describes (report : ChangeReport) (us : NodeId) (c : Change) : Prop where
  seq : report.seq = c.seq
  counts : report.summary.counts = c.counts
  never : report.summary.startedCount = 0
  us : (report.entries.find? (·.node == us)).any (·.isMember) = true
  flagged : ∀ node, (∃ e ∈ report.entries, e.node = node ∧ e.isMember = true) ↔
    c.isMember node = true

theorem ChangeReport.Describes.continues {report : ChangeReport} {us : NodeId} {c c' : Change}
    (h : report.Describes us c) (hcontinues : c.Continues us c') : report.Describes us c' where
  seq := by rw [h.seq, hcontinues.seq]
  counts := by rw [h.counts, hcontinues.counts]
  never := h.never
  us := h.us
  flagged node := by rw [h.flagged, hcontinues.isMember]

/-- Nobody could tell the change `other` from `c` by a START for `c`. -/
def Change.LooksLike (c other : Change) : Prop :=
  other.counts = c.counts ∧ c.membersWithin other = true

/-- A message of ours on its way back is the START of a pending change. If it is not flagged as a
    duplicate, our STARTs for all older changes that look like it are out. -/
def Domain.Said (d : Domain) (said : MessageFlags × Message) : Prop :=
  ∃ report, said.2 = .start report ∧ ∃ c ∈ d.changes.pending, report.Describes d.us c ∧
    c.sentStart = true ∧ (said.1.contains .duplicate = false →
      ∀ old ∈ d.changes.pending, old.seq < c.seq → c.LooksLike old → old.sentStart = true)

/-- Nothing is on record that speaks against our part in the pending changes. -/
structure NodeHistory.Unremoved (n : NodeHistory) (pending : List Change) : Prop where
  failSeq : n.failSeq = 0
  leftSeq : n.leftSeq = 0
  clusterAddTime : ∀ c ∈ pending, n.clusterAddTime ≤ c.createTime

/-- What holds all along. -/
structure Loopback.Steady (l : Loopback) : Prop where
  stays : l.domain.leaving = false
  started : l.domain.changes.started = none
  never : l.domain.changes.startedCount = 0
  keyed : l.domain.history.Keyed
  cluster : l.domain.changes.pending ≠ [] → l.domain.cluster.isMember l.domain.us = true
  decreasing : (l.domain.changes.pending.map (·.seq)).Pairwise (· > ·)
  le_changeSeq : ∀ c ∈ l.domain.changes.pending, c.seq ≤ l.domain.changes.changeSeq
  sound : ∀ c ∈ l.domain.changes.pending, c.Sound l.domain.us
  known : ∀ c ∈ l.domain.changes.pending, ∀ m ∈ c.members,
    l.domain.history.contains m.node = true
  ours : (l.domain.history.lookup l.domain.us).Unremoved l.domain.changes.pending
  said : ∀ said ∈ l.queued, l.domain.Said said

/-- The domain `d` later, with the same changes pending. -/
structure Domain.Continues (d d' : Domain) : Prop where
  config : d'.config = d.config
  leaving : d'.leaving = d.leaving
  changes : ∃ pending, d'.changes = { d.changes with pending } ∧
    List.Forall₂ (Change.Continues d.us) d.changes.pending pending
  keyed : d.history.Keyed → d'.history.Keyed
  cluster : d.changes.pending ≠ [] → d.cluster.isMember d.us = true →
    d'.cluster.isMember d.us = true
  known : ∀ node, d.history.contains node = true → d'.history.contains node = true
  ours : (d.history.lookup d.us).Unremoved d.changes.pending →
    (d'.history.lookup d.us).Unremoved d.changes.pending

section

variable {us : NodeId} {pending pending' : List Change}

theorem exists_continued (h : List.Forall₂ (Change.Continues us) pending pending') {c : Change}
    (hc : c ∈ pending) : ∃ c' ∈ pending', c.Continues us c' := by
  induction h with
  | nil => cases hc
  | @cons c₁ c₁' older older' hfirst _ ih =>
    obtain rfl | hc := List.mem_cons.1 hc
    · exact ⟨c₁', List.mem_cons_self, hfirst⟩
    · obtain ⟨c', hc', hspec⟩ := ih hc
      exact ⟨c', List.mem_cons_of_mem _ hc', hspec⟩

theorem exists_continuing (h : List.Forall₂ (Change.Continues us) pending pending') {c' : Change}
    (hc' : c' ∈ pending') : ∃ c ∈ pending, c.Continues us c' := by
  induction h with
  | nil => cases hc'
  | @cons c₁ c₁' older older' hfirst _ ih =>
    obtain rfl | hc' := List.mem_cons.1 hc'
    · exact ⟨c₁, List.mem_cons_self, hfirst⟩
    · obtain ⟨c, hc, hspec⟩ := ih hc'
      exact ⟨c, List.mem_cons_of_mem _ hc, hspec⟩

theorem map_seq_eq (h : List.Forall₂ (Change.Continues us) pending pending') :
    pending'.map (·.seq) = pending.map (·.seq) := by
  induction h with
  | nil => rfl
  | cons hfirst _ ih => rw [List.map_cons, List.map_cons, hfirst.seq, ih]

theorem Change.LooksLike.of_continues {c c' other other' : Change} (h : c'.LooksLike other')
    (hc : c.Continues us c') (hother : other.Continues us other') : c.LooksLike other := by
  refine ⟨by rw [← hother.counts, h.1, hc.counts], ?_⟩
  have hwithin := h.2
  rw [Change.membersWithin_iff_subset, hc.nodes, hother.nodes] at hwithin
  exact Change.membersWithin_iff_subset.2 hwithin

/-- A message stays the START of a pending change. -/
theorem Domain.Said.continues {d d' : Domain} (h : d.Continues d')
    {said : MessageFlags × Message} (hsaid : d.Said said) : d'.Said said := by
  obtain ⟨pending, hchanges, hpending⟩ := h.changes
  obtain ⟨report, hreport, c, hc, hdescribes, hsent, hflag⟩ := hsaid
  obtain ⟨c', hc', hcontinues⟩ := exists_continued hpending hc
  have hus : d'.us = d.us := by rw [us, h.config, us]
  refine ⟨report, hreport, c', by rwa [hchanges], ?_, hcontinues.sent hsent, ?_⟩
  · rw [hus]
    exact hdescribes.continues hcontinues
  · intro hunflagged old' hold' hlt hlooks
    rw [hchanges] at hold'
    obtain ⟨old, hold, holdContinues⟩ := exists_continuing hpending hold'
    rw [holdContinues.seq, hcontinues.seq] at hlt
    exact holdContinues.sent
      (hflag hunflagged old hold hlt (hlooks.of_continues hcontinues holdContinues))

end

/-- What holds all along goes on to hold as the changes get further. -/
theorem Loopback.Steady.continues {l : Loopback} (h : l.Steady) {d' : Domain}
    (hcontinues : l.domain.Continues d') {queued' : List (MessageFlags × Message)}
    (hqueued : ∀ said ∈ queued', said ∈ l.queued ∨ d'.Said said) :
    Steady { domain := d', queued := queued' } := by
  obtain ⟨pending, hchanges, hpending⟩ := hcontinues.changes
  have hus : d'.us = l.domain.us := by rw [Domain.us, hcontinues.config, Domain.us]
  have hback {c' : Change} (hc' : c' ∈ d'.changes.pending) :
      ∃ c ∈ l.domain.changes.pending, c.Continues l.domain.us c' := by
    rw [hchanges] at hc'
    exact exists_continuing hpending hc'
  constructor
  case stays =>
    rw [hcontinues.leaving, h.stays]
  case started =>
    rw [hchanges]
    exact h.started
  case never =>
    rw [hchanges]
    exact h.never
  case keyed =>
    exact hcontinues.keyed h.keyed
  case cluster =>
    intro hne
    have hold : l.domain.changes.pending ≠ [] := by
      rintro hnil
      rw [hnil, List.forall₂_nil_left_iff] at hpending
      rw [hchanges] at hne
      exact hne hpending
    rw [hus]
    exact hcontinues.cluster hold (h.cluster hold)
  case decreasing =>
    rw [hchanges, map_seq_eq hpending]
    exact h.decreasing
  case le_changeSeq =>
    intro c' hc'
    obtain ⟨c, hc, hcc'⟩ := hback hc'
    rw [hcc'.seq, hchanges]
    exact h.le_changeSeq c hc
  case sound =>
    intro c' hc'
    obtain ⟨c, hc, hcc'⟩ := hback hc'
    rw [hus]
    exact hcc'.sound (h.sound c hc)
  case known =>
    intro c' hc' m' hm'
    obtain ⟨c, hc, hcc'⟩ := hback hc'
    have hnode : m'.node ∈ c.members.map (·.node) := hcc'.nodes ▸ List.mem_map_of_mem hm'
    obtain ⟨m, hm, heq⟩ := List.mem_map.1 hnode
    rw [← heq]
    exact hcontinues.known m.node (h.known c hc m hm)
  case ours =>
    have hours := hcontinues.ours h.ours
    rw [hus]
    refine ⟨hours.failSeq, hours.leftSeq, fun c' hc' => ?_⟩
    obtain ⟨c, hc, hcc'⟩ := hback hc'
    rw [hcc'.createTime]
    exact hours.clusterAddTime c hc
  case said =>
    intro said hsaid
    obtain hsaid | hsaid := hqueued said hsaid
    · exact (h.said said hsaid).continues hcontinues
    · exact hsaid

end ClusterFence
