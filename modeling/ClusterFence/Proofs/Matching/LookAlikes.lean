import ClusterFence.Domain.Progress
import ClusterFence.Proofs.Changes
import ClusterFence.Proofs.Matching.Search
import Mathlib.Data.List.Perm.Subperm

namespace ClusterFence

namespace Change

variable {c other : Change}

/-- A change with as many members that has all of them has no other member. -/
theorem membersWithin_of_length_eq (hnodup : (c.members.map (·.node)).Nodup)
    (hlength : c.members.length = other.members.length) (hwithin : c.membersWithin other = true) :
    other.membersWithin c = true := by
  rw [membersWithin_iff_subset] at hwithin ⊢
  have hperm : (c.members.map (·.node)).Perm (other.members.map (·.node)) := by
    apply (hnodup.subperm hwithin).perm_of_length_le
    rw [List.length_map, List.length_map, hlength]
  exact hperm.symm.subset

end Change

/-- The last of decreasing numbers is the least. -/
theorem le_of_getLast? {seqs : List UInt32} (hdecreasing : seqs.Pairwise (· > ·)) {seq : UInt32}
    (hlast : seqs.getLast? = some seq) : ∀ other ∈ seqs, seq ≤ other := by
  obtain ⟨newer, rfl⟩ := List.getLast?_eq_some_iff.1 hlast
  intro other hother
  obtain hnewer | hself := List.mem_append.1 hother
  · have hlater := (List.pairwise_append.1 hdecreasing).2.2
    exact UInt32.le_of_lt (hlater other hnewer seq (List.mem_singleton_self seq))
  · rw [List.mem_singleton.1 hself]
    exact UInt32.le_refl seq

/-- The pending changes are in order, list and count each of their members once, and every member is
    among the nodes that a report has a line about. -/
structure ChangeQueue.Listed (q : ChangeQueue) (h : History) : Prop where
  decreasing : (q.pending.map (·.seq)).Pairwise (· > ·)
  nodup : ∀ c ∈ q.pending, (c.members.map (·.node)).Nodup
  size : ∀ c ∈ q.pending, c.counts.members.toNat = c.members.length
  known : ∀ c ∈ q.pending, ∀ m ∈ c.members, ∃ n ∈ h.toList, n.node = m.node

/-- The older changes that we take to look like `c`, of those whose START was not sent. -/
def ChangeQueue.unsentLike (q : ChangeQueue) (c : Change) : List Change :=
  q.pending.filter fun old =>
    !old.sentStart && old.seq < c.seq && old.counts == c.counts && old.membersWithin c

theorem ChangeQueue.duplicateOfOlder?_of_current {q : ChangeQueue} {c : Change}
    (hcurrent : q.current? = some c) :
    q.duplicateOfOlder? = ((q.unsentLike c).map (·.seq)).getLast? := by
  rw [duplicateOfOlder?, hcurrent, Option.bind_some]
  rfl

namespace Domain

variable {d : Domain} {c old : Change}

/-- An older pending change whose START was not sent, and which the report on `c` fits: by what the
    START for `c` says, it could be for the older change. -/
structure Mistakable (d : Domain) (c old : Change) : Prop where
  pending : old ∈ d.changes.pending
  older : old.seq < c.seq
  unsent : old.sentStart = false
  fits : (d.report c).Fits old

/-- A report fits a change that has all members of its own, if it has a line about each of them. -/
theorem fits_report_iff (hknown : ∀ m ∈ c.members, ∃ n ∈ d.history.toList, n.node = m.node) :
    (d.report c).Fits old ↔ c.counts = old.counts ∧ c.membersWithin old = true := by
  unfold Change.membersWithin
  rw [List.all_eq_true]
  constructor
  · rintro ⟨hcounts, hflagged⟩
    refine ⟨hcounts, fun m hm => ?_⟩
    obtain ⟨n, hn, hnode⟩ := hknown m hm
    have hmember : c.isMember n.node = true := by
      rw [Change.isMember_iff_mem, hnode]
      exact List.mem_map_of_mem hm
    have hline := hflagged (n.entry (c.isMember n.node)) (List.mem_map_of_mem hn)
    rw [NodeHistory.isMember_entry] at hline
    exact hnode ▸ hline hmember
  · rintro ⟨hcounts, hwithin⟩
    refine ⟨hcounts, fun e he hmember => ?_⟩
    rw [History.isMember_of_mem_entriesFor he] at hmember
    obtain ⟨m, hm, hnode⟩ := List.any_eq_true.1 hmember
    rw [← eq_of_beq hnode]
    exact hwithin m hm

/-- What we look for among the older changes is what could be mistaken for the current one. -/
theorem mem_unsentLike_iff (h : d.changes.Listed d.history) (hc : c ∈ d.changes.pending) :
    old ∈ d.changes.unsentLike c ↔ d.Mistakable c old := by
  simp only [ChangeQueue.unsentLike, List.mem_filter, Bool.and_eq_true, Bool.not_eq_true',
    decide_eq_true_eq, beq_iff_eq]
  constructor
  · rintro ⟨hold, ⟨⟨hunsent, hlt⟩, hcounts⟩, hwithin⟩
    have hlength : old.members.length = c.members.length := by
      rw [← h.size old hold, ← h.size c hc, hcounts]
    refine ⟨hold, hlt, hunsent, (fits_report_iff (h.known c hc)).2 ⟨hcounts.symm, ?_⟩⟩
    exact Change.membersWithin_of_length_eq (h.nodup old hold) hlength hwithin
  · rintro ⟨hold, hlt, hunsent, hfits⟩
    obtain ⟨hcounts, hwithin⟩ := (fits_report_iff (h.known c hc)).1 hfits
    have hlength : c.members.length = old.members.length := by
      rw [← h.size old hold, ← h.size c hc, hcounts]
    refine ⟨hold, ⟨⟨hunsent, hlt⟩, hcounts.symm⟩, ?_⟩
    exact Change.membersWithin_of_length_eq (h.nodup c hc) hlength hwithin

/-- The flags for joining and for being complete leave room for that of a duplicate. -/
theorem contains_duplicate_reportFlags (d : Domain) (c : Change) :
    (d.reportFlags c d.duplicateFlag).contains .duplicate =
      d.changes.duplicateOfOlder?.isSome := by
  unfold reportFlags duplicateFlag completeFlag
  cases d.changes.duplicateOfOlder?.isSome <;> cases d.isComplete <;> cases c.weJoined <;> rfl

/-- An older change is found to be like the current one exactly if its START was not sent and
    the report on the current change fits it, and what is found is the oldest of these. The START that
    goes out for the current change is flagged as a duplicate exactly when there is one. -/
theorem duplicate_iff_mistakable (d : Domain) (h : d.changes.Listed d.history) :
    (d.changes.current? = none → d.changes.duplicateOfOlder? = none) ∧
    ∀ c, d.changes.current? = some c →
      (d.changes.duplicateOfOlder?.isSome = true ↔ ∃ old, d.Mistakable c old) ∧
      (∀ seq, d.changes.duplicateOfOlder? = some seq →
        ∃ old, d.Mistakable c old ∧ old.seq = seq ∧
          ∀ other, d.Mistakable c other → seq ≤ other.seq) ∧
      ∃ flags, (d.sendStart c).actions = [.send flags (.start (d.report c))] ∧
        (flags.contains .duplicate = true ↔ ∃ old, d.Mistakable c old) := by
  refine ⟨fun hnone => by rw [ChangeQueue.duplicateOfOlder?, hnone]; rfl, fun c hcurrent => ?_⟩
  have hc := ChangeQueue.current?_mem hcurrent
  have hfound := ChangeQueue.duplicateOfOlder?_of_current hcurrent
  have hmem (old : Change) : old ∈ d.changes.unsentLike c ↔ d.Mistakable c old :=
    mem_unsentLike_iff h hc
  have hisSome : d.changes.duplicateOfOlder?.isSome = true ↔ ∃ old, d.Mistakable c old := by
    rw [hfound, List.getLast?_isSome, ne_eq, List.map_eq_nil_iff, ← List.isEmpty_iff,
      Bool.not_eq_true, List.isEmpty_eq_false_iff_exists_mem]
    exact exists_congr hmem
  refine ⟨hisSome, fun seq hseq => ?_, _, rfl, ?_⟩
  · rw [hfound] at hseq
    obtain ⟨old, hold, heq⟩ := List.mem_map.1 (List.mem_of_getLast? hseq)
    refine ⟨old, (hmem old).1 hold, heq, fun other hother => ?_⟩
    have hdecreasing : ((d.changes.unsentLike c).map (·.seq)).Pairwise (· > ·) :=
      h.decreasing.sublist (List.filter_sublist.map _)
    exact le_of_getLast? hdecreasing hseq _ (List.mem_map_of_mem ((hmem other).2 hother))
  · rw [contains_duplicate_reportFlags, hisSome]

/-- Node 1 knows nodes 2 and 3, and node 3 has joined twice. -/
def rejoined : Domain where
  config := .forNode 1 "node1"
  history := (((({} : History).ensure 1).ensure 2).ensure 3)
  changes := ReceivedStart.rejoining

theorem duplicate_iff_mistakable_rejoined :
    rejoined.changes.Listed rejoined.history ∧
      ∃ c ∈ rejoined.changes.pending, ∃ old, rejoined.Mistakable c old ∧ old.seq = 1 ∧
        rejoined.changes.duplicateOfOlder? = some 1 ∧
        ∃ flags, (rejoined.sendStart c).actions = [.send flags (.start (rejoined.report c))] ∧
          flags.contains .duplicate = true := by
  have hlisted : rejoined.changes.Listed rejoined.history :=
    ⟨by decide +kernel, by decide +kernel, by decide +kernel, by decide +kernel⟩
  have hfirst : rejoined.changes.duplicateOfOlder? = some 1 := by decide +kernel
  obtain ⟨hidle, hduplicate⟩ := duplicate_iff_mistakable rejoined hlisted
  cases hcurrent : rejoined.changes.current? with
  | none =>
    rw [hidle hcurrent] at hfirst
    cases hfirst
  | some c =>
    obtain ⟨-, holdest, flags, hsent, hflag⟩ := hduplicate c hcurrent
    obtain ⟨old, hold, hseq, -⟩ := holdest 1 hfirst
    exact ⟨hlisted, c, ChangeQueue.current?_mem hcurrent, old, hold, hseq, hfirst, flags, hsent,
      hflag.2 ⟨old, hold⟩⟩

end Domain

end ClusterFence
