import ClusterFence.Proofs.Domain.Forgetting
import ClusterFence.Proofs.Domain.Histories
import ClusterFence.Proofs.Domain.Uptake

namespace ClusterFence

/-- The numbers of changes on record are not lower than those in `before`, nor higher than
    `limit`. -/
structure NodeHistory.GrownFrom (n before : NodeHistory) (limit : UInt32) : Prop where
  lastMatch : before.lastMatchSeq ≤ n.lastMatchSeq ∧ n.lastMatchSeq ≤ limit
  fail : before.failSeq ≤ n.failSeq ∧ n.failSeq ≤ limit
  left : before.leftSeq ≤ n.leftSeq ∧ n.leftSeq ≤ limit

namespace NodeHistory

theorem le_max_seq (old new : UInt32) : old ≤ max old new := by
  rw [max_seq_eq_ite]
  split
  · assumption
  · exact UInt32.le_refl _

theorem max_seq_le {old new limit : UInt32} (hold : old ≤ limit) (hnew : new ≤ limit) :
    max old new ≤ limit := by
  rw [max_seq_eq_ite]
  split <;> assumption

namespace GrownFrom

variable {n before : NodeHistory} {limit seq : UInt32}

theorem new (node : NodeId) : ({ node } : NodeHistory).GrownFrom { node } limit := by
  constructor <;> exact ⟨UInt32.le_refl _, UInt32.zero_le⟩

/-- What is on record now is a state to grow from. -/
theorem self (h : n.GrownFrom before limit) : n.GrownFrom n limit where
  lastMatch := ⟨UInt32.le_refl _, h.lastMatch.2⟩
  fail := ⟨UInt32.le_refl _, h.fail.2⟩
  left := ⟨UInt32.le_refl _, h.left.2⟩

theorem raise (h : n.GrownFrom before limit) {higher : UInt32} (hle : limit ≤ higher) :
    n.GrownFrom before higher where
  lastMatch := ⟨h.lastMatch.1, UInt32.le_trans h.lastMatch.2 hle⟩
  fail := ⟨h.fail.1, UInt32.le_trans h.fail.2 hle⟩
  left := ⟨h.left.1, UInt32.le_trans h.left.2 hle⟩

theorem failed (h : n.GrownFrom before limit) (hseq : seq ≤ limit) (now : Seconds) :
    GrownFrom { n with failTime := now, failSeq := max n.failSeq seq } before limit where
  lastMatch := h.lastMatch
  fail := ⟨UInt32.le_trans h.fail.1 (le_max_seq _ _), max_seq_le h.fail.2 hseq⟩
  left := h.left

theorem departed (h : n.GrownFrom before limit) (hseq : seq ≤ limit) (now : Seconds) :
    GrownFrom { n with leftTime := now, leftSeq := max n.leftSeq seq } before limit where
  lastMatch := h.lastMatch
  fail := h.fail
  left := ⟨UInt32.le_trans h.left.1 (le_max_seq _ _), max_seq_le h.left.2 hseq⟩

theorem matched (h : n.GrownFrom before limit) (hlast : n.lastMatchSeq ≤ seq) (hseq : seq ≤ limit) :
    GrownFrom { n with lastMatchSeq := seq } before limit where
  lastMatch := ⟨UInt32.le_trans h.lastMatch.1 hlast, hseq⟩
  fail := h.fail
  left := h.left

end GrownFrom

end NodeHistory

/-- A START is matched with a change that is not before the last one, and removals give the number
    of a new change. -/
theorem NodeHistory.Noted.grownFrom {q : ChangeQueue} {seq limit : UInt32}
    {n n' before : NodeHistory} (hnoted : n.Noted q seq n')
    (hpending : ∀ c ∈ q.pending, c.seq ≤ limit) (hseq : seq ≤ limit)
    (h : n.GrownFrom before limit) : n'.GrownFrom before limit := by
  cases hnoted with
  | told _ numbers =>
    simp only [NodeHistory.numbers, Prod.mk.injEq] at numbers
    obtain ⟨hlastMatch, hfail, hleft⟩ := numbers
    exact ⟨hlastMatch ▸ h.lastMatch, hfail ▸ h.fail, hleft ▸ h.left⟩
  | failed now => exact h.failed hseq now
  | departed now => exact h.departed hseq now
  | matched pending allowed =>
    simp only [ReceivedStart.allowedBy, Bool.and_eq_true, decide_eq_true_eq] at allowed
    exact h.matched allowed.2 (hpending _ pending)

namespace Domain

/-- The numbers of changes on record have grown from those of `before`, and none is higher than the
    number that was given out last. -/
def Grown (before : NodeId → NodeHistory) (d : Domain) : Prop :=
  ∀ node, (d.history.lookup node).GrownFrom (before node) d.changes.changeSeq

section

variable {d : Domain} {now : Seconds}

theorem le_changeSeq_step {i : DomainInput}
    (hroom : d.changes.changeSeq.toNat + i.isMembership.toNat < UInt32.size) :
    d.changes.changeSeq ≤ (d.step now i).1.domain.changes.changeSeq := by
  obtain hsame | ⟨hmembership, hnext⟩ := changeSeq_turn (d.turn_step now i)
  · rw [hsame]
    exact UInt32.le_refl _
  · rw [hnext]
    rw [hmembership] at hroom
    exact UInt32.le_of_lt (lt_next (UInt32.le_refl _) hroom)

theorem grown_step {before : NodeId → NodeHistory} (hnumbered : d.changes.Numbered)
    {i : DomainInput} (hroom : d.changes.changeSeq.toNat + i.isMembership.toNat < UInt32.size)
    (h : d.Grown before) : (d.step now i).1.domain.Grown before := by
  intro node
  have hle : d.changes.changeSeq ≤ (d.step now i).1.domain.changes.changeSeq :=
    le_changeSeq_step hroom
  refine (d.notes_step now i).keep (P := (·.GrownFrom (before node) _)) ?_ ((h node).raise hle)
  intro n n' hnoted hn
  refine hnoted.grownFrom (fun c hc => ?_) (UInt32.le_refl _) hn
  exact UInt32.le_trans (hnumbered.le_changeSeq _ (List.mem_map_of_mem hc)) hle

theorem grown_play {before : NodeId → NodeHistory} (hnumbered : d.changes.Numbered)
    (inputs : List (Seconds × DomainInput))
    (hroom : d.changes.changeSeq.toNat + inputs.countP (·.2.isMembership) < UInt32.size)
    (h : d.Grown before) : (d.play inputs).changes.Numbered ∧ (d.play inputs).Grown before :=
  play_induction_numbered (P := (·.Grown before))
    (fun _ _ _ hnumbered hroom h => grown_step hnumbered hroom h) hnumbered hroom h

end

/-- Whatever happens to a domain, as long as the numbers have not come round: a history is kept
    under its own node, and the numbers of changes in it are not higher than the one given out last.
    Later the node still has a history, and those numbers are not lower in it. -/
theorem grows_play (config : Config) (inputs more : List (Seconds × DomainInput))
    (hroom : (inputs ++ more).countP (·.2.isMembership) < UInt32.size) :
    let d := (new config).play inputs
    ∀ node n, d.history.get? node = some n →
      n.node = node ∧
      (n.lastMatchSeq ≤ d.changes.changeSeq ∧ n.failSeq ≤ d.changes.changeSeq ∧
        n.leftSeq ≤ d.changes.changeSeq) ∧
      ∃ n', (d.play more).history.get? node = some n' ∧
        n.lastMatchSeq ≤ n'.lastMatchSeq ∧ n.failSeq ≤ n'.failSeq ∧ n.leftSeq ≤ n'.leftSeq := by
  intro d node n hn
  rw [List.countP_append] at hroom
  have hstart : (new config).Grown fun node => { node } := by
    intro node
    rw [lookup_new]
    exact .new node
  have hused := changeSeq_play_le (new config) inputs
  rw [new_changes, UInt32.toNat_zero, Nat.zero_add] at hused
  obtain ⟨hnumbered, hd⟩ := grown_play (numbered_new config) inputs
    (by rw [new_changes, UInt32.toNat_zero]; omega) hstart
  have hlater : (d.play more).Grown d.history.lookup :=
    (grown_play hnumbered more (by omega) fun node => (hd node).self).2
  obtain ⟨n', hn'⟩ : ∃ n', (d.play more).history.get? node = some n' := by
    have hknown : d.history.contains node = true := History.contains_iff.2 ⟨n, hn, trivial⟩
    obtain ⟨n', hn', -⟩ := History.contains_iff.1 (contains_play hknown more)
    exact ⟨n', hn'⟩
  have hbounds := hd node
  have hgrown := hlater node
  rw [History.lookup_of_get? hn] at hbounds hgrown
  rw [History.lookup_of_get? hn'] at hgrown
  exact ⟨keyed_play config inputs node n hn,
    ⟨hbounds.lastMatch.2, hbounds.fail.2, hbounds.left.2⟩,
    n', hn', hgrown.lastMatch.1, hgrown.fail.1, hgrown.left.1⟩

/-- The START of node 2 was matched with the first change, and then node 2 fails in the second. -/
theorem grows_play_failureAfterComplete :
    ((new pairConfig).play (failureAfterComplete.take 6)).history.Holds 2 (fun n =>
        n.lastMatchSeq = 1 ∧ n.failSeq = 0 ∧
          ∃ n', (((new pairConfig).play (failureAfterComplete.take 6)).play
              (failureAfterComplete.drop 6)).history.get? 2 = some n' ∧
            n.lastMatchSeq ≤ n'.lastMatchSeq ∧ n.failSeq ≤ n'.failSeq ∧ n.leftSeq ≤ n'.leftSeq) ∧
      (((new pairConfig).play (failureAfterComplete.take 6)).play
        (failureAfterComplete.drop 6)).history.Holds 2 (fun n => n.failSeq = 2) := by
  have hbefore : ((new pairConfig).play (failureAfterComplete.take 6)).history.Holds 2 fun n =>
      n.lastMatchSeq = 1 ∧ n.failSeq = 0 := by decide +kernel
  obtain ⟨n, hn, hmatched, hnever⟩ := hbefore
  obtain ⟨-, -, hlater⟩ := grows_play pairConfig (failureAfterComplete.take 6)
    (failureAfterComplete.drop 6) (by decide +kernel) 2 n hn
  exact ⟨⟨n, hn, hmatched, hnever, hlater⟩, by decide +kernel⟩

end Domain

end ClusterFence
