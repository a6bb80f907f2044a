import ClusterFence.Proofs.Domain.Histories
import ClusterFence.Proofs.Episode.Orderly

namespace ClusterFence

namespace Outage

/-- The record of the survivor `q` at the survivor `p` that numbers its changes up to `seq`: if all
    is `clear`, nothing speaks against its part in the change. -/
def Fits (o : Outage) (p : NodeId) (clear : Prop) (seq : UInt32) (q : NodeId)
    (n : NodeHistory) : Prop :=
  n.node = q ∧ (clear → n.NotAfter (o.time p) seq)

/-- What the survivor `p` has to know of all nodes. -/
structure Recorded (o : Outage) (p : NodeId) (clear : Prop) (d : Domain) : Prop where
  survivors : ∀ q ∈ o.survivors, d.history.Holds q (o.Fits p clear d.changes.changeSeq q)
  failed : ∀ f ∈ o.failed, d.history.Holds f (·.node = f)
  member : clear → ∀ q ∈ o.survivors, d.cluster.isMember q = true

variable {o : Outage} {p : NodeId} {clear : Prop} {order : List Posted} {d d' : Domain}
  {c : Change} {said : List (MessageFlags × Message)} {asked : Nat}

theorem notAfter_next {seq : UInt32} {n : NodeHistory} (hseq : seq + 1 ≠ 0)
    (h : n.NotAfter (o.time p) seq) : n.NotAfter (o.time p) (seq + 1) := by
  have hnext : seq ≤ seq + 1 := by
    have hmax : seq.toNat + 1 ≠ 2 ^ 32 := by
      intro hmax
      apply hseq
      apply UInt32.toNat.inj
      rw [UInt32.toNat_add, UInt32.toNat_one, hmax]
      rfl
    rw [UInt32.le_iff_toNat_le, UInt32.toNat_add, UInt32.toNat_one]
    have hlt := seq.toNat_lt
    omega
  obtain ⟨htime, hmatch, hfail, hleft⟩ := h
  exact ⟨htime, UInt32.le_trans hmatch hnext, UInt32.le_trans hfail hnext,
    UInt32.le_trans hleft hnext⟩

theorem Ready.keyed (h : o.Ready p d) : d.history.Keyed := by
  obtain ⟨config, inputs, heq⟩ := h.reachable
  rw [heq]
  exact Domain.keyed_play config inputs

theorem Ready.recorded (h : o.Ready p d) : o.Recorded p (o.Clear d) d where
  survivors q hq := by
    obtain ⟨n, hn, hnot⟩ := h.known q (List.mem_append_left _ hq)
    exact ⟨n, hn, h.keyed q n hn, fun _ => hnot⟩
  failed f hf := by
    obtain ⟨n, hn, -⟩ := h.known f (List.mem_append_right _ hf)
    exact ⟨n, hn, h.keyed f n hn⟩
  member hclear := hclear.member

/-- The removals are those of the failed nodes. -/
theorem Ready.recorded_queued (h : o.Ready p d) :
    o.Recorded p (o.Clear d) (o.queued p d) where
  survivors q hq := by
    have hseq : (o.queued p d).changes.changeSeq = d.changes.changeSeq + 1 := by simp [queued]
    obtain ⟨n, hn, hnot⟩ := h.known q (List.mem_append_left _ hq)
    have hfits : d.history.Holds q (o.Fits p (o.Clear d) (d.changes.changeSeq + 1) q) :=
      ⟨n, hn, h.keyed q n hn, fun hclear => notAfter_next hclear.seq hnot⟩
    rw [hseq, queued, Domain.addVictims_history]
    apply hfits.recordRemovals
    intro a ha heq
    apply absurd (List.mem_map_of_mem ha) (_ : a.node ∉ o.failed)
    rw [heq]
    exact not_mem_failed hq
  failed f hf := by
    have hknown := h.recorded.failed f hf
    rw [queued, Domain.addVictims_history]
    apply hknown.recordRemovals
    intro a ha heq n hn
    exact ⟨hn, hn⟩
  member hclear := by
    rw [queued, Domain.addVictims_cluster]
    exact hclear.member

namespace Recorded

/-- Nothing but the histories, the number of the latest change and the cluster matters. -/
theorem of_eq (h : o.Recorded p clear d) (hhistory : d'.history = d.history)
    (hseq : d'.changes.changeSeq = d.changes.changeSeq) (hcluster : d'.cluster = d.cluster) :
    o.Recorded p clear d' where
  survivors := by
    rw [hhistory, hseq]
    exact h.survivors
  failed := by
    rw [hhistory]
    exact h.failed
  member := by
    rw [hcluster]
    exact h.member

/-- A record that neither touches the node nor what is known of its part in changes. -/
theorem update (h : o.Recorded p clear d) {node : NodeId} {f : NodeHistory → NodeHistory}
    (hhistory : d'.history = d.history.update node f)
    (hseq : d'.changes.changeSeq = d.changes.changeSeq) (hcluster : d'.cluster = d.cluster)
    (hf : ∀ q n, o.Fits p clear d.changes.changeSeq q n →
      o.Fits p clear d.changes.changeSeq q (f n))
    (hnode : ∀ n, (f n).node = n.node) : o.Recorded p clear d' where
  survivors q hq := by
    rw [hhistory, hseq]
    exact (h.survivors q hq).keep fun _ n hn => hf q n hn
  failed q hq := by
    rw [hhistory]
    exact (h.failed q hq).keep fun _ n hn => (hnode n).trans hn
  member := by
    rw [hcluster]
    exact h.member

theorem advance (h : o.Recorded p clear d) : o.Recorded p clear d.advance.domain := by
  apply h.of_eq
  · exact d.advance_history
  · exact d.changeSeq_advance
  · exact d.advance_cluster

/-- A START that is matched with the current change is no later than that. -/
theorem receiveStart (h : o.Recorded p clear d) (hcourse : o.Course p order d said asked)
    (s : ReceivedStart) (now : Seconds) : o.Recorded p clear (d.receiveStart s now).1 := by
  obtain ⟨c, current⟩ | hpending := hcourse.current_or_nil
  · cases hdescribes : s.describes d.us d.history c with
    | false =>
      rw [Domain.receiveStart_of_not_describes current.pending hdescribes]
      exact h
    | true =>
      rw [Domain.receiveStart_of_describes current.pending (current.not_hasAdded _) hdescribes]
      refine ⟨?_, ?_, h.member⟩
      · intro q hq
        have hmatch : (d.history.recordMatch s.sender c.seq).Holds q
            (o.Fits p clear d.changes.changeSeq q) := by
          apply (h.survivors q hq).keep
          intro _ n ⟨hnode, hfits⟩
          refine ⟨hnode, ?_⟩
          intro hclear
          obtain ⟨htime, -, hfail, hleft⟩ := hfits hclear
          refine ⟨htime, ?_, hfail, hleft⟩
          dsimp only
          rw [current.seq]
          exact UInt32.le_refl _
        have hstart : ((d.history.recordMatch s.sender c.seq).recordStart s.sender now).Holds q
            (o.Fits p clear d.changes.changeSeq q) := hmatch.keep fun _ n hn => hn
        apply hstart.merge
        intro n e hn
        unfold NodeHistory.adoptExternal NodeHistory.adoptFencing
        split <;> split <;> exact hn
      · intro f hf
        have hmatch : (d.history.recordMatch s.sender c.seq).Holds f (·.node = f) :=
          (h.failed f hf).keep fun _ n hn => hn
        have hstart : ((d.history.recordMatch s.sender c.seq).recordStart s.sender now).Holds f
            (·.node = f) := hmatch.keep fun _ n hn => hn
        apply hstart.merge
        intro n e hn
        unfold NodeHistory.adoptExternal NodeHistory.adoptFencing
        split <;> split <;> exact hn
  · rw [Domain.receiveStart_of_pending_nil hpending]
    exact h

theorem accept (h : o.Recorded p clear d) (hcourse : o.Course p order d said asked)
    (m : Posted) (now : Seconds) : o.Recorded p clear (d.accept m.envelope now).1 := by
  unfold Domain.accept
  cases hmessage : m.message with
  | protocol offer =>
    simp only [Posted.envelope, hmessage]
    exact h
  | start report =>
    simp only [Posted.envelope, hmessage]
    exact h.receiveStart hcourse _ now
  | victimDone seq entry =>
    simp only [Posted.envelope, hmessage, Domain.receiveVictimDone]
    have hnoted : o.Recorded p clear
        { d with
          history := d.history.recordFencedLocal entry.node now
          victims := d.victims.erase entry.node } :=
      h.update rfl rfl rfl (fun q n hn => hn) fun n => rfl
    split
    · exact hnoted
    · exact hnoted.update rfl rfl rfl (fun q n hn => hn) fun n => rfl
  | complete report =>
    simp only [Posted.envelope, hmessage, Domain.receiveComplete]
    split <;> exact h.of_eq rfl rfl rfl
  | external victim =>
    simp only [Posted.envelope, hmessage]
    exact h.update rfl rfl rfl (fun q n hn => hn) fun n => rfl

/-- A snapshot that keeps the survivors tells nothing new about those that were members. -/
theorem cluster (h : o.Recorded p clear d) {s : ClusterSnapshot}
    (hkeeps : d.cluster.keeps s o.survivors = true) (now : Seconds) :
    o.Recorded p clear
      { d with
        cluster := d.cluster.update s now
        history := d.cluster.updateHistory s d.history now } where
  survivors q hq := by
    apply (h.survivors q hq).updateHistory
    intro t ht heq n hn
    have hnew (hclear : clear) : False :=
      ClusterView.ne_of_mem_transitions hkeeps hq (h.member hclear q hq) ht heq
    have hfits (n' : NodeHistory) (hnode : n'.node = q) :
        o.Fits p clear d.changes.changeSeq q n' := ⟨hnode, fun hclear => (hnew hclear).elim⟩
    exact ⟨hfits _ hn.1, hfits _ hn.1⟩
  failed f hf := by
    apply (h.failed f hf).updateHistory
    intro t ht heq n hn
    exact ⟨hn, hn⟩
  member _ q hq := ClusterView.isMember_update hkeeps hq now

end Recorded

end Outage

end ClusterFence
